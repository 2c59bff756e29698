import PeerLedger.Sessions.Handlers

/-!
# For whom a request acts

The cookies of a browser were issued to one user, every handler acts for the user of the cookies that
its request carries, and every response sets cookies of one user: each step keeps this, however many
handlers refresh the same token at the same time and in whatever order their responses arrive.

So a request acts for one user, to whom its cookies were issued and who has signed in at the browser
(`requests_act_for_one_user`).
-/

namespace PeerLedger

namespace Sessions

open Formats Dialogues

variable {β : Type} {s : Setting} {b : β} {userId : String} {log log' : Log β} {request : Request}

/-! ### What holds in every state -/

/-- The request acts for one user, to whom its cookies were issued. -/
def Task.Ok (s : Setting) (log : Log β) (task : Task β) : Prop :=
  ∃ userId, CookiesOf s.platform task.browser userId log task.cookies ∧
    task.handler.Meets (rules s task.browser userId task.request)
      (Sets s.platform task.browser) log ∧
    ∀ call principal, (call, principal) ∈ task.accepted → principal.userId = userId ∧
      SignedIn s.platform log task.browser userId ∧ task.request.Allows s.env call

/-- The cookies of every browser were issued to one user who has signed in there. -/
structure Web.Ok (s : Setting) (w : Web β) : Prop where
  cookies : ∀ b, ∃ userId, CookiesOf s.platform b userId w.log (w.cookies b)
  tasks : ∀ task ∈ w.tasks, task.Ok s w.log

lemma Sets.mono {r : Except FrontendError Response} (h : Sets s.platform b log r)
    (hle : log ≤ log') : Sets s.platform b log' r := by
  intro response pair hr hpair
  obtain ⟨userId, hown⟩ := h response pair hr hpair
  exact ⟨userId, hown.mono hle⟩

lemma Task.Ok.mono {task : Task β} (h : task.Ok s log) (hle : log ≤ log') : task.Ok s log' := by
  obtain ⟨userId, hcookies, hmeets, haccepted⟩ := h
  refine ⟨userId, hcookies.mono hle, Dialogue.Meets.mono hmeets hle fun _ h => h.mono hle, ?_⟩
  intro call principal hcall
  obtain ⟨huser, hsigned, hallows⟩ := haccepted call principal hcall
  exact ⟨huser, hsigned.mono hle, hallows⟩

lemma cookiesOf_none : CookiesOf s.platform b userId log ⟨none, none⟩ :=
  ⟨fun _ h => absurd h (by simp), fun _ h => absurd h (by simp)⟩

lemma ok_initial (s : Setting) : (Web.initial : Web β).Ok s where
  cookies _ := ⟨"", cookiesOf_none⟩
  tasks _ h := absurd h List.not_mem_nil

/-- A refresh that succeeds is for the user of the token. -/
lemma refresh_answers {token : List Char} {d : Auth.Draws} {pair : Auth.TokenPair}
    (h : IssuedTo s.platform b userId .JWT_REFRESH_SECRET log token)
    (hpair : ((Auth.Operation.refresh token).perform s.platform d (log.auth s.platform)).2 =
      .ok pair) : PairAt s.platform b (log.add b d (.refresh token)) userId pair := by
  obtain ⟨userId', hfor, hissued⟩ := perform_pairFor hpair
  obtain ⟨t, ht, hsub, htext, hsecret⟩ := Auth.mem_signed_of_subject hfor
  obtain rfl : userId' = userId := userId_eq ⟨t, ht, htext, hsub, hsecret⟩ h.signedFor
  have hsigned : SignedIn s.platform (log.add b d (.refresh token)) b userId' :=
    h.signedIn.mono (le_add d _)
  rw [← auth_add] at hissued
  exact ⟨⟨hsigned, hissued.access⟩, ⟨hsigned, hissued.refresh⟩⟩

/-- Credentials that are accepted sign a user in at the browser. -/
lemma credentials_answers (operation : Auth.Operation) (hoperation : IsCredentials operation)
    {d : Auth.Draws} {pair : Auth.TokenPair}
    (hpair : (operation.perform s.platform d (log.auth s.platform)).2 = .ok pair) :
    ∃ userId', PairAt s.platform b (log.add b d operation) userId' pair := by
  obtain ⟨userId', hfor, hissued⟩ := perform_pairFor hpair
  have hsigned : SignedIn s.platform (log.add b d operation) b userId' :=
    ⟨log.entries, d, operation, [], rfl, hoperation, hfor, pair, hpair⟩
  rw [← auth_add] at hissued
  exact ⟨userId', ⟨hsigned, hissued.access⟩, ⟨hsigned, hissued.refresh⟩⟩

lemma ok_of_mapError {r : Except Auth.HttpError Auth.TokenPair} {pair : Auth.TokenPair}
    (h : some (r.mapError Refusal.of) = some (Except.ok pair)) : r = .ok pair := by
  rcases r with e | found
  · exact absurd (Option.some.inj h) (by simp [Except.mapError])
  · exact congrArg Except.ok (Except.ok.inj (Option.some.inj h))

/-- The gateway and the auth service answer by the rules, and what the gateway accepts is a call for
the user of the request. -/
lemma Exchange.follows {event : Event β} {q : GatewayCall} {answer : q.Answer}
    {accepted : List (BffCall × Principal)}
    (h : Exchange s b log event q answer log' accepted)
    (hasks : (rules s b userId request).asks log q) :
    log ≤ log' ∧ (rules s b userId request).answers log' q answer ∧
      ∀ call principal, (call, principal) ∈ accepted → principal.userId = userId ∧
        SignedIn s.platform log' b userId ∧ request.Allows s.env call := by
  have hnone : ∀ call principal, (call, principal) ∈ ([] : List (BffCall × Principal)) →
      principal.userId = userId ∧ SignedIn s.platform log' b userId ∧
        request.Allows s.env call := fun _ _ hmem => absurd hmem List.not_mem_nil
  cases h with
  | answered operation d =>
    refine ⟨le_add d operation, ?_, hnone⟩
    rcases operation with dto | dto | token
    · intro pair hpair
      exact credentials_answers (.register dto) trivial (ok_of_mapError hpair)
    · intro pair hpair
      exact credentials_answers (.login dto) trivial (ok_of_mapError hpair)
    · exact fun pair hpair => refresh_answers hasks (ok_of_mapError hpair)
  | answerLost operation d answer hanswer =>
    refine ⟨le_add d operation, ?_, hnone⟩
    rcases operation with dto | dto | token <;> exact fun pair hpair => absurd hpair (hanswer pair)
  | requestLost operation answer hanswer =>
    refine ⟨le_rfl, ?_, hnone⟩
    rcases operation with dto | dto | token <;> exact fun pair hpair => absurd hpair (hanswer pair)
  | accepted call now principal answer haccess =>
    refine ⟨le_rfl, trivial, fun call' principal' hmem => ?_⟩
    obtain ⟨rfl, rfl⟩ := Prod.mk.inj (List.mem_singleton.mp hmem)
    exact ⟨userId_of_canActivate (run_signs _ _) hasks.1.signedFor haccess, hasks.1.signedIn,
      hasks.2⟩
  | rejected call now e hreject => exact ⟨le_rfl, trivial, hnone⟩
  | callLost call => exact ⟨le_rfl, trivial, hnone⟩

/-- A response sets cookies of one user. -/
lemma Task.Ok.response {task : Task β} (h : task.Ok s log) {response : Response}
    (hresponse : task.response? = some response) {cookies : Cookies}
    (hcookies : ∃ userId, CookiesOf s.platform task.browser userId log cookies) :
    ∃ userId, CookiesOf s.platform task.browser userId log (response.cookies.apply cookies) := by
  obtain ⟨_, _, hmeets, _⟩ := h
  unfold Task.response? at hresponse
  split at hresponse
  · next found hdone =>
    obtain rfl := Option.some.inj hresponse
    rw [hdone] at hmeets
    match hset : found.cookies with
    | .keep => exact hcookies
    | .clear => exact ⟨"", cookiesOf_none⟩
    | .tokens pair =>
      obtain ⟨userId, haccess, hrefresh⟩ := hmeets found pair rfl hset
      refine ⟨userId, fun token h => ?_, fun token h => ?_⟩
      · exact Option.some.inj h ▸ haccess
      · exact Option.some.inj h ▸ hrefresh
  · obtain rfl := Option.some.inj hresponse
    exact hcookies
  · exact absurd hresponse (by simp)

variable [DecidableEq β] {w w' : Web β}

/-- One step keeps the invariant. -/
lemma Web.Ok.step (hw : w.Ok s) {event : Event β} (h : Step s w event w') : w'.Ok s := by
  have hset : ∀ {tasks : List (Task β)} {log : Log β} {i : ℕ} {task : Task β},
      (∀ task ∈ tasks, task.Ok s log) → task.Ok s log →
      ∀ task' ∈ tasks.set i task, task'.Ok s log := by
    intro tasks log i task htasks htask task' hmem
    rcases List.mem_or_eq_of_mem_set hmem with hmem | rfl
    · exact htasks task' hmem
    · exact htask
  cases h with
  | send b now request =>
    refine ⟨hw.cookies, fun task hmem => ?_⟩
    rcases List.mem_append.mp hmem with hmem | hmem
    · exact hw.tasks task hmem
    · obtain rfl := List.mem_singleton.mp hmem
      obtain ⟨userId, hcookies⟩ := hw.cookies b
      exact ⟨userId, hcookies, handle_meets hcookies now request,
        fun _ _ h => absurd h List.not_mem_nil⟩
  | @exchange i task q k answer _ log accepted htask hask hexchange =>
    obtain ⟨userId, hcookies, hmeets, haccepted⟩ := hw.tasks task (List.mem_of_getElem? htask)
    rw [hask] at hmeets
    obtain ⟨hle, hanswer, hnew⟩ := hexchange.follows hmeets.1
    refine ⟨fun b => ?_, hset (fun task hmem => (hw.tasks task hmem).mono hle) ?_⟩
    · obtain ⟨userId, hown⟩ := hw.cookies b
      exact ⟨userId, hown.mono hle⟩
    · refine ⟨userId, hcookies.mono hle, hmeets.2 log hle answer hanswer, ?_⟩
      intro call principal hmem
      rcases List.mem_append.mp hmem with hmem | hmem
      · obtain ⟨huser, hsigned, hallows⟩ := haccepted call principal hmem
        exact ⟨huser, hsigned.mono hle, hallows⟩
      · exact hnew call principal hmem
  | @deliver i task response htask hdelivered hresponse =>
    have hok := hw.tasks task (List.mem_of_getElem? htask)
    refine ⟨fun b => ?_, hset hw.tasks hok⟩
    by_cases hb : b = task.browser
    · subst hb
      dsimp only
      rw [Function.update_self]
      exact hok.response hresponse (hw.cookies _)
    · dsimp only
      rw [Function.update_of_ne hb]
      exact hw.cookies b
  | @lose i task htask =>
    exact ⟨hw.cookies, hset hw.tasks (hw.tasks task (List.mem_of_getElem? htask))⟩
  | forget b cookies haccess hrefresh =>
    refine ⟨fun b' => ?_, hw.tasks⟩
    obtain ⟨userId, hown⟩ := hw.cookies b'
    by_cases hb : b' = b
    · subst hb
      dsimp only
      rw [Function.update_self]
      refine ⟨userId, fun token h => ?_, fun token h => ?_⟩
      · rcases haccess with hnone | hsame
        · exact absurd (h.symm.trans hnone) (by simp)
        · exact hown.access token (hsame.symm.trans h)
      · rcases hrefresh with hnone | hsame
        · exact absurd (h.symm.trans hnone) (by simp)
        · exact hown.refresh token (hsame.symm.trans h)
    · dsimp only
      rw [Function.update_of_ne hb]
      exact ⟨userId, hown⟩

/-- The invariant holds in every state. -/
lemma Reached.ok (h : Reached s w) : w.Ok s := by
  induction h with
  | refl => exact ok_initial s
  | tail _ hstep ih =>
    obtain ⟨event, hstep⟩ := hstep
    exact ih.step hstep

/-- Sessions do not cross.  In every reachable state the gateway has accepted the calls of a request
for one principal only: the user to whom the cookies of the request were issued, who has signed in
at the browser with an email and a password.  This holds after a refresh in the middle of the
request, too, and a call that is not a read comes from a request with a trusted origin or from the
server action. -/
theorem requests_act_for_one_user (h : Reached s w) {task : Task β} (htask : task ∈ w.tasks) :
    ∃ userId, CookiesOf s.platform task.browser userId w.log task.cookies ∧
      ∀ call principal, (call, principal) ∈ task.accepted → principal.userId = userId ∧
        SignedIn s.platform w.log task.browser userId ∧ task.request.Allows s.env call := by
  obtain ⟨userId, hcookies, -, haccepted⟩ := h.ok.tasks task htask
  exact ⟨userId, hcookies, haccepted⟩

/-! ### Ann reads who she is -/

def annsSite : Setting where
  env := { frontendOrigin := none, originOf := fun _ => none }
  platform := Auth.plain
  secret := some "access".toList

/-- A request for `/api/bff/me`. -/
def annsRead : BffRequest where
  method := .get
  origin := ⟨none, []⟩
  segments := ["me".toList]
  search := []
  contentType := none
  idempotencyKey := none
  text := []

/-- The tokens of Ann's registration. -/
def annsPair : Auth.TokenPair where
  accessToken := (Auth.plain.sign "access".toList Auth.annsRow 0 900).text
  refreshToken := Auth.annsToken 0

lemma perform_register :
    ((Auth.Operation.register Auth.ann).perform Auth.plain (Auth.drawsAt 0)
      (Auth.run Auth.plain [])).2 = .ok annsPair := by decide +kernel

lemma canActivate_ann : canActivate (some "access".toList)
    (Auth.run Auth.plain [(Auth.drawsAt 0, .register Auth.ann)]) 1
      (some (annsRead.call annsPair.accessToken).authorization) =
    .ok ⟨Auth.annsId, "ann@example.com", "user"⟩ := by decide +kernel

/-- The request of Ann's registration, with the handler that is left. -/
def annsRegistration (handler : Handler Response) (delivered : Bool) : Task Unit where
  browser := ()
  cookies := ⟨none, none⟩
  request := .register Auth.ann ⟨none, []⟩
  handler := handler
  accepted := []
  delivered := delivered

def annsLog : Log Unit := ⟨[((), Auth.drawsAt 0, .register Auth.ann)]⟩

def annsResponse : Response :=
  { Response.json 200 "ok".toList (.bool true) with cookies := .tokens annsPair }

def annsCookies : Cookies := ⟨some annsPair.accessToken, some annsPair.refreshToken⟩

/-- Ann has registered, and her browser has the cookies. -/
def annsRegistered : Web Unit where
  cookies _ := annsCookies
  log := annsLog
  tasks := [annsRegistration (.done (.ok annsResponse)) true]

/-- The run of Ann's registration. -/
lemma run_annsRegistered : ∃ w₁ w₂ request operation d, (∀ origin, request ≠ .logout origin) ∧
    IsCredentials operation ∧ Step annsSite Web.initial (.send () request) w₁ ∧
    Step annsSite w₁ (.answered () operation d) w₂ ∧
    Step annsSite w₂ (.delivered ()) annsRegistered := by
  have hsend : Step annsSite Web.initial (.send () (.register Auth.ann ⟨none, []⟩))
      { Web.initial with tasks := [annsRegistration
          (handle annsSite.env 0 ⟨none, none⟩ (.register Auth.ann ⟨none, []⟩)) false] } :=
    .send () 0 (.register Auth.ann ⟨none, []⟩)
  have hexchange : Step annsSite
      { Web.initial with tasks := [annsRegistration
          (handle annsSite.env 0 ⟨none, none⟩ (.register Auth.ann ⟨none, []⟩)) false] }
      (.answered () (.register Auth.ann) (Auth.drawsAt 0))
      { cookies := fun _ => ⟨none, none⟩, log := annsLog,
        tasks := [annsRegistration (.done (.ok annsResponse)) false] } := by
    have hstep := Step.exchange (s := annsSite) (i := 0) (w := { Web.initial with tasks :=
      [annsRegistration (handle annsSite.env 0 ⟨none, none⟩ (.register Auth.ann ⟨none, []⟩))
        false] }) rfl rfl (.answered (.register Auth.ann) (Auth.drawsAt 0))
    have hperform : ((Auth.Operation.register Auth.ann).perform annsSite.platform (Auth.drawsAt 0)
        (Log.auth annsSite.platform (⟨[]⟩ : Log Unit))).2 = .ok annsPair := perform_register
    rw [Web.initial, hperform] at hstep
    exact hstep
  have hdeliver : Step annsSite
      { cookies := fun _ => ⟨none, none⟩, log := annsLog,
        tasks := [annsRegistration (.done (.ok annsResponse)) false] } (.delivered ())
      annsRegistered := by
    have hstep := Step.deliver (s := annsSite) (i := 0) (w :=
      { cookies := fun _ => ⟨none, none⟩, log := annsLog,
        tasks := [annsRegistration (.done (.ok annsResponse)) false] }) rfl rfl rfl
    have hupdate : Function.update (fun _ : Unit => (⟨none, none⟩ : Cookies)) ()
        annsCookies = fun _ => annsCookies := funext fun _ => Function.update_self ..
    rw [annsRegistered, ← hupdate]
    exact hstep
  exact ⟨_, _, .register Auth.ann ⟨none, []⟩, .register Auth.ann, Auth.drawsAt 0, fun _ => by simp,
    trivial, hsend, hexchange, hdeliver⟩

lemma reached_annsRegistered : Reached annsSite annsRegistered := by
  obtain ⟨w₁, w₂, request, operation, d, -, -, hsend, hexchange, hdeliver⟩ := run_annsRegistered
  exact ((Relation.ReflTransGen.single ⟨_, hsend⟩).tail ⟨_, hexchange⟩).tail ⟨_, hdeliver⟩

/-- What Ann's browser asks the proxy is accepted for Ann. -/
theorem requests_act_for_one_user_ann : ∃ (w : Web Unit) (task : Task Unit), task ∈ w.tasks ∧
    task.accepted.map (·.2.userId) = [Auth.annsId] ∧
    SignedIn Auth.plain w.log task.browser Auth.annsId := by
  have hsend := Step.send (s := annsSite) (w := annsRegistered) () 1 (.bff annsRead)
  have hcall := Step.exchange (s := annsSite) (i := 1) (w := { annsRegistered with
    tasks := annsRegistered.tasks ++ [{ browser := (), cookies := annsCookies,
                                        request := .bff annsRead,
                                        handler := handle annsSite.env 1 annsCookies (.bff annsRead),
                                        accepted := [], delivered := false }] }) rfl rfl
    (.accepted (annsRead.call annsPair.accessToken) 1 _ none canActivate_ann)
  have hreached := (reached_annsRegistered.tail ⟨_, hsend⟩).tail ⟨_, hcall⟩
  obtain ⟨userId, -, haccepted⟩ :=
    requests_act_for_one_user hreached (List.mem_cons_of_mem _ List.mem_cons_self)
  obtain ⟨rfl, hsigned, -⟩ := haccepted _ _ List.mem_cons_self
  exact ⟨_, _, List.mem_cons_of_mem _ List.mem_cons_self, rfl, hsigned⟩

end Sessions

end PeerLedger
