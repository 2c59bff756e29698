import PeerLedger.Sessions.RequestUsers

/-!
# Renewing the tokens of a session

The handlers of one browser refresh its tokens at the same time, each with the refresh token that its
request carries; the auth service answers every refresh of a token that it has issued and that has
not expired.  So no handler clears the cookies unless the browser signs out or a refresh is lost, and
a session survives (`session_survives`).
-/

namespace PeerLedger

namespace Sessions

open Dialogues

variable {β : Type} {s : Setting} {b : β} {userId : String} {log log' : Log β}

/-! ### Undisturbed sessions -/

/-- Nothing ends the session of the browser: it does not sign out or lose a cookie, and the auth
service answers its refreshes before the token expires. -/
def Calm (p : Auth.Platform) (b : β) (log : Log β) : Event β → Prop
  | .send b' request => b' = b → ∀ origin, request ≠ .logout origin
  | .answered b' (.refresh token) d =>
    b' = b → ∀ t ∈ (log.auth p).signed, t.text = token → d.verifiedAt < t.exp
  | .unanswered b' (.refresh _) => b' ≠ b
  | .forgotten b' => b' ≠ b
  | _ => True

/-- The runs in which nothing ends the session of the browser. -/
def CalmRun [DecidableEq β] (s : Setting) (b : β) : Web β → Web β → Prop :=
  Relation.ReflTransGen fun w w' => ∃ event, Step s w event w' ∧ Calm s.platform b w.log event

/-- Every refresh is answered with tokens. -/
def refreshed : Rules (W := Log β) GatewayCall GatewayCall.Answer where
  asks _ _ := True
  answers _
    | .auth (.refresh _), answer => ∃ pair, answer = some (.ok pair)
    | _, _ => True
  asks_mono _ _ := trivial

/-- The response does not clear the cookies. -/
def Keeps (_ : Log β) (r : Except FrontendError Response) : Prop :=
  ∀ response, r = .ok response → response.cookies ≠ .clear

/-- There are both cookies or none. -/
def Paired (cookies : Cookies) : Prop :=
  cookies = ⟨none, none⟩ ∨
    ∃ a access r refresh, cookies = ⟨some (a :: access), some (r :: refresh)⟩

/-! ### No handler clears the cookies -/

lemma keeps_ok {response : Response} (h : response.cookies ≠ .clear) :
    Keeps log (.ok response) := fun _ heq => Except.ok.inj heq ▸ h

lemma keeps_error {e : FrontendError} : Keeps log (.error e) :=
  fun _ heq => absurd heq (by simp)

lemma Leaves.keeps {r : Except FrontendError Response} (h : Leaves log r) : Keeps log r := by
  intro response hr
  rw [h response hr]
  simp

lemma fetchAuth_refreshed (token : List Char) :
    (fetchAuth (.refresh token)).Meets refreshed
      (fun _ r => ∃ pair, r = .ok (.ok pair)) log := by
  refine (fetchAuth_meets trivial).imp fun log' r hanswer => ?_
  obtain ⟨pair, hpair⟩ := hanswer
  rcases r with e | answer
  · have hnone : (none : Option (Except Refusal Auth.TokenPair)) = some (.ok pair) := hpair
    exact absurd hnone (by simp)
  · exact ⟨pair, congrArg Except.ok (Option.some.inj hpair)⟩

lemma calls_refreshed (cookies : Cookies) (method : Method) :
    Calls refreshed cookies method log := fun _ _ _ => trivial

/-- A token is refreshed. -/
lemma refreshTokens_refreshed (r : Char) (refresh : List Char) :
    (refreshTokens (some (r :: refresh))).Meets refreshed
      (fun _ result => ∃ pair, result = .ok (some pair)) log := by
  refine (fetchAuth_refreshed (r :: refresh)).bind (fun log' _ response hresponse => ?_)
    fun _ _ e he => ?_
  · obtain ⟨pair, hpair⟩ := hresponse
    obtain rfl := Except.ok.inj hpair
    exact ⟨pair, rfl⟩
  · obtain ⟨pair, hpair⟩ := he
    exact absurd hpair (by simp)

lemma proxied_some (upstream : Upstream) (pair : Auth.TokenPair) :
    (proxied upstream (some pair)).cookies ≠ .clear := by simp [proxied]

lemma forward_keeps {cookies : Cookies} {r : Char} {refresh : List Char}
    (hrefresh : cookies.refreshToken = some (r :: refresh)) (bffRequest : BffRequest)
    (accessToken : List Char) (renewed : Option Auth.TokenPair) :
    (forward cookies bffRequest accessToken renewed).Meets refreshed Keeps log := by
  unfold forward
  refine (fetchBff_meets trivial).bind (fun log₁ _ upstream _ => ?_) fun _ _ _ _ => keeps_error
  split
  · rw [hrefresh]
    refine (refreshTokens_refreshed r refresh).bind (fun log₂ _ pair hpair => ?_)
      fun _ _ _ _ => keeps_error
    obtain ⟨pair', hpair⟩ := hpair
    obtain rfl := Except.ok.inj hpair
    refine (fetchBff_meets trivial).bind (fun log₃ _ upstream' _ => ?_) fun _ _ _ _ => keeps_error
    exact keeps_ok (proxied_some upstream' pair')
  · next hstatus =>
    refine keeps_ok ?_
    rcases renewed with _ | pair
    · simp [proxied, hstatus]
    · exact proxied_some upstream pair

lemma proxyBffRequest_keeps {cookies : Cookies} (hcookies : Paired cookies)
    (bffRequest : BffRequest) :
    (proxyBffRequest s.env cookies bffRequest).Meets refreshed Keeps log := by
  unfold proxyBffRequest
  split
  · exact keeps_ok (by simp [Response.json])
  · rcases hcookies with rfl | ⟨a, access, r, refresh, rfl⟩
    · exact keeps_ok (by simp [Response.json])
    · exact forward_keeps rfl bffRequest (a :: access) none

lemma middleware_keeps {cookies : Cookies} (hcookies : Paired cookies) (now : ℕ)
    (segments : List (List Char)) {next : Handler Response}
    (hnext : next.Meets refreshed Keeps log) :
    (middleware now cookies segments next).Meets refreshed Keeps log := by
  rcases hcookies with rfl | ⟨a, access, r, refresh, rfl⟩
  · exact keeps_ok (by simp [loginRedirect, Response.redirectTo])
  · have hrenew : (renew (some (r :: refresh)) segments).Meets refreshed Keeps log := by
      refine Dialogue.Meets.attempt (?_ : Dialogue.Meets refreshed
        (fun _ result => ∃ response, result = .ok response ∧ response.cookies ≠ .clear) log _)
        fun log₁ _ result hresult => ?_
      · refine (fetchAuth_refreshed (r :: refresh)).bind (fun log₁ _ response hresponse => ?_)
          fun _ _ e he => ?_
        · obtain ⟨pair, hpair⟩ := hresponse
          obtain rfl := Except.ok.inj hpair
          exact ⟨_, rfl, by simp [Response.redirectTo]⟩
        · obtain ⟨pair, hpair⟩ := he
          exact absurd hpair (by simp)
      · obtain ⟨response, rfl, hresponse⟩ := hresult
        exact keeps_ok hresponse
    unfold middleware
    dsimp only
    split
    · exact hrenew
    · exact hnext

lemma signIn_keeps (operation : Auth.Operation) (failure : ℕ) (origin : RequestOrigin) :
    (signIn s.env operation failure origin).Meets refreshed Keeps log := by
  refine (signIn_meets trivial failure origin).imp fun log' r hr response heq => ?_
  rcases hr response heq with hkeep | ⟨pair, hpair, -⟩
  · simp [hkeep]
  · simp [hpair]

/-- A request other than logout keeps the cookies. -/
lemma handle_keeps {cookies : Cookies} (hcookies : Paired cookies) (now : ℕ) {request : Request}
    (hrequest : ∀ origin, request ≠ .logout origin) :
    (handle s.env now cookies request).Meets refreshed Keeps log := by
  rcases request with bffRequest | page | input | ⟨dto, origin⟩ | ⟨dto, origin⟩ | origin
  · exact proxyBffRequest_keeps hcookies bffRequest
  · have hrender : (render cookies page).Meets refreshed Keeps log :=
      (render_meets (calls_refreshed cookies .get) page).imp fun _ _ => Leaves.keeps
    by_cases hmatched : page.segments.head? ∈ matcher.map some
    · rw [handle, if_pos hmatched]
      exact middleware_keeps hcookies now _ hrender
    · rw [handle, if_neg hmatched]
      exact hrender
  · exact middleware_keeps hcookies now _
      ((createSplitBill_meets (calls_refreshed cookies .post) input).imp fun _ _ => Leaves.keeps)
  · exact signIn_keeps (.login dto) 401 origin
  · exact signIn_keeps (.register dto) 400 origin
  · exact absurd rfl (hrequest origin)

/-! ### The session survives -/

variable {w w' : Web β}

/-- A refresh token that was issued verifies until it expires. -/
lemma subject_of_issued {auth : Auth.World} {token : List Char} {now : ℕ}
    (h : SignedFor s.platform .JWT_REFRESH_SECRET auth.signed userId token)
    (hlive : ∀ t ∈ auth.signed, t.text = token → now < t.exp) :
    ∃ sub, auth.subject s.platform now token = some sub := by
  obtain ⟨t, ht, htext, -, hsecret⟩ := h
  have hsome : (auth.signed.find? fun t' => t'.text = token ∧ t'.secret = t.secret ∧
      now < t'.exp).isSome = true :=
    List.find?_isSome.mpr ⟨t, ht, decide_eq_true ⟨htext, rfl, hlive t ht htext⟩⟩
  obtain ⟨found, hfound⟩ := Option.isSome_iff_exists.mp hsome
  refine ⟨found.sub, ?_⟩
  rw [Auth.World.subject, hsecret]
  dsimp only
  rw [Auth.World.verify, hfound, Option.map_some]

/-- A refresh token that was issued is refreshed until it expires. -/
lemma refresh_of_issued (hp : s.platform.Lawful) {token : List Char} {d : Auth.Draws}
    (h : SignedFor s.platform .JWT_REFRESH_SECRET (log.auth s.platform).signed userId token)
    (hlive : ∀ t ∈ (log.auth s.platform).signed, t.text = token → d.verifiedAt < t.exp) :
    ∃ pair, (Auth.refresh s.platform d token (log.auth s.platform)).2 = .ok pair := by
  obtain ⟨sub, hsub⟩ := subject_of_issued h hlive
  exact Auth.refresh_of_subject hp (Auth.run_inv s.platform _) hsub

/-- In a calm run every refresh of the browser is answered with tokens. -/
lemma Exchange.refreshed (hp : s.platform.Lawful) {event : Event β} {q : GatewayCall}
    {answer : q.Answer} {accepted : List (BffCall × Principal)}
    (h : Exchange s b log event q answer log' accepted)
    (hcalm : Calm s.platform b log event)
    (hasks : (rules s b userId request).asks log q) :
    (Sessions.refreshed (β := β)).answers log' q answer := by
  cases h with
  | answered operation d =>
    rcases operation with dto | dto | token
    · trivial
    · trivial
    · obtain ⟨pair, hpair⟩ := refresh_of_issued hp hasks.signedFor (hcalm rfl)
      refine ⟨pair, ?_⟩
      change some ((Auth.refresh s.platform d token (log.auth s.platform)).2.mapError Refusal.of) = _
      rw [hpair]
      rfl
  | answerLost operation d answer hanswer =>
    rcases operation with dto | dto | token
    · trivial
    · trivial
    · exact absurd rfl hcalm
  | requestLost operation answer hanswer =>
    rcases operation with dto | dto | token
    · trivial
    · trivial
    · exact absurd rfl hcalm
  | accepted call now principal answer haccess => trivial
  | rejected call now e hreject => trivial
  | callLost call => trivial

/-- The browser has both cookies or none, and none of its requests clears them. -/
structure Undisturbed (s : Setting) (b : β) (w : Web β) : Prop where
  ok : w.Ok s
  cookies : Paired (w.cookies b)
  tasks : ∀ task ∈ w.tasks, task.browser = b → task.handler.Meets refreshed Keeps w.log

/-- A token that was issued is not empty. -/
lemma cons_of_issued {name : Auth.SecretName} {token : List Char}
    (h : IssuedTo s.platform b userId name log token) : ∃ c rest, token = c :: rest := by
  obtain ⟨t, ht, rfl, -, -⟩ := h.signedFor
  obtain ⟨user, iat, lifetime, heq⟩ := run_signs s.platform _ t ht
  obtain ⟨c, rest, hsign, -⟩ := sign_cons (p := s.platform) t.secret
    (Auth.payload user iat (iat + lifetime))
  refine ⟨c, rest, ?_⟩
  rw [heq]
  exact hsign

/-- What the cookies of the browser become when a response arrives. -/
lemma Undisturbed.response (hw : Undisturbed s b w) {task : Task β} (htask : task ∈ w.tasks)
    (hb : task.browser = b) {response : Response} (hresponse : task.response? = some response) :
    response.cookies = .keep ∨
      Paired (response.cookies.apply (w.cookies b)) ∧
        (response.cookies.apply (w.cookies b)).refreshToken ≠ none := by
  obtain ⟨_, _, hmeets, _⟩ := hw.ok.tasks task htask
  have hkeeps := hw.tasks task htask hb
  unfold Task.response? at hresponse
  split at hresponse
  · next found hdone =>
    obtain rfl := Option.some.inj hresponse
    rw [hdone] at hmeets hkeeps
    match hset : found.cookies with
    | .keep => exact .inl rfl
    | .clear => exact absurd hset (hkeeps found rfl)
    | .tokens pair =>
      obtain ⟨userId, haccess, hrefresh⟩ := hmeets found pair rfl hset
      obtain ⟨a, access, ha⟩ := cons_of_issued haccess
      obtain ⟨r, refresh, hr⟩ := cons_of_issued hrefresh
      refine .inr ⟨.inr ⟨a, access, r, refresh, ?_⟩, ?_⟩
      · rw [SetCookie.apply, ha, hr]
      · simp [SetCookie.apply]
  · obtain rfl := Option.some.inj hresponse
    exact .inl rfl
  · exact absurd hresponse (by simp)

lemma undisturbed_initial (s : Setting) (b : β) : Undisturbed s b Web.initial where
  ok := ok_initial s
  cookies := .inl rfl
  tasks _ h := absurd h List.not_mem_nil

/-- A step that leaves the cookies of the browser as they are. -/
lemma Undisturbed.same (hw : Undisturbed s b w) (hok : w'.Ok s)
    (hcookies : w'.cookies b = w.cookies b)
    (htasks : ∀ task ∈ w'.tasks, task.browser = b → task.handler.Meets refreshed Keeps w'.log) :
    Undisturbed s b w' ∧
      ((w.cookies b).refreshToken ≠ none → (w'.cookies b).refreshToken ≠ none) := by
  rw [hcookies]
  exact ⟨⟨hok, hcookies ▸ hw.cookies, htasks⟩, id⟩

/-- A task takes the place of another. -/
lemma Undisturbed.tasks_set (hw : Undisturbed s b w) (hle : w.log ≤ log) {i : ℕ} {task : Task β}
    (htask : task.browser = b → task.handler.Meets refreshed Keeps log) :
    ∀ task' ∈ w.tasks.set i task, task'.browser = b → task'.handler.Meets refreshed Keeps log := by
  intro task' hmem hb
  rcases List.mem_or_eq_of_mem_set hmem with hmem | rfl
  · exact (hw.tasks task' hmem hb).mono hle fun _ hr => hr
  · exact htask hb

section Runs

variable [DecidableEq β]

/-- One step of a calm run. -/
lemma Undisturbed.step (hp : s.platform.Lawful) (hw : Undisturbed s b w) {event : Event β}
    (h : Step s w event w') (hcalm : Calm s.platform b w.log event) :
    Undisturbed s b w' ∧
      ((w.cookies b).refreshToken ≠ none → (w'.cookies b).refreshToken ≠ none) := by
  have hok := hw.ok.step h
  cases h with
  | send b' now request =>
    refine hw.same hok rfl fun task hmem hb => ?_
    rcases List.mem_append.mp hmem with hmem | hmem
    · exact hw.tasks task hmem hb
    · obtain rfl := List.mem_singleton.mp hmem
      obtain rfl : b' = b := hb
      exact handle_keeps hw.cookies now (hcalm rfl)
  | @exchange i task q k answer _ log accepted htask hask hexchange =>
    have hmem := List.mem_of_getElem? htask
    obtain ⟨userId, hcookies, hmeets, -⟩ := hw.ok.tasks task hmem
    rw [hask] at hmeets
    obtain ⟨hle, -, -⟩ := hexchange.follows hmeets.1
    refine hw.same hok rfl (hw.tasks_set hle fun hb => ?_)
    subst hb
    have hkeeps := hw.tasks task hmem rfl
    rw [hask] at hkeeps
    exact hkeeps.2 log hle answer (hexchange.refreshed hp hcalm hmeets.1)
  | @deliver i task response htask hdelivered hresponse =>
    have hmem := List.mem_of_getElem? htask
    have htasks : ∀ task' ∈ w.tasks.set i { task with delivered := true }, task'.browser = b →
        task'.handler.Meets refreshed Keeps w.log := hw.tasks_set le_rfl (hw.tasks task hmem)
    by_cases hb : task.browser = b
    · subst hb
      rcases hw.response hmem rfl hresponse with hkeep | ⟨hpaired, hne⟩
      · refine hw.same hok ?_ htasks
        dsimp only
        rw [Function.update_self, hkeep, SetCookie.apply]
      · refine ⟨⟨hok, ?_, htasks⟩, fun _ => ?_⟩
        · dsimp only
          rw [Function.update_self]
          exact hpaired
        · dsimp only
          rw [Function.update_self]
          exact hne
    · exact hw.same hok (Function.update_of_ne (Ne.symm hb) ..) htasks
  | @lose i task htask =>
    exact hw.same hok rfl (hw.tasks_set le_rfl (hw.tasks task (List.mem_of_getElem? htask)))
  | forget b' cookies haccess hrefresh =>
    exact hw.same hok (Function.update_of_ne (Ne.symm hcalm) ..) hw.tasks

/-- A calm run keeps the cookies. -/
lemma CalmRun.undisturbed (hp : s.platform.Lawful) (hw : Undisturbed s b w)
    (h : CalmRun s b w w') : Undisturbed s b w' ∧
      ((w.cookies b).refreshToken ≠ none → (w'.cookies b).refreshToken ≠ none) := by
  induction h with
  | refl => exact ⟨hw, id⟩
  | tail _ hstep ih =>
    obtain ⟨event, hstep, hcalm⟩ := hstep
    obtain ⟨hnext, hkeeps⟩ := ih.1.step hp hstep hcalm
    exact ⟨hnext, hkeeps ∘ ih.2⟩

/-- A session survives concurrent refreshes and lost responses.  From the moment a browser has the
tokens of a user it keeps such tokens in both cookies, whatever requests it sends, in whatever order
they are handled and answered, as long as it does not sign out or lose a cookie and the auth service
answers its refreshes before the token expires; and until then its refresh token can be refreshed. -/
theorem session_survives (hp : s.platform.Lawful) (hw : CalmRun s b Web.initial w)
    (hb : (w.cookies b).refreshToken ≠ none) (h : CalmRun s b w w') :
    ∃ userId accessToken refreshToken,
      w'.cookies b = ⟨some accessToken, some refreshToken⟩ ∧
      IssuedTo s.platform b userId .JWT_ACCESS_SECRET w'.log accessToken ∧
      IssuedTo s.platform b userId .JWT_REFRESH_SECRET w'.log refreshToken ∧
      ∀ d : Auth.Draws, (∀ t ∈ (w'.log.auth s.platform).signed, t.text = refreshToken →
          d.verifiedAt < t.exp) →
        ∃ pair, (Auth.refresh s.platform d refreshToken (w'.log.auth s.platform)).2 = .ok pair := by
  obtain ⟨hstart, -⟩ := CalmRun.undisturbed hp (undisturbed_initial s b) hw
  obtain ⟨hend, hkeeps⟩ := CalmRun.undisturbed hp hstart h
  obtain ⟨userId, hcookies⟩ := hend.ok.cookies b
  rcases hend.cookies with hnone | ⟨a, access, r, refresh, heq⟩
  · exact absurd (congrArg Cookies.refreshToken hnone) (hkeeps hb)
  · rw [heq] at hcookies
    have hrefresh := hcookies.refresh (r :: refresh) rfl
    exact ⟨userId, a :: access, r :: refresh, heq, hcookies.access (a :: access) rfl, hrefresh,
      fun d hlive => refresh_of_issued hp hrefresh.signedFor hlive⟩

end Runs

/-! ### Ann stays signed in -/

lemma calm_annsRegistered : CalmRun annsSite () Web.initial annsRegistered := by
  obtain ⟨w₁, w₂, request, operation, d, hrequest, hoperation, hsend, hexchange, hdeliver⟩ :=
    run_annsRegistered
  have hanswered : Calm annsSite.platform () w₁.log (.answered () operation d) := by
    rcases operation with dto | dto | token
    · trivial
    · trivial
    · exact absurd hoperation id
  exact ((Relation.ReflTransGen.single ⟨_, hsend, fun _ => hrequest⟩).tail
    ⟨_, hexchange, hanswered⟩).tail ⟨_, hdeliver, trivial⟩

/-- Ann's session survives the next request. -/
theorem session_survives_ann : ∃ w : Web Unit, w.tasks.length = 2 ∧
    ∃ userId accessToken refreshToken,
      w.cookies () = ⟨some accessToken, some refreshToken⟩ ∧
      IssuedTo Auth.plain () userId .JWT_REFRESH_SECRET w.log refreshToken := by
  have hsend := Step.send (s := annsSite) (w := annsRegistered) () 1 (.bff annsRead)
  have hcalm : Calm annsSite.platform () annsRegistered.log (.send () (.bff annsRead)) :=
    fun _ _ => by simp
  obtain ⟨userId, accessToken, refreshToken, hcookies, -, hrefresh, -⟩ :=
    session_survives (s := annsSite) (b := ()) Auth.plain_lawful calm_annsRegistered
      (by simp [annsRegistered, annsCookies]) (.single ⟨_, hsend, hcalm⟩)
  exact ⟨_, rfl, userId, accessToken, refreshToken, hcookies, hrefresh⟩

end Sessions

end PeerLedger
