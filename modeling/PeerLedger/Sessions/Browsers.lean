import PeerLedger.Sessions.Gateway
import Mathlib.Logic.Relation
import Mathlib.Logic.Function.Basic

/-!
# Browsers, the frontend and the gateway

Any number of browsers send requests at any time.  A request carries the cookies that the browser
has when it is sent; its handler exchanges messages with the gateway, each of which may be lost on
the way to the auth service or back; and the response sets the cookies of the browser when it
arrives, unless it is lost too.  So the handlers of one browser refresh the same token at the same
time, and their responses arrive in any order.

`SignedIn` says who has signed in at a browser, and `CookiesOf` to whom its cookies were issued.
-/

namespace PeerLedger

namespace Sessions

open Formats Dialogues

variable {β : Type}

/-! ### The state -/

/-- The requests that the auth service has performed, each for a browser; a log only grows. -/
structure Log (β : Type) where
  entries : List (β × Auth.Draws × Auth.Operation)

instance : Preorder (Log β) where
  le log log' := log.entries <+: log'.entries
  le_refl log := List.prefix_refl log.entries
  le_trans _ _ _ := List.IsPrefix.trans

def Log.add (log : Log β) (b : β) (d : Auth.Draws) (operation : Auth.Operation) : Log β :=
  ⟨log.entries ++ [(b, d, operation)]⟩

/-- The state of the auth service. -/
def Log.auth (p : Auth.Platform) (log : Log β) : Auth.World :=
  Auth.run p (log.entries.map Prod.snd)

/-- A request of a browser that the frontend handles or has handled. -/
structure Task (β : Type) where
  browser : β
  /-- The cookies that the request carries. -/
  cookies : Cookies
  request : Request
  handler : Handler Response
  /-- The calls that the gateway has accepted, each for a principal. -/
  accepted : List (BffCall × Principal)
  /-- The response has arrived, or it was lost. -/
  delivered : Bool

/-- The response of a handler that has finished. -/
def Task.response? (task : Task β) : Option Response :=
  match task.handler with
  | .done (.ok response) => some response
  | .done (.error _) => some .internalError
  | .ask _ _ => none

structure Web (β : Type) where
  cookies : β → Cookies
  log : Log β
  tasks : List (Task β)

/-- No browser has cookies. -/
def Web.initial : Web β where
  cookies _ := ⟨none, none⟩
  log := ⟨[]⟩
  tasks := []

/-! ### The steps -/

/-- The frontend, the auth service and the gateway. -/
structure Setting where
  env : Environment
  platform : Auth.Platform
  /-- `JWT_ACCESS_SECRET` of the gateway. -/
  secret : Option (List Char)

inductive Event (β : Type) where
  | send (b : β) (request : Request)
  | answered (b : β) (operation : Auth.Operation) (d : Auth.Draws)
  | unanswered (b : β) (operation : Auth.Operation)
  | called (b : β) (call : BffCall)
  | delivered (b : β)
  | lost (b : β)
  | forgotten (b : β)

/-- What a call for a browser can lead to: its answer, the log, and the calls that the gateway has
accepted. -/
inductive Exchange (s : Setting) (b : β) (log : Log β) :
    Event β → (q : GatewayCall) → q.Answer → Log β → List (BffCall × Principal) → Prop
  | answered (operation : Auth.Operation) (d : Auth.Draws) :
      Exchange s b log (.answered b operation d) (.auth operation)
        (some ((operation.perform s.platform d (log.auth s.platform)).2.mapError Refusal.of))
        (log.add b d operation) []
  /-- The auth service has performed the request, and its answer is lost. -/
  | answerLost (operation : Auth.Operation) (d : Auth.Draws)
      (answer : Option (Except Refusal Auth.TokenPair)) : (∀ pair, answer ≠ some (.ok pair)) →
      Exchange s b log (.unanswered b operation) (.auth operation) answer
        (log.add b d operation) []
  /-- The request does not reach the auth service. -/
  | requestLost (operation : Auth.Operation) (answer : Option (Except Refusal Auth.TokenPair)) :
      (∀ pair, answer ≠ some (.ok pair)) →
      Exchange s b log (.unanswered b operation) (.auth operation) answer log []
  /-- The gateway accepts the call; whatever the service behind it says comes back or is lost. -/
  | accepted (call : BffCall) (now : ℕ) (principal : Principal) (answer : Option Upstream) :
      canActivate s.secret (log.auth s.platform) now (some call.authorization) = .ok principal →
      Exchange s b log (.called b call) (.bff call) answer log [(call, principal)]
  | rejected (call : BffCall) (now : ℕ) (e : Auth.HttpError) :
      canActivate s.secret (log.auth s.platform) now (some call.authorization) = .error e →
      Exchange s b log (.called b call) (.bff call) (some (Upstream.of e)) log []
  | callLost (call : BffCall) : Exchange s b log (.called b call) (.bff call) none log []

inductive Step [DecidableEq β] (s : Setting) : Web β → Event β → Web β → Prop
  /-- A request arrives at the frontend at a millisecond. -/
  | send {w} (b : β) (now : ℕ) (request : Request) :
      Step s w (.send b request)
        { w with tasks := w.tasks ++ [{ browser := b, cookies := w.cookies b, request,
                                        handler := handle s.env now (w.cookies b) request,
                                        accepted := [], delivered := false }] }
  | exchange {w} {i : ℕ} {task q k answer event log accepted} :
      w.tasks[i]? = some task → task.handler = .ask q k →
      Exchange s task.browser w.log event q answer log accepted →
      Step s w event
        { w with
          log
          tasks := w.tasks.set i
            { task with handler := k answer, accepted := task.accepted ++ accepted } }
  | deliver {w} {i : ℕ} {task response} :
      w.tasks[i]? = some task → task.delivered = false → task.response? = some response →
      Step s w (.delivered task.browser)
        { w with
          cookies := Function.update w.cookies task.browser
            (response.cookies.apply (w.cookies task.browser))
          tasks := w.tasks.set i { task with delivered := true } }
  | lose {w} {i : ℕ} {task} : w.tasks[i]? = some task →
      Step s w (.lost task.browser) { w with tasks := w.tasks.set i { task with delivered := true } }
  /-- A browser loses one of its cookies or both. -/
  | forget {w} (b : β) (cookies : Cookies) :
      (cookies.accessToken = none ∨ cookies.accessToken = (w.cookies b).accessToken) →
      (cookies.refreshToken = none ∨ cookies.refreshToken = (w.cookies b).refreshToken) →
      Step s w (.forgotten b) { w with cookies := Function.update w.cookies b cookies }

/-- The states that can be reached. -/
def Reached [DecidableEq β] (s : Setting) : Web β → Prop :=
  Relation.ReflTransGen (fun w w' => ∃ event, Step s w event w') Web.initial

/-! ### Who has signed in -/

/-- The request presents an email and a password. -/
def IsCredentials : Auth.Operation → Prop
  | .register _ | .login _ => True
  | .refresh _ => False

/-- The user has signed in at the browser with an email and a password. -/
def SignedIn (p : Auth.Platform) (log : Log β) (b : β) (userId : String) : Prop :=
  ∃ before d operation after, log.entries = before ++ (b, d, operation) :: after ∧
    IsCredentials operation ∧
    operation.SignsIn p d (Log.auth p (⟨before⟩ : Log β)) userId ∧
    ∃ pair, (operation.perform p d (Log.auth p (⟨before⟩ : Log β))).2 = .ok pair

/-- The token was issued to the user, who has signed in at the browser. -/
structure IssuedTo (p : Auth.Platform) (b : β) (userId : String) (name : Auth.SecretName)
    (log : Log β) (token : List Char) : Prop where
  signedIn : SignedIn p log b userId
  signedFor : SignedFor p name (log.auth p).signed userId token

/-- The cookies were issued to the user. -/
structure CookiesOf (p : Auth.Platform) (b : β) (userId : String) (log : Log β)
    (cookies : Cookies) : Prop where
  access : ∀ token, cookies.accessToken = some token →
    IssuedTo p b userId .JWT_ACCESS_SECRET log token
  refresh : ∀ token, cookies.refreshToken = some token →
    IssuedTo p b userId .JWT_REFRESH_SECRET log token

/-- What the request lets the frontend call. -/
def Request.Allows (env : Environment) (call : BffCall) : Request → Prop
  | .bff request => call.method = request.method ∧
      (request.method = .get ∨ request.method = .head ∨
        isTrustedMutationOrigin env request.origin = true)
  | .page _ => call.method = .get
  | .createSplitBill _ => call.method = .post
  | .login _ _ | .register _ _ | .logout _ => False

variable {s : Setting} {p : Auth.Platform} {b : β} {userId : String} {log log' : Log β}

lemma auth_add (d : Auth.Draws) (operation : Auth.Operation) :
    (log.add b d operation).auth p = (operation.perform p d (log.auth p)).1 := by
  unfold Log.auth Log.add
  rw [List.map_append]
  exact Auth.run_append_singleton p _ (d, operation)

lemma le_add (d : Auth.Draws) (operation : Auth.Operation) : log ≤ log.add b d operation :=
  List.prefix_append log.entries [(b, d, operation)]

/-- What was signed stays signed. -/
lemma signed_mono (h : log ≤ log') : (log.auth p).signed ⊆ (log'.auth p).signed := by
  obtain ⟨after, hafter⟩ := h
  obtain ⟨entries⟩ := log'
  obtain rfl : log.entries ++ after = entries := hafter
  induction after using List.reverseRecOn with
  | nil =>
    rw [List.append_nil]
    exact List.Subset.refl _
  | append_singleton after last ih =>
    obtain ⟨b', d, operation⟩ := last
    have hlast : (⟨log.entries ++ (after ++ [(b', d, operation)])⟩ : Log β) =
        Log.add ⟨log.entries ++ after⟩ b' d operation := by
      rw [Log.add, List.append_assoc]
    rw [hlast, auth_add]
    exact List.Subset.trans ih (Auth.signed_perform operation)

lemma SignedIn.mono (h : SignedIn p log b userId) (hle : log ≤ log') :
    SignedIn p log' b userId := by
  obtain ⟨before, d, operation, after, hlog, hrest⟩ := h
  obtain ⟨more, hmore⟩ := hle
  refine ⟨before, d, operation, after ++ more, ?_, hrest⟩
  rw [← hmore, hlog, List.append_assoc, List.cons_append]

lemma IssuedTo.mono {name : Auth.SecretName} {token : List Char}
    (h : IssuedTo p b userId name log token) (hle : log ≤ log') :
    IssuedTo p b userId name log' token :=
  ⟨h.signedIn.mono hle, h.signedFor.mono (signed_mono hle)⟩

lemma CookiesOf.mono {cookies : Cookies} (h : CookiesOf p b userId log cookies)
    (hle : log ≤ log') : CookiesOf p b userId log' cookies :=
  ⟨fun token ht => (h.access token ht).mono hle, fun token ht => (h.refresh token ht).mono hle⟩

/-- The user of a token is determined. -/
lemma userId_eq {name name' : Auth.SecretName} {userId' : String} {token : List Char}
    (h : SignedFor p name (log.auth p).signed userId token)
    (h' : SignedFor p name' (log.auth p).signed userId' token) : userId = userId' := by
  obtain ⟨principal, hprincipal, rfl⟩ := principal_signedFor (run_signs p _) h
  obtain ⟨principal', hprincipal', rfl⟩ := principal_signedFor (run_signs p _) h'
  rw [hprincipal] at hprincipal'
  exact congrArg Principal.userId (Option.some.inj hprincipal')

end Sessions

end PeerLedger
