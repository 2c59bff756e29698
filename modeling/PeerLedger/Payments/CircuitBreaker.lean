import PeerLedger.Payments.BillSplits
import PeerLedger.Payments.Gateway

/-!
# The circuit breaker of the ledger client

All requests of a `LedgerHttpClient` share its circuit breaker and are interleaved where they await:
at the end of a fetch and at the end of a back-off.  The breaker is checked before the first attempt
of a request and after each failure of its own, but not after the back-off, so that an attempt may
start while the circuit is open.  This happens exactly when another request has opened the circuit
during the back-off (`circuit_breaker`).
-/

namespace PeerLedger

namespace Payments

open Transactions

namespace LedgerHttpClient

/-- The settings of the client. -/
structure Settings where
  config : Config
  /-- `LEDGER_HTTP_BACKOFF_MS`. -/
  backoffMs : ℕ := 100
  /-- `LEDGER_CIRCUIT_FAILURE_THRESHOLD`. -/
  failureThreshold : ℕ := 5
  /-- `LEDGER_CIRCUIT_COOLDOWN_MS`. -/
  cooldownMs : ℕ := 5000

/-- The state of the breaker. -/
structure Breaker where
  consecutiveFailures : ℕ
  openUntil : ℕ
  deriving DecidableEq

/-- The breaker of a new client, and after a success. -/
def Breaker.closed : Breaker := ⟨0, 0⟩

def recordFailure (settings : Settings) (breaker : Breaker) (now : ℕ) : Breaker :=
  let failures := breaker.consecutiveFailures + 1
  { consecutiveFailures := failures
    openUntil :=
      if settings.failureThreshold ≤ failures then now + settings.cooldownMs
      else breaker.openUntil }

def backoff (settings : Settings) (attempt : ℕ) : ℕ :=
  min (settings.backoffMs * 2 ^ (attempt - 1)) 1000

/-- Where a request is. -/
inductive Phase where
  | idle
  /-- A fetch is under way. -/
  | fetching (command : Ledger.Command) (attempt : ℕ)
  /-- The delay after a failed attempt, and when it ends. -/
  | waiting (command : Ledger.Command) (attempt : ℕ) (lastError : LedgerCommandError) (wakesAt : ℕ)
  | done (result : Except PaymentsError Body)

/-- A fetch that was started, with `openUntil` at its start. -/
structure Fetch where
  request : ℕ
  startedAt : ℕ
  openUntil : ℕ
  deriving DecidableEq

/-- The requests of a client, its breaker, the time and the fetches up to now. -/
structure State where
  breaker : Breaker
  phase : ℕ → Phase
  clock : ℕ
  fetches : List Fetch

/-- A new client. -/
def State.initial : State :=
  { breaker := .closed, phase := fun _ => .idle, clock := 0, fetches := [] }

/-- What happens at a point where a request awaits nothing: it is made, a fetch of it ends, or a
back-off of it ends.  The times are those that the clock shows on the way. -/
inductive Event where
  | request (i : ℕ) (command : Ledger.Command) (checkedAt startedAt : ℕ)
  | settled (i : ℕ) (outcome : FetchOutcome) (failedAt checkedAt : ℕ)
  | delayed (i : ℕ) (startedAt : ℕ)

/-- The request goes to another phase. -/
def State.goto (s : State) (i : ℕ) (phase : Phase) (now : ℕ) : State :=
  { s with phase := Function.update s.phase i phase, clock := now }

/-- A fetch of the request is started. -/
def State.startFetch (s : State) (i : ℕ) (command : Ledger.Command) (attempt now : ℕ) : State :=
  { s.goto i (.fetching command attempt) now with
    fetches := s.fetches ++ [⟨i, now, s.breaker.openUntil⟩] }

/-- The head of the loop: the attempt starts its fetch, if it is still to be made. -/
def State.startAttempt (settings : Settings) (s : State) (i : ℕ) (command : Ledger.Command)
    (attempt : ℕ) (lastError : LedgerCommandError) (now : ℕ) : State :=
  if attempt ≤ settings.config.ledgerHttpMaxAttempts then
    if settings.config.serviceToken then s.startFetch i command attempt now
    else s.goto i (.done (.error (.ledgerCommand
      { message := "Payments service credential is not configured", kind := .terminal,
        code := "LEDGER_CLIENT_NOT_CONFIGURED", ambiguous := false }))) now
  else s.goto i (.done (.error (.ledgerCommand lastError))) now

/-- The rest of the loop after a fetch. -/
def State.endAttempt (settings : Settings) (s : State) (i : ℕ) (command : Ledger.Command)
    (attempt : ℕ) (outcome : FetchOutcome) (failedAt checkedAt : ℕ) : State :=
  match outcome.result with
  | .ok body => { s.goto i (.done (.ok body)) checkedAt with breaker := .closed }
  | .error e =>
    if (classify e).kind = .terminal then
      s.goto i (.done (.error (.ledgerCommand (classify e)))) checkedAt
    else
      let breaker := recordFailure settings s.breaker failedAt
      if attempt < settings.config.ledgerHttpMaxAttempts ∧ breaker.openUntil ≤ checkedAt then
        { s.goto i (.waiting command attempt (classify e) (checkedAt + backoff settings attempt))
            checkedAt with breaker }
      else { s.goto i (.done (.error (.ledgerCommand (classify e)))) checkedAt with breaker }

/-- `LedgerHttpClient.request` from one `await` to the next; `none` when the event cannot happen. -/
def step (settings : Settings) (s : State) : Event → Option State
  | .request i command checkedAt startedAt =>
    match s.phase i with
    | .idle =>
      if s.clock ≤ checkedAt ∧ checkedAt ≤ startedAt then
        if checkedAt < s.breaker.openUntil then
          some (s.goto i (.done (.error (.ledgerCommand
            { message := "Ledger circuit breaker is open", kind := .retryable,
              code := "LEDGER_CIRCUIT_OPEN", ambiguous := true }))) startedAt)
        else some (s.startAttempt settings i command 1
          { message := "Ledger request failed", kind := .retryable, code := "LEDGER_UNAVAILABLE",
            ambiguous := true } startedAt)
      else none
    | _ => none
  | .settled i outcome failedAt checkedAt =>
    match s.phase i with
    | .fetching command attempt =>
      if s.clock ≤ failedAt ∧ failedAt ≤ checkedAt then
        some (s.endAttempt settings i command attempt outcome failedAt checkedAt)
      else none
    | _ => none
  | .delayed i startedAt =>
    match s.phase i with
    | .waiting command attempt lastError wakesAt =>
      if s.clock ≤ startedAt ∧ wakesAt ≤ startedAt then
        some (s.startAttempt settings i command (attempt + 1) lastError startedAt)
      else none
    | _ => none

/-- Events one after another. -/
def run (settings : Settings) (s : State) (events : List Event) : Option State :=
  events.foldlM (step settings) s

/-! ### The loop is that of the client's program -/

/-- The rest of the program of a request. -/
def Phase.program (config : Config) (command : Ledger.Command) : Phase → PaymentsProg Body
  | .idle => request config command
  | .fetching command attempt =>
    requestAttempts config command (config.ledgerHttpMaxAttempts - attempt + 1)
      { message := "", kind := .retryable, code := "", ambiguous := true }
  | .waiting command attempt lastError _ =>
    requestAttempts config command (config.ledgerHttpMaxAttempts - attempt) lastError
  | .done result => .done result

/-- The program asks, one after another, and goes on with the answers. -/
inductive Asks : PaymentsProg Body → List (Ask × Answer) → PaymentsProg Body → Prop
  | refl (p : PaymentsProg Body) : Asks p [] p
  | call (q : Ask) (a : Answer) (k : Answer → PaymentsProg Body) (log : List (Ask × Answer))
      (p : PaymentsProg Body) : Asks (k a) log p → Asks (.call q k) ((q, a) :: log) p

/-- The request that an event is about. -/
def Event.subject : Event → ℕ
  | .request i _ _ _ => i
  | .settled i _ _ _ => i
  | .delayed i _ => i

/-- The command of a request whose next event is this one. -/
def Event.command (s : State) : Event → Option Ledger.Command
  | .request _ command _ _ => some command
  | .settled i _ _ _ | .delayed i _ =>
    match s.phase i with
    | .fetching command _ | .waiting command _ _ _ => some command
    | _ => none

/-- What the program asks on the way, and the answers of the breaker and the network. -/
def Event.asks (settings : Settings) (s : State) : Event → List (Ask × Answer)
  | .request _ _ checkedAt _ => [(.circuitOpen, .flag (checkedAt < s.breaker.openUntil))]
  | .settled i outcome failedAt checkedAt =>
    match s.phase i with
    | .fetching command _ =>
      (.fetch command, .fetched outcome) ::
        match outcome.result with
        | .ok _ => [(.recordSuccess, .flag true)]
        | .error e =>
          if (classify e).kind = .terminal then []
          else [(.recordFailure,
            .flag ((recordFailure settings s.breaker failedAt).openUntil ≤ checkedAt))]
    | _ => []
  | .delayed _ _ => []

variable {settings : Settings} {s s' : State} {events : List Event} {e : Event} {i attempt : ℕ}
  {command : Ledger.Command} {outcome : FetchOutcome} {failedAt checkedAt : ℕ}

@[simp] lemma goto_phase (s : State) (i : ℕ) (phase : Phase) (now : ℕ) :
    (s.goto i phase now).phase i = phase := by simp [State.goto]

@[simp] lemma startFetch_phase (s : State) (i : ℕ) (command : Ledger.Command) (attempt now : ℕ) :
    (s.startFetch i command attempt now).phase i = .fetching command attempt := by
  simp [State.startFetch]

lemma goto_phase_ne {i j : ℕ} (h : j ≠ i) (s : State) (phase : Phase) (now : ℕ) :
    (s.goto i phase now).phase j = s.phase j := by simp [State.goto, h]

lemma startFetch_phase_ne {i j : ℕ} (h : j ≠ i) (s : State) (command : Ledger.Command)
    (attempt now : ℕ) : (s.startFetch i command attempt now).phase j = s.phase j :=
  goto_phase_ne h s _ now

/-- The head of the loop is the program with the attempts that are left. -/
lemma startAttempt_program (settings : Settings) (s : State) (i : ℕ) (command : Ledger.Command)
    (attempt : ℕ) (lastError : LedgerCommandError) (now : ℕ) :
    ((s.startAttempt settings i command (attempt + 1) lastError now).phase i).program
        settings.config command =
      requestAttempts settings.config command
        (settings.config.ledgerHttpMaxAttempts - attempt) lastError := by
  unfold State.startAttempt
  split
  · next hattempt =>
    have hleft : settings.config.ledgerHttpMaxAttempts - attempt =
        settings.config.ledgerHttpMaxAttempts - (attempt + 1) + 1 := by omega
    rw [hleft]
    split
    · next htoken =>
      rw [startFetch_phase]
      rfl
    · next htoken =>
      rw [goto_phase, Phase.program, requestAttempts, fetchOnce, if_neg htoken]
      rfl
  · next hattempt =>
    have hleft : settings.config.ledgerHttpMaxAttempts - attempt = 0 := by omega
    rw [hleft, goto_phase]
    rfl

/-- The attempt under way is one of those that are allowed. -/
def Phase.Allowed (settings : Settings) : Phase → Prop
  | .fetching _ attempt => attempt ≤ settings.config.ledgerHttpMaxAttempts ∧
      settings.config.serviceToken = true
  | .waiting _ attempt _ _ => attempt < settings.config.ledgerHttpMaxAttempts ∧
      settings.config.serviceToken = true
  | _ => True

/-- The rest of the loop answers what the program asks after a fetch. -/
lemma endAttempt_program (settings : Settings) (s : State)
    (hallowed : (Phase.fetching command attempt).Allowed settings) (outcome : FetchOutcome)
    (failedAt checkedAt : ℕ) (hphase : s.phase i = .fetching command attempt) :
    Asks ((Phase.fetching command attempt).program settings.config command)
      (Event.asks settings s (.settled i outcome failedAt checkedAt))
      (((s.endAttempt settings i command attempt outcome failedAt checkedAt).phase i).program
        settings.config command) := by
  obtain ⟨hattempt, htoken⟩ := hallowed
  rw [Phase.program, requestAttempts, fetchOnce, if_pos htoken]
  simp only [Event.asks, hphase]
  refine .call _ _ _ _ _ ?_
  unfold State.endAttempt
  simp only [Answer.outcome, Prog.attempt]
  cases outcome.result with
  | ok body =>
    simp only [goto_phase]
    exact .call _ _ _ _ _ (.refl _)
  | error e =>
    dsimp only
    by_cases hterminal : (classify e).kind = .terminal
    · rw [if_pos hterminal, if_pos hterminal, if_pos hterminal, goto_phase]
      exact .refl _
    · rw [if_neg hterminal, if_neg hterminal, if_neg hterminal]
      refine .call _ _ _ _ _ ?_
      by_cases hretry : attempt < settings.config.ledgerHttpMaxAttempts ∧
          (recordFailure settings s.breaker failedAt).openUntil ≤ checkedAt
      · have hleft : settings.config.ledgerHttpMaxAttempts - attempt ≠ 0 := by omega
        rw [if_pos hretry, if_pos ⟨hleft, by simp [Answer.isTrue, hretry.2]⟩, goto_phase]
        exact .refl _
      · rw [if_neg hretry, if_neg, goto_phase]
        · exact .refl _
        · rintro ⟨hleft, hclosed⟩
          exact hretry ⟨by omega, by simpa [Answer.isTrue] using hclosed⟩

/-- From one `await` to the next a request does what its program does. -/
theorem step_asks (h : step settings s e = some s') (hallowed : ∀ i, (s.phase i).Allowed settings)
    (hcommand : e.command s = some command) :
    Asks ((s.phase e.subject).program settings.config command) (e.asks settings s)
      ((s'.phase e.subject).program settings.config command) := by
  cases e with
  | request i command' checkedAt startedAt =>
    obtain rfl := Option.some.inj hcommand
    simp only [step] at h
    split at h
    · next hphase =>
      change Asks ((s.phase i).program _ _) _ _
      rw [hphase]
      change Asks (request _ _) _ ((s'.phase i).program _ _)
      rw [request]
      split_ifs at h with htimes hopen
      · obtain rfl := Option.some.inj h
        refine .call _ _ _ _ _ ?_
        rw [if_pos (by simpa [Answer.isTrue] using hopen), goto_phase]
        exact .refl _
      · obtain rfl := Option.some.inj h
        refine .call _ _ _ _ _ ?_
        rw [if_neg (by simpa [Answer.isTrue] using hopen)]
        rw [startAttempt_program settings s i command' 0]
        exact .refl _
    · cases h
  | settled i outcome failedAt checkedAt =>
    simp only [step] at h
    split at h
    · next command' attempt hphase =>
      have hsame : command' = command := by simpa [Event.command, hphase] using hcommand
      subst hsame
      split_ifs at h with htimes
      obtain rfl := Option.some.inj h
      have hallowed' := hallowed i
      rw [hphase] at hallowed'
      change Asks ((s.phase i).program _ _) _ _
      rw [hphase]
      exact endAttempt_program settings s hallowed' outcome failedAt checkedAt hphase
    · cases h
  | delayed i startedAt =>
    simp only [step] at h
    split at h
    · next command' attempt lastError wakesAt hphase =>
      have hsame : command' = command := by simpa [Event.command, hphase] using hcommand
      subst hsame
      split_ifs at h with htimes
      obtain rfl := Option.some.inj h
      change Asks ((s.phase i).program _ _) [] _
      rw [hphase, Phase.program]
      change Asks _ [] (((s.startAttempt _ i _ _ _ _).phase i).program _ _)
      rw [startAttempt_program]
      exact .refl _
    · cases h

/-! ### What an event does -/

/-- The fetch failed in a way that may be tried again. -/
def isRetryableFailure (outcome : FetchOutcome) : Bool :=
  match outcome.result with
  | .ok _ => false
  | .error e => (classify e).kind ≠ .terminal

/-- The fetch brought a response. -/
def isSuccess (outcome : FetchOutcome) : Bool := outcome.result.isOk

/-- The effects of the events, each with what has been checked. -/
inductive Steps (settings : Settings) (s : State) : Event → State → Prop
  | refused {i : ℕ} {command : Ledger.Command} {checkedAt startedAt : ℕ}
      {result : Except PaymentsError Body} : s.phase i = .idle → s.clock ≤ startedAt →
      Steps settings s (.request i command checkedAt startedAt) (s.goto i (.done result) startedAt)
  | first {i : ℕ} {command : Ledger.Command} {checkedAt startedAt : ℕ} : s.phase i = .idle →
      s.clock ≤ startedAt → s.breaker.openUntil ≤ startedAt →
      (Phase.fetching command 1).Allowed settings →
      Steps settings s (.request i command checkedAt startedAt) (s.startFetch i command 1 startedAt)
  | success {i : ℕ} {command : Ledger.Command} {attempt : ℕ} {outcome : FetchOutcome}
      {failedAt checkedAt : ℕ} {result : Except PaymentsError Body} :
      s.phase i = .fetching command attempt → s.clock ≤ checkedAt → isSuccess outcome = true →
      Steps settings s (.settled i outcome failedAt checkedAt)
        { s.goto i (.done result) checkedAt with breaker := .closed }
  | terminal {i : ℕ} {command : Ledger.Command} {attempt : ℕ} {outcome : FetchOutcome}
      {failedAt checkedAt : ℕ} {result : Except PaymentsError Body} :
      s.phase i = .fetching command attempt → s.clock ≤ checkedAt →
      isRetryableFailure outcome = false → isSuccess outcome = false →
      Steps settings s (.settled i outcome failedAt checkedAt) (s.goto i (.done result) checkedAt)
  | failure {i : ℕ} {command : Ledger.Command} {attempt : ℕ} {outcome : FetchOutcome}
      {failedAt checkedAt : ℕ} {phase : Phase} :
      s.phase i = .fetching command attempt → s.clock ≤ failedAt → failedAt ≤ checkedAt →
      isRetryableFailure outcome = true → isSuccess outcome = false →
      ((∃ result, phase = .done result) ∨ ∃ lastError wakesAt,
        phase = .waiting command attempt lastError wakesAt ∧
        attempt < settings.config.ledgerHttpMaxAttempts ∧
        (recordFailure settings s.breaker failedAt).openUntil ≤ checkedAt) →
      Steps settings s (.settled i outcome failedAt checkedAt)
        { s.goto i phase checkedAt with breaker := recordFailure settings s.breaker failedAt }
  | givesUp {i : ℕ} {command : Ledger.Command} {attempt : ℕ} {lastError : LedgerCommandError}
      {wakesAt startedAt : ℕ} {result : Except PaymentsError Body} :
      s.phase i = .waiting command attempt lastError wakesAt → s.clock ≤ startedAt →
      ¬ (Phase.fetching command (attempt + 1)).Allowed settings →
      Steps settings s (.delayed i startedAt) (s.goto i (.done result) startedAt)
  | again {i : ℕ} {command : Ledger.Command} {attempt : ℕ} {lastError : LedgerCommandError}
      {wakesAt startedAt : ℕ} : s.phase i = .waiting command attempt lastError wakesAt →
      s.clock ≤ startedAt → (Phase.fetching command (attempt + 1)).Allowed settings →
      Steps settings s (.delayed i startedAt) (s.startFetch i command (attempt + 1) startedAt)

/-- An attempt that is allowed starts its fetch, and another one ends the request. -/
lemma startAttempt_cases (settings : Settings) (s : State) (i : ℕ) (command : Ledger.Command)
    (attempt : ℕ) (lastError : LedgerCommandError) (now : ℕ) :
    ((Phase.fetching command attempt).Allowed settings ∧
      s.startAttempt settings i command attempt lastError now = s.startFetch i command attempt now) ∨
    (¬ (Phase.fetching command attempt).Allowed settings ∧
      ∃ result, s.startAttempt settings i command attempt lastError now =
        s.goto i (.done result) now) := by
  unfold State.startAttempt Phase.Allowed
  split_ifs with hattempt htoken
  · exact Or.inl ⟨⟨hattempt, htoken⟩, rfl⟩
  · exact Or.inr ⟨fun h => htoken h.2, _, rfl⟩
  · exact Or.inr ⟨fun h => hattempt h.1, _, rfl⟩

/-- Every step is one of these. -/
lemma steps_of_step (h : step settings s e = some s') : Steps settings s e s' := by
  cases e with
  | request i command checkedAt startedAt =>
    simp only [step] at h
    split at h
    · next hphase =>
      split_ifs at h with htimes hopen
      · obtain rfl := Option.some.inj h
        exact .refused hphase (by omega)
      · obtain rfl := Option.some.inj h
        obtain ⟨hallowed, hstart⟩ | ⟨-, result, hstart⟩ := startAttempt_cases settings s i command 1
          { message := "Ledger request failed", kind := .retryable, code := "LEDGER_UNAVAILABLE",
            ambiguous := true } startedAt
        · rw [hstart]
          exact .first hphase (by omega) (by omega) hallowed
        · rw [hstart]
          exact .refused hphase (by omega)
    · cases h
  | settled i outcome failedAt checkedAt =>
    simp only [step] at h
    split at h
    · next command attempt hphase =>
      split_ifs at h with htimes
      obtain rfl := Option.some.inj h
      unfold State.endAttempt
      cases hresult : outcome.result with
      | ok body => exact .success hphase (by omega) (by simp [isSuccess, hresult, Except.isOk, Except.toBool])
      | error e =>
        have hsuccess : isSuccess outcome = false := by
          simp [isSuccess, hresult, Except.isOk, Except.toBool]
        dsimp only
        by_cases hterminal : (classify e).kind = .terminal
        · rw [if_pos hterminal]
          exact .terminal hphase (by omega) (by simp [isRetryableFailure, hresult, hterminal]) hsuccess
        · have hretryable : isRetryableFailure outcome = true := by
            simp [isRetryableFailure, hresult, hterminal]
          rw [if_neg hterminal]
          split_ifs with hretry
          · exact .failure hphase htimes.1 htimes.2 hretryable hsuccess
              (Or.inr ⟨_, _, rfl, hretry.1, hretry.2⟩)
          · exact .failure hphase htimes.1 htimes.2 hretryable hsuccess (Or.inl ⟨_, rfl⟩)
    · cases h
  | delayed i startedAt =>
    simp only [step] at h
    split at h
    · next command attempt lastError wakesAt hphase =>
      split_ifs at h with htimes
      obtain rfl := Option.some.inj h
      obtain ⟨hallowed, hstart⟩ | ⟨hallowed, result, hstart⟩ :=
        startAttempt_cases settings s i command (attempt + 1) lastError startedAt
      · rw [hstart]
        exact .again hphase htimes.1 hallowed
      · rw [hstart]
        exact .givesUp hphase htimes.1 hallowed
    · cases h

/-- The time goes on. -/
lemma Steps.clock_le (h : Steps settings s e s') : s.clock ≤ s'.clock := by
  cases h
  case failure hfailed hchecked _ _ _ => exact Nat.le_trans hfailed hchecked
  all_goals assumption

/-- The other requests are left alone. -/
lemma Steps.phase_ne {j : ℕ} (h : Steps settings s e s') (hj : j ≠ e.subject) :
    s'.phase j = s.phase j := by
  cases h
  case first => exact startFetch_phase_ne hj s _ _ _
  case again => exact startFetch_phase_ne hj s _ _ _
  case success checkedAt _ _ _ _ => exact goto_phase_ne hj s _ checkedAt
  case failure checkedAt _ _ _ _ _ _ _ => exact goto_phase_ne hj s _ checkedAt
  all_goals exact goto_phase_ne hj s _ _

/-! ### The attempts of a request -/

/-- The fetches of a request. -/
def State.fetchesOf (s : State) (i : ℕ) : List Fetch := s.fetches.filter fun fetch => fetch.request = i

/-- A request has started as many fetches as its attempt says. -/
def Phase.Counts (settings : Settings) (count : ℕ) : Phase → Prop
  | .idle => count = 0
  | .fetching _ attempt => count = attempt
  | .waiting _ attempt _ _ => count = attempt
  | .done _ => count ≤ settings.config.ledgerHttpMaxAttempts

/-- What holds between the events. -/
structure State.Ok (settings : Settings) (s : State) : Prop where
  allowed : ∀ i, (s.phase i).Allowed settings
  counts : ∀ i, (s.phase i).Counts settings (s.fetchesOf i).length

lemma initial_ok (settings : Settings) : State.initial.Ok settings :=
  ⟨fun _ => trivial, fun _ => rfl⟩

/-- The number of fetches never exceeds the number of attempts. -/
lemma State.Ok.count_le (h : s.Ok settings) (i : ℕ) :
    (s.fetchesOf i).length ≤ settings.config.ledgerHttpMaxAttempts := by
  have hcount := h.counts i
  have hallowed := h.allowed i
  cases hphase : s.phase i with
  | idle =>
    rw [hphase] at hcount
    exact Nat.le_trans (Nat.le_of_eq hcount) (Nat.zero_le _)
  | fetching command attempt =>
    rw [hphase] at hcount hallowed
    exact Nat.le_trans (Nat.le_of_eq hcount) hallowed.1
  | waiting command attempt lastError wakesAt =>
    rw [hphase] at hcount hallowed
    exact Nat.le_trans (Nat.le_of_eq hcount) (Nat.le_of_lt hallowed.1)
  | done result =>
    rw [hphase] at hcount
    exact hcount

/-- The fetches of the others stay. -/
lemma startFetch_fetchesOf_ne {j : ℕ} (h : j ≠ i) (s : State) (command : Ledger.Command)
    (attempt now : ℕ) : (s.startFetch i command attempt now).fetchesOf j = s.fetchesOf j := by
  simp [State.fetchesOf, State.startFetch, h.symm]

lemma startFetch_fetchesOf (s : State) (i : ℕ) (command : Ledger.Command) (attempt now : ℕ) :
    ((s.startFetch i command attempt now).fetchesOf i).length = (s.fetchesOf i).length + 1 := by
  simp [State.fetchesOf, State.startFetch]

lemma Steps.fetchesOf_ne {j : ℕ} (h : Steps settings s e s') (hj : j ≠ e.subject) :
    s'.fetchesOf j = s.fetchesOf j := by
  cases h
  case first => exact startFetch_fetchesOf_ne hj _ _ _ _
  case again => exact startFetch_fetchesOf_ne hj _ _ _ _
  all_goals rfl

/-- The subject of a step fits its attempt again. -/
lemma Steps.subject_ok (h : Steps settings s e s') (hs : s.Ok settings) :
    (s'.phase e.subject).Allowed settings ∧
      (s'.phase e.subject).Counts settings (s'.fetchesOf e.subject).length := by
  have hcount := hs.counts e.subject
  have hallowed := hs.allowed e.subject
  have hle := hs.count_le e.subject
  cases h with
  | refused | success | terminal | givesUp =>
    simp only [Event.subject, goto_phase]
    exact ⟨trivial, hle⟩
  | first hphase _ _ hfirst =>
    simp only [Event.subject, startFetch_phase] at hcount ⊢
    rw [hphase] at hcount
    refine ⟨hfirst, ?_⟩
    rw [startFetch_fetchesOf]
    exact congrArg (· + 1) hcount
  | failure hphase _ _ _ _ hnext =>
    simp only [Event.subject, goto_phase] at hcount hallowed ⊢
    rw [hphase] at hcount hallowed
    obtain ⟨result, rfl⟩ | ⟨lastError, wakesAt, rfl, hless, -⟩ := hnext
    · exact ⟨trivial, hle⟩
    · exact ⟨⟨hless, hallowed.2⟩, hcount⟩
  | again hphase _ hnext =>
    simp only [Event.subject, startFetch_phase] at hcount ⊢
    rw [hphase] at hcount
    refine ⟨hnext, ?_⟩
    rw [startFetch_fetchesOf]
    exact congrArg (· + 1) hcount

lemma Steps.ok (h : Steps settings s e s') (hs : s.Ok settings) : s'.Ok settings := by
  obtain ⟨hallowed, hcounts⟩ := h.subject_ok hs
  constructor
  · intro j
    by_cases hj : j = e.subject
    · rw [hj]
      exact hallowed
    · rw [h.phase_ne hj]
      exact hs.allowed j
  · intro j
    by_cases hj : j = e.subject
    · rw [hj]
      exact hcounts
    · rw [h.phase_ne hj, h.fetchesOf_ne hj]
      exact hs.counts j

/-- What every step preserves holds after every run. -/
lemma run_induction {P : State → Prop} (hstep : ∀ s e s', Steps settings s e s' → P s → P s')
    (hs : P s) (h : run settings s events = some s') : P s' := by
  induction events generalizing s with
  | nil =>
    obtain rfl := Option.some.inj h
    exact hs
  | cons e events ih =>
    obtain ⟨s₁, hfirst, hrest⟩ := Option.bind_eq_some_iff.mp h
    exact ih (hstep s e s₁ (steps_of_step hfirst) hs) hrest

lemma run_append {later : List Event} : run settings s (events ++ later) = some s' ↔
    ∃ s₁, run settings s events = some s₁ ∧ run settings s₁ later = some s' := by
  unfold run
  rw [List.foldlM_append]
  exact Option.bind_eq_some_iff

lemma run_ok (h : run settings .initial events = some s) : s.Ok settings :=
  run_induction (fun _ _ _ hstep hs => hstep.ok hs) (initial_ok settings) h

/-- A request that is done starts no further fetch. -/
lemma Steps.done {result : Except PaymentsError Body} (h : Steps settings s e s')
    (hdone : s.phase i = .done result) :
    s'.phase i = .done result ∧ s'.fetchesOf i = s.fetchesOf i := by
  have hne : i ≠ e.subject := by
    rintro rfl
    cases h <;> simp_all [Event.subject]
  rw [h.phase_ne hne, h.fetchesOf_ne hne]
  exact ⟨hdone, rfl⟩

lemma run_done {result : Except PaymentsError Body} (hdone : s.phase i = .done result)
    (h : run settings s events = some s') : s'.fetchesOf i = s.fetchesOf i := by
  have hrun : s'.phase i = .done result ∧ s'.fetchesOf i = s.fetchesOf i := by
    refine run_induction (P := fun s' => s'.phase i = .done result ∧
      s'.fetchesOf i = s.fetchesOf i) ?_ ⟨hdone, rfl⟩ h
    intro s₁ e s₂ hstep hs₁
    obtain ⟨hphase, hfetches⟩ := hstep.done hs₁.1
    exact ⟨hphase, hfetches.trans hs₁.2⟩
  exact hrun.2

/-! ### The breaker -/

/-- The event closes the circuit. -/
def Event.closes : Event → Bool
  | .settled _ outcome _ _ => isSuccess outcome
  | _ => false

/-- A failure opens the circuit: with it there are as many in a row as the threshold says. -/
def OpensAt (settings : Settings) (s : State) (e : Event) (openedAt : ℕ) : Prop :=
  ∃ i outcome checkedAt, e = .settled i outcome openedAt checkedAt ∧
    isRetryableFailure outcome = true ∧
    settings.failureThreshold ≤ s.breaker.consecutiveFailures + 1

/-- The request is in a back-off. -/
def Phase.isWaiting : Phase → Bool
  | .waiting _ _ _ _ => true
  | _ => false

/-- Since the back-off of the request began the circuit has been opened and not been closed. -/
def Opened (settings : Settings) (events : List Event) (i openedAt : ℕ) : Prop :=
  ∃ before opening between s, events = before ++ opening :: between ∧
    run settings .initial before = some s ∧ (s.phase i).isWaiting = true ∧
    OpensAt settings s opening openedAt ∧ ∀ e ∈ between, e.closes = false

/-- When a failure has opened the circuit during the back-off of another request, and no success has
closed it, the back-off ends after the cool-down.  That the failure opens the circuit, and that the
request is in its back-off, is read in the states that the events before have led to. -/
def BackoffsOutlastCooldowns (settings : Settings) (events : List Event) : Prop :=
  ∀ before after i startedAt openedAt, events = before ++ .delayed i startedAt :: after →
    Opened settings before i openedAt → openedAt + settings.cooldownMs ≤ startedAt

/-- No fetch was started while the circuit was open. -/
def State.Isolated (s : State) : Prop := ∀ fetch ∈ s.fetches, fetch.openUntil ≤ fetch.startedAt

/-- What a step does to the breaker. -/
lemma Steps.breaker_cases (h : Steps settings s e s') :
    (s'.breaker = .closed ∧ e.closes = true) ∨
    (e.closes = false ∧ s.breaker.consecutiveFailures ≤ s'.breaker.consecutiveFailures ∧
      (s'.breaker.openUntil = s.breaker.openUntil ∨
        ∃ openedAt, OpensAt settings s e openedAt ∧ s.clock ≤ openedAt ∧ openedAt ≤ s'.clock ∧
          s'.breaker.openUntil = openedAt + settings.cooldownMs)) := by
  cases h with
  | success _ _ hsuccess => exact Or.inl ⟨rfl, hsuccess⟩
  | failure _ hfailed hchecked hretryable hsuccess _ =>
    refine Or.inr ⟨hsuccess, Nat.le_succ _, ?_⟩
    by_cases hthreshold : settings.failureThreshold ≤ s.breaker.consecutiveFailures + 1
    · exact Or.inr ⟨_, ⟨_, _, _, rfl, hretryable, hthreshold⟩, hfailed, hchecked,
        if_pos hthreshold⟩
    · exact Or.inl (if_neg hthreshold)
  | terminal _ _ _ hsuccess => exact Or.inr ⟨hsuccess, Nat.le_refl _, Or.inl rfl⟩
  | refused | first | givesUp | again =>
    exact Or.inr ⟨rfl, Nat.le_refl _, Or.inl rfl⟩

/-- What a step adds to the fetches. -/
lemma Steps.fetches_cases (h : Steps settings s e s') :
    s'.fetches = s.fetches ∨ ∃ i startedAt,
      s'.fetches = s.fetches ++ [⟨i, startedAt, s.breaker.openUntil⟩] ∧ s.clock ≤ startedAt ∧
      (s.breaker.openUntil ≤ startedAt ∨
        (s.phase i).isWaiting = true ∧ e = .delayed i startedAt) := by
  cases h with
  | first _ hclock hopen _ => exact Or.inr ⟨_, _, rfl, hclock, Or.inl hopen⟩
  | again hphase hclock _ =>
    exact Or.inr ⟨_, _, rfl, hclock, Or.inr ⟨by rw [hphase]; rfl, rfl⟩⟩
  | _ => exact Or.inl rfl

/-- A back-off begins while the circuit is closed, or it has begun before. -/
lemma Steps.waiting_cases (h : Steps settings s e s') (hwaiting : (s'.phase i).isWaiting = true) :
    (s.phase i).isWaiting = true ∨ s'.breaker.openUntil ≤ s'.clock := by
  by_cases hi : i = e.subject
  · subst hi
    cases h with
    | failure _ _ _ _ _ hnext =>
      simp only [Event.subject, goto_phase] at hwaiting
      obtain ⟨result, rfl⟩ | ⟨lastError, wakesAt, rfl, -, hopen⟩ := hnext
      · simp [Phase.isWaiting] at hwaiting
      · exact Or.inr hopen
    | _ => simp [Event.subject, Phase.isWaiting] at hwaiting
  · rw [h.phase_ne hi] at hwaiting
    exact Or.inl hwaiting

/-- One more event. -/
lemma run_concat : run settings s (events ++ [e]) = some s' ↔
    ∃ s₁, run settings s events = some s₁ ∧ step settings s₁ e = some s' := by
  rw [run_append]
  simp [run]

/-- During a back-off the circuit is closed, or it has been opened since. -/
lemma backoff_opened (h : run settings .initial events = some s)
    (hwaiting : (s.phase i).isWaiting = true) :
    s.breaker.openUntil ≤ s.clock ∨ ∃ openedAt, Opened settings events i openedAt ∧
      s.breaker.openUntil = openedAt + settings.cooldownMs := by
  induction events using List.reverseRecOn generalizing s with
  | nil =>
    obtain rfl := Option.some.inj h
    simp [State.initial, Phase.isWaiting] at hwaiting
  | append_singleton events e ih =>
    obtain ⟨s₁, hrun, hlast⟩ := run_concat.mp h
    have hstep := steps_of_step hlast
    rcases hstep.waiting_cases hwaiting with hbefore | hclosed
    · rcases hstep.breaker_cases with
        ⟨hclosed, -⟩ | ⟨hopen, -, hsame | ⟨openedAt, hopens, -, -, huntil⟩⟩
      · rw [hclosed]
        exact Or.inl (Nat.zero_le _)
      · rw [hsame]
        rcases ih hrun hbefore with hle | ⟨openedAt, hopened, huntil⟩
        · exact Or.inl (Nat.le_trans hle hstep.clock_le)
        · obtain ⟨before, opening, between, sb, rfl, hsb, hwait, hopens, hbetween⟩ := hopened
          refine Or.inr ⟨openedAt, ⟨before, opening, between ++ [e], sb, by simp, hsb, hwait, hopens,
            ?_⟩, huntil⟩
          intro e' he'
          rcases List.mem_append.mp he' with he' | he'
          · exact hbetween e' he'
          · rw [List.mem_singleton.mp he']
            exact hopen
      · exact Or.inr ⟨openedAt, ⟨events, e, [], s₁, rfl, hrun, hbefore, hopens, by simp⟩, huntil⟩
    · exact Or.inl hclosed

/-- The circuit stays open at least for the cool-down, unless a success closes it. -/
lemma stays_open {openedAt : ℕ} (h : run settings s events = some s')
    (hevents : ∀ e ∈ events, e.closes = false)
    (hfailures : settings.failureThreshold ≤ s.breaker.consecutiveFailures)
    (hclock : openedAt ≤ s.clock) (hopen : openedAt + settings.cooldownMs ≤ s.breaker.openUntil) :
    openedAt + settings.cooldownMs ≤ s'.breaker.openUntil := by
  induction events generalizing s with
  | nil =>
    obtain rfl := Option.some.inj h
    exact hopen
  | cons e events ih =>
    obtain ⟨s₁, hfirst, hrest⟩ := Option.bind_eq_some_iff.mp h
    have hstep := steps_of_step hfirst
    have hclosed := hevents e List.mem_cons_self
    have hlater : ∀ e ∈ events, e.closes = false := fun e he => hevents e (List.mem_cons_of_mem _ he)
    rcases hstep.breaker_cases with ⟨-, hcloses⟩ | ⟨-, hmore, hcases⟩
    · rw [hclosed] at hcloses
      cases hcloses
    · refine ih hrest hlater (Nat.le_trans hfailures hmore)
        (Nat.le_trans hclock hstep.clock_le) ?_
      rcases hcases with hsame | ⟨reopenedAt, -, hafter, -, huntil⟩
      · rw [hsame]
        exact hopen
      · rw [huntil]
        omega

/-- A started fetch stays recorded. -/
lemma mem_fetches_of_run {fetch : Fetch} (hfetch : fetch ∈ s.fetches)
    (h : run settings s events = some s') : fetch ∈ s'.fetches := by
  refine run_induction (P := fun s' => fetch ∈ s'.fetches) ?_ hfetch h
  intro s₁ e s₂ hstep hmem
  rcases hstep.fetches_cases with hsame | ⟨i, startedAt, hsame, -⟩
  · rw [hsame]
    exact hmem
  · rw [hsame]
    exact List.mem_append_left _ hmem

/-- A back-off that outlasts each cool-down ends with a closed circuit. -/
lemma isolated_of_backoffs (h : run settings .initial events = some s)
    (hbackoffs : BackoffsOutlastCooldowns settings events) : s.Isolated := by
  induction events using List.reverseRecOn generalizing s with
  | nil =>
    obtain rfl := Option.some.inj h
    exact fun _ hfetch => nomatch hfetch
  | append_singleton events e ih =>
    obtain ⟨s₁, hrun, hlast⟩ := run_concat.mp h
    have hearlier : BackoffsOutlastCooldowns settings events := by
      intro before after i startedAt openedAt hevents hopened
      exact hbackoffs before (after ++ [e]) i startedAt openedAt (by simp [hevents]) hopened
    have hisolated := ih hrun hearlier
    rcases (steps_of_step hlast).fetches_cases with hsame | ⟨i, startedAt, hsame, hclock, hstart⟩
    · intro fetch hfetch
      rw [hsame] at hfetch
      exact hisolated fetch hfetch
    · intro fetch hfetch
      rw [hsame] at hfetch
      rcases List.mem_append.mp hfetch with hfetch | hfetch
      · exact hisolated fetch hfetch
      · obtain rfl := List.mem_singleton.mp hfetch
        rcases hstart with hclosed | ⟨hwaiting, rfl⟩
        · exact hclosed
        · rcases backoff_opened hrun hwaiting with hle | ⟨openedAt, hopened, huntil⟩
          · exact Nat.le_trans hle hclock
          · rw [huntil]
            exact hbackoffs events [] i startedAt openedAt rfl hopened

/-- The fetch after a back-off that the cool-down outlasts starts while the circuit is open. -/
lemma backoffs_of_isolated (h : run settings .initial events = some s) (hs : s.Isolated) :
    BackoffsOutlastCooldowns settings events := by
  rintro before after i startedAt openedAt rfl ⟨earlier, opening, between, sb, rfl, hsb, hwaiting,
    hopens, hbetween⟩
  obtain ⟨s₁, hbefore, hrest⟩ := run_append.mp h
  obtain ⟨sb', hsb', hopening⟩ := run_append.mp hbefore
  obtain rfl := Option.some.inj (hsb.symm.trans hsb')
  obtain ⟨s₂, hfirst, hlater⟩ := Option.bind_eq_some_iff.mp hopening
  obtain ⟨s₃, hdelayed, hend⟩ := Option.bind_eq_some_iff.mp hrest
  -- the circuit is open until the end of the back-off
  have huntil : openedAt + settings.cooldownMs ≤ s₁.breaker.openUntil := by
    obtain ⟨j, outcome, checkedAt, rfl, hretryable, hthreshold⟩ := hopens
    cases steps_of_step hfirst with
    | success _ _ hsuccess =>
      unfold isRetryableFailure at hretryable
      unfold isSuccess at hsuccess
      cases hresult : outcome.result <;> simp_all [Except.isOk, Except.toBool]
    | terminal _ _ hnot _ =>
      rw [hretryable] at hnot
      cases hnot
    | failure _ hfailed hchecked _ _ _ =>
      refine stays_open hlater hbetween hthreshold hchecked ?_
      exact Nat.le_of_eq (if_pos hthreshold).symm
  have hok := run_ok hbefore
  cases steps_of_step hdelayed with
  | givesUp hphase _ hnot =>
    have hallowed := hok.allowed i
    rw [hphase] at hallowed
    exact absurd hallowed hnot
  | again hphase _ _ =>
    have hmem := mem_fetches_of_run (List.mem_append_right _ List.mem_cons_self) hend
    exact Nat.le_trans huntil (hs _ hmem)

/-- The fetch ends its request: it succeeds, or fails for good. -/
lemma Steps.settled_done {outcome : FetchOutcome} {failedAt checkedAt : ℕ}
    (h : Steps settings s (.settled i outcome failedAt checkedAt) s')
    (hfinal : isRetryableFailure outcome = false) : ∃ result, s'.phase i = .done result := by
  cases h with
  | success => exact ⟨_, goto_phase s i _ checkedAt⟩
  | terminal => exact ⟨_, goto_phase s i _ checkedAt⟩
  | failure _ _ _ hretryable =>
    rw [hfinal] at hretryable
    cases hretryable

/-- In every interleaving of requests, no fetch starts while the circuit is open if and only if no
back-off ends within a cool-down that another request's failure began during it.  A request starts at
most `LEDGER_HTTP_MAX_ATTEMPTS` fetches, and none after a success or a terminal error. -/
theorem circuit_breaker (settings : Settings) (events : List Event) (s : State)
    (h : run settings .initial events = some s) :
    (s.Isolated ↔ BackoffsOutlastCooldowns settings events) ∧
    (∀ i, (s.fetchesOf i).length ≤ settings.config.ledgerHttpMaxAttempts) ∧
    ∀ before after i outcome failedAt checkedAt s₁,
      events = before ++ .settled i outcome failedAt checkedAt :: after →
      run settings .initial (before ++ [.settled i outcome failedAt checkedAt]) = some s₁ →
      isRetryableFailure outcome = false → s.fetchesOf i = s₁.fetchesOf i := by
  refine ⟨⟨backoffs_of_isolated h, isolated_of_backoffs h⟩, (run_ok h).count_le, ?_⟩
  rintro before after i outcome failedAt checkedAt s₁ rfl hs₁ hfinal
  rw [List.append_cons] at h
  obtain ⟨s₁', hs₁', hafter⟩ := run_append.mp h
  obtain rfl := Option.some.inj (hs₁.symm.trans hs₁')
  obtain ⟨s₀, -, hlast⟩ := run_concat.mp hs₁
  obtain ⟨result, hdone⟩ := (steps_of_step hlast).settled_done hfinal
  exact run_done hdone hafter

/-! ### A slow ledger -/

/-- The command of the requests below. -/
def placeHoldRequest : Ledger.Command :=
  .placeTransferHold "t" { senderUserId := "ann", senderWalletId := "wallet", amount := 1 }

/-- The first request fails and waits for a tenth of a second.  Meanwhile four others fail and open the
circuit for five seconds. -/
def slowLedger : List Event :=
  [.request 0 placeHoldRequest 0 0, .settled 0 .aborted 0 0,
    .request 1 placeHoldRequest 1 1, .request 2 placeHoldRequest 1 1,
    .request 3 placeHoldRequest 1 1, .request 4 placeHoldRequest 1 1,
    .settled 1 .aborted 10 10, .settled 2 .aborted 10 10, .settled 3 .aborted 10 10,
    .settled 4 .aborted 10 10, .delayed 0 100]

lemma slowLedger_fetches :
    (run { config := scripted.config } .initial slowLedger).map State.fetches =
      some [⟨0, 0, 0⟩, ⟨1, 1, 0⟩, ⟨2, 1, 0⟩, ⟨3, 1, 0⟩, ⟨4, 1, 0⟩, ⟨0, 100, 5010⟩] := by
  rfl

/-- The last back-off ends within the cool-down. -/
theorem circuit_breaker_slow_ledger :
    ¬ BackoffsOutlastCooldowns { config := scripted.config } slowLedger := by
  obtain ⟨s, hrun, hfetches⟩ := Option.map_eq_some_iff.mp slowLedger_fetches
  rw [← (circuit_breaker _ slowLedger s hrun).1]
  intro hisolated
  have hlast := hisolated ⟨0, 100, 5010⟩ (by rw [hfetches]; decide)
  exact absurd hlast (by decide)

/-- A fetch starts while the circuit is open. -/
theorem fetch_in_open_circuit :
    ∃ s, run { config := scripted.config } .initial slowLedger = some s ∧
      ∃ fetch ∈ s.fetches, fetch.startedAt < fetch.openUntil := by
  obtain ⟨s, hrun, hfetches⟩ := Option.map_eq_some_iff.mp slowLedger_fetches
  refine ⟨s, hrun, ⟨0, 100, 5010⟩, ?_, by decide⟩
  rw [hfetches]
  decide

end LedgerHttpClient

end Payments

end PeerLedger
