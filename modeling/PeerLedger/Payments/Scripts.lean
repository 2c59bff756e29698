import PeerLedger.Payments.Soundness

/-!
# Scripted runs of both services

A script plays a run of the two services step by step: a thread of the payments service runs up to
its next question, a question gets its answer, a request is sent, arrives or is answered.
`Script.perform` computes the state after an action, and `Script.reaches_play` says that what a
script plays is a run of the system.
-/

namespace PeerLedger

namespace Payments

open Transactions

/-- One action of a script. -/
inductive Action where
  /-- A thread starts a command. -/
  | start (i : Nat) (command : Command)
  /-- The circuit breaker answers a thread. -/
  | breaker (i : Nat) (b : Bool)
  /-- The request of a thread is sent. -/
  | send (i : Nat)
  /-- A waiting thread gets no answer of the ledger. -/
  | refuse (i : Nat) (outcome : FetchOutcome)
  /-- A waiting thread gets the answer of the ledger's thread `j`. -/
  | respond (i j : Nat) (lost : Bool)
  /-- A thread of the ledger executes a command of an owner. -/
  | owner (j : Nat) (command : Ledger.Command)
  /-- A thread of the ledger executes a request. -/
  | deliver (j n : Nat)

/-- What a script needs of its setting. -/
structure Script (setting : Setting) where
  draw : Nat → Draw
  ledgerDraw : Nat → Nat → Ledger.Draw
  /-- A test of the commits of the payments service. -/
  test : World → PaymentsCommit → Bool
  /-- A test of the commits of the ledger. -/
  ledgerTest : Ledger.LedgerWorld → Ledger.LedgerCommit → Bool
  /-- A test of the commands of the payments service. -/
  serves : Command → Bool
  /-- A test of the commands that owners give. -/
  owners : Ledger.Command → Bool
  /-- A test of the responses that lose their body. -/
  loses : Ledger.Command → Ledger.Reply → Bool
  draw_ok : ∀ i, setting.draws i (draw i)
  uuid_ok : ∀ i n, setting.ledger.uuid (ledgerDraw i n).transactionId
  test_ok : ∀ w c, test w c = true → setting.admits w (soloPending c.thread c.writes) c
  serves_ok : ∀ command, serves command = true → setting.serves command
  ledgerTest_ok : ∀ w c, ledgerTest w c = true → setting.ledger.admits w c
  owners_ok : ∀ command, owners command = true →
    setting.owners command ∧ ∀ w, setting.allows w command
  loses_ok : ∀ command reply, loses command reply = true → setting.loses command reply

/-- The outcomes that are no answer of the ledger. -/
def FetchOutcome.isRefusal : FetchOutcome → Bool
  | .aborted => true
  | .rejected _ => true
  | .response status _ => !isOk status

variable {setting : Setting} (sc : Script setting)

namespace Script

/-- Thread `i` goes on with `p` by itself. -/
def goOn (s : System) (i : Nat) (p : PaymentsProg Result) (w : World) : Option System :=
  if p.admittedBy (payments setting) sc.test i 60 w then some (s.serve (payments setting) 60 i p w)
  else none

/-- A thread of the ledger executes a command by itself. -/
def serveLedger (l : Ledger.LedgerSys) (j : Nat) (command : Ledger.Command) :
    Option Ledger.LedgerSys :=
  match l.threads j, l.world.jobs j with
  | .idle, none =>
    let program := command.program (sc.ledgerDraw j)
    let world := l.world.start j command (sc.ledgerDraw j)
    if program.admittedBy (Ledger.ledger setting.ledger).closed sc.ledgerTest j 60 world then
      some (l.serve (Ledger.ledger setting.ledger).closed 60 j program world)
    else none
  | _, _ => none

/-- The state after an action, if it is possible. -/
def perform (s : System) : Action → Option System
  | .start i command =>
    match s.threads i, s.world.jobs i with
    | .idle, none =>
      if sc.serves command then sc.goOn s i (command.program setting.config (sc.draw i))
        { s.world with jobs := Function.update s.world.jobs i (some ⟨command, sc.draw i⟩) }
      else none
    | _, _ => none
  | .breaker i b =>
    match s.threads i with
    | .run (.call .circuitOpen k) => sc.goOn s i (k (.flag b)) s.world
    | .run (.call .recordSuccess k) => sc.goOn s i (k (.flag b)) s.world
    | .run (.call .recordFailure k) => sc.goOn s i (k (.flag b)) s.world
    | _ => none
  | .send i =>
    match s.threads i with
    | .run (.call (.fetch command) k) =>
      some (s.set i (.waiting (.fetch command) s.world.sent.length k)
        { s.world with sent := s.world.sent ++ [⟨command, s.world.ledger.world.db⟩] })
    | _ => none
  | .refuse i outcome =>
    match s.threads i with
    | .waiting (.fetch _) _ k =>
      if outcome.isRefusal then sc.goOn s i (k (.fetched outcome)) s.world else none
    | _ => none
  | .respond i j lost =>
    match s.threads i, s.world.ledger.threads j with
    | .waiting (.fetch command) t k, .run (.done (.ok reply)) =>
      if s.world.origin j = some t ∧ (lost = true → sc.loses command reply = true) then
        sc.goOn s i (k (.fetched (.response 201 (if lost then {} else { reply := some reply }))))
          s.world
      else none
    | _, _ => none
  | .owner j command =>
    if isPublic command ∧ sc.owners command = true then
      match sc.serveLedger s.world.ledger j command with
      | some l => some ⟨{ s.world with ledger := l }, s.threads⟩
      | none => none
    else none
  | .deliver j n =>
    match s.world.sent[n]? with
    | some request =>
      match sc.serveLedger s.world.ledger j request.command with
      | some l => some ⟨{ s.world with
          ledger := l, origin := Function.update s.world.origin j (some n) }, s.threads⟩
      | none => none
    | none => none

/-- The state after all actions, if they are possible. -/
def play : List Action → System → Option System
  | [], s => some s
  | action :: actions, s =>
    match sc.perform s action with
    | some s' => play actions s'
    | none => none

/-! ### Scripts play runs -/

/-- No transaction is open in either service. -/
def Calm (s : System) : Prop := s.Quiet ∧ s.world.ledger.Quiet

variable {sc} {s s' : System} {i : Nat}

lemma reaches_goOn {p : PaymentsProg Result} {w : World} (hq : Calm s)
    (h : sc.goOn s i p w = some s') (hledger : w.ledger = s.world.ledger) :
    Reaches (payments setting) (s.set i (.run p) w) s' ∧ Calm s' := by
  unfold goOn at h
  split at h
  · next htest =>
    obtain rfl := Option.some.inj h
    have hadm := Prog.admitted_of_test sc.test_ok htest
    refine ⟨hq.1.drive (payments setting) 60 i w p hadm, hq.1.set rfl _, ?_⟩
    have hdrive : (p.drive (payments setting) i 60 w).1.ledger = s.world.ledger :=
      Prog.drive_invariant (I := fun w' : World => w'.ledger = s.world.ledger)
        (fun _ _ h _ => h) 60 hledger p
    exact hdrive ▸ hq.2
  · cases h

/-- Steps of the ledger's threads are steps of the system. -/
lemma reaches_closed {l l' : Ledger.LedgerSys} {w : World}
    {threads : Nat → Thread Database Write PaymentsError Reply Ask Answer Nat Result}
    (h : Reaches (Ledger.ledger setting.ledger).closed l l') :
    Reaches (payments setting) ⟨{ w with ledger := l }, threads⟩
      ⟨{ w with ledger := l' }, threads⟩ := by
  induction h with
  | refl => exact .refl
  | @tail a b _ hab ih =>
    have hmove : LedgerMoves setting { w with ledger := a } { w with ledger := b } := .move hab
    exact ih.tail (.env (s := ⟨{ w with ledger := a }, threads⟩) hmove)

/-- A command that the ledger executes by itself was started and ran. -/
lemma reaches_serveLedger {l l' : Ledger.LedgerSys} {j : Nat} {command : Ledger.Command}
    (hq : l.Quiet) (h : sc.serveLedger l j command = some l') :
    CanStart setting l j (sc.ledgerDraw j) ∧ l'.Quiet ∧
      Reaches (Ledger.ledger setting.ledger).closed (startLedger l j command (sc.ledgerDraw j)) l' := by
  unfold serveLedger at h
  split at h
  · next hidle hjobs =>
    dsimp only at h
    split at h
    · next htest =>
      obtain rfl := Option.some.inj h
      have hadm := Prog.admitted_of_test sc.ledgerTest_ok htest
      exact ⟨⟨hidle, hjobs, sc.uuid_ok j⟩, hq.set rfl _,
        hq.drive (Ledger.ledger setting.ledger).closed 60 j _ _ hadm⟩
    · cases h
  · cases h

/-- Every action that is possible is a run of the system. -/
lemma reaches_perform {action : Action} (hq : Calm s) (h : sc.perform s action = some s') :
    Reaches (payments setting) s s' ∧ Calm s' := by
  cases action with
  | start i command =>
    simp only [perform] at h
    split at h
    · next hidle hjobs =>
      split at h
      · next hserves =>
        obtain ⟨hreach, hq'⟩ := reaches_goOn hq h rfl
        exact ⟨.head (.start hidle ⟨hjobs, command, sc.draw i, sc.serves_ok command hserves,
          sc.draw_ok i, rfl, rfl⟩) hreach, hq'⟩
      · cases h
    · cases h
  | breaker i b =>
    simp only [perform] at h
    split at h
    all_goals first
      | cases h
      | next hi =>
        obtain ⟨hreach, hq'⟩ := reaches_goOn hq h rfl
        refine ⟨.head (.issue hi (t := 0) rfl) (.head (.answer (Sys.set_threads_self _ _ _ _)
          ⟨b, rfl⟩) ?_), hq'⟩
        rwa [Sys.set_set]
  | send i =>
    simp only [perform] at h
    split at h
    · next command k hi =>
      obtain rfl := Option.some.inj h
      exact ⟨.single (.issue hi ⟨rfl, rfl⟩), hq.1.set rfl _, hq.2⟩
    · cases h
  | refuse i outcome =>
    simp only [perform] at h
    split at h
    · next hi =>
      split at h
      · next hrefusal =>
        obtain ⟨hreach, hq'⟩ := reaches_goOn hq h rfl
        refine ⟨.head (.answer hi ⟨outcome, rfl, ?_⟩) hreach, hq'⟩
        cases outcome with
        | aborted => exact .aborted
        | rejected message => exact .rejected
        | response status body => exact .refused (by simpa [FetchOutcome.isRefusal] using hrefusal)
      · cases h
    · cases h
  | respond i j lost =>
    simp only [perform] at h
    split at h
    · next command t k reply hi hj =>
      split at h
      · next hwhen =>
        obtain ⟨horigin, hlost⟩ := hwhen
        obtain ⟨hreach, hq'⟩ := reaches_goOn hq h rfl
        refine ⟨.head (.answer hi ⟨_, rfl, ?_⟩) hreach, hq'⟩
        cases lost with
        | true => exact .truncated ⟨j, horigin, hj⟩ (sc.loses_ok _ _ (hlost rfl)) rfl
        | false => exact .answered ⟨j, horigin, hj⟩ rfl
      · cases h
    · cases h
  | owner j command =>
    simp only [perform] at h
    split at h
    · next howner =>
      obtain ⟨hpublic, htest⟩ := howner
      split at h
      · next l hl =>
        obtain rfl := Option.some.inj h
        obtain ⟨hcan, hql, hreach⟩ := reaches_serveLedger hq.2 hl
        obtain ⟨howner, hallowed⟩ := sc.owners_ok _ htest
        exact ⟨.head (.env (.owner hpublic howner (hallowed _) hcan)) (reaches_closed hreach),
          hq.1, hql⟩
      · cases h
    · cases h
  | deliver j n =>
    simp only [perform] at h
    split at h
    · next request hrequest =>
      split at h
      · next l hl =>
        obtain rfl := Option.some.inj h
        obtain ⟨hcan, hql, hreach⟩ := reaches_serveLedger hq.2 hl
        exact ⟨.head (.env (.deliver hrequest hcan)) (reaches_closed
          (w := { s.world with origin := Function.update s.world.origin j (some n) }) hreach),
          hq.1, hql⟩
      · cases h
    · cases h

/-- What a script plays is a run of the system. -/
lemma reaches_play {actions : List Action} (hq : Calm s) (h : sc.play actions s = some s') :
    Reaches (payments setting) s s' ∧ Calm s' := by
  induction actions generalizing s with
  | nil => exact Option.some.inj h ▸ ⟨.refl, hq⟩
  | cons action actions ih =>
    simp only [play] at h
    split at h
    · next s₁ hs₁ =>
      obtain ⟨hreach, hq₁⟩ := reaches_perform hq hs₁
      obtain ⟨hreach', hq'⟩ := ih hq₁ h
      exact ⟨hreach.trans hreach', hq'⟩
    · cases h

/-- A script from the start that ends in a state with a property reaches such a state. -/
lemma exists_reaches (sc : Script setting) (users : List Ledger.User) (actions : List Action)
    (p : System → Bool) (h : (sc.play actions (Sys.init (.initial users))).any p = true) :
    ∃ s, Reaches (payments setting) (Sys.init (.initial users)) s ∧ p s = true := by
  cases hs : sc.play actions (Sys.init (.initial users)) with
  | none => rw [hs] at h; cases h
  | some s =>
    rw [hs] at h
    have hq : Calm (Sys.init (.initial users)) := ⟨.init _, .init _⟩
    exact ⟨s, (reaches_play hq hs).1, h⟩

/-! ### Overlapping transactions -/

/-- The next step of thread `i`; its breaker is told of a success. -/
def proceed (setting : Setting) (ids : List Nat) (s : System) (i : Nat) : Option System :=
  match s.threads i with
  | .run (.call .recordSuccess k) => some (s.set i (.run (k (.flag true))) s.world)
  | _ => s.tick (payments setting) ids i

/-- The steps of some threads in this order. -/
def proceedAll (setting : Setting) (ids : List Nat) : List Nat → System → Option System
  | [], s => some s
  | i :: rest, s =>
    match proceed setting ids s i with
    | some s' => proceedAll setting ids rest s'
    | none => none

lemma reaches_proceed {ids : List Nat} (hq : s.QuietBut ids) (hi : i ∈ ids)
    (hadm : ∀ w pending c, setting.admits w pending c) (h : proceed setting ids s i = some s') :
    Reaches (payments setting) s s' ∧ s'.QuietBut ids := by
  unfold proceed at h
  split at h
  · next k ht =>
    obtain rfl := Option.some.inj h
    refine ⟨.head (.issue ht (t := 0) rfl) (.single ?_), hq.set hi _ _⟩
    have hstep : Step (payments setting) (s.set i (.waiting .recordSuccess 0 k) s.world) _ :=
      .answer (Sys.set_threads_self _ _ _ _) ⟨true, rfl⟩
    rwa [Sys.set_set] at hstep
  · exact hq.tick hi hadm h

lemma reaches_proceedAll {ids order : List Nat} (hq : s.QuietBut ids) (hids : ∀ i ∈ order, i ∈ ids)
    (hadm : ∀ w pending c, setting.admits w pending c)
    (h : proceedAll setting ids order s = some s') : Reaches (payments setting) s s' := by
  induction order generalizing s with
  | nil => exact Option.some.inj h ▸ .refl
  | cons i order ih =>
    simp only [proceedAll] at h
    split at h
    · next s₁ hs₁ =>
      obtain ⟨hreach, hq₁⟩ := reaches_proceed hq (hids i List.mem_cons_self) hadm hs₁
      exact hreach.trans (ih hq₁ (fun j hj => hids j (List.mem_cons_of_mem _ hj)) h)
    · cases h

/-- A script from the start, after which the threads of `order` go on step by step. -/
lemma exists_reaches_overlapping (sc : Script setting) (users : List Ledger.User)
    (actions : List Action) (order : List Nat) (hadm : ∀ w pending c, setting.admits w pending c)
    (p : System → Bool) (h : ((sc.play actions (Sys.init (.initial users))).bind
      (proceedAll setting order order)).any p = true) :
    ∃ s, Reaches (payments setting) (Sys.init (.initial users)) s ∧ p s = true := by
  cases hs : sc.play actions (Sys.init (.initial users)) with
  | none => rw [hs] at h; cases h
  | some s₁ =>
    rw [hs, Option.bind_some] at h
    cases hs' : proceedAll setting order order s₁ with
    | none => rw [hs'] at h; cases h
    | some s =>
      rw [hs'] at h
      have hq : Calm (Sys.init (.initial users)) := ⟨.init _, .init _⟩
      obtain ⟨hreach, hcalm⟩ := reaches_play hq hs
      exact ⟨s, hreach.trans (reaches_proceedAll (fun j _ => hcalm.1 j) (fun _ hi => hi) hadm hs'), h⟩

end Script

/-! ### Ann pays Bob -/

/-- The lease owner of the `n`-th run of thread `i`. -/
def ownerName (i n : Nat) : String :=
  String.ofList (List.replicate i 'a' ++ 'b' :: List.replicate n 'c')

lemma ownerName_injective {i j n m : Nat} (h : ownerName i n = ownerName j m) : i = j ∧ n = m := by
  have hlist := String.ofList_injective h
  have hi := congrArg (List.count 'a') hlist
  have hn := congrArg (List.count 'c') hlist
  simp [List.count_replicate] at hi hn
  exact ⟨hi, hn⟩

/-- What a message draws in the scripts. -/
def scriptedMessage (name : String) : MessageDraw :=
  { eventId := name, occurredAt := 0,
    carrier := { traceId := none, traceparent := none, tracestate := none } }

/-- The id of the transfer that thread `i` creates in the scripts. -/
def transferName : Nat → String
  | 0 => "t"
  | i => "t-" ++ toString i

/-- What thread `i` draws in the scripts. -/
def scriptedDraw (i : Nat) : Draw :=
  { id := transferName i, quotedAt := 0, createdAt := 0,
    runs := fun n =>
      { leaseOwner := ownerName i n, skipLocked := false,
        completion := fun _ =>
          { completed := scriptedMessage (ownerName i n ++ "-completed"),
            sharePaid := scriptedMessage (ownerName i n ++ "-paid"),
            statusChanged := scriptedMessage (ownerName i n ++ "-changed") } },
    billId := "bill", shareIds := fun n => "share-" ++ toString n,
    shareMessages := fun n => scriptedMessage ("share-created-" ++ toString n) }

/-- The names of the ledger's threads in the scripts. -/
def ledgerName : Nat → String
  | 0 => "ann"
  | 1 => "bob"
  | j => "request-" ++ toString j

/-- The setting of the scripts: the threads draw what is written down, and otherwise everything is
possible that the network, the owners and the scheduler can do. -/
def scripted : Setting where
  config := { fingerprint := fun _ => "" }
  ledger := Ledger.openLedger fun _ => True
  fails _ := False
  admits _ _ _ := True
  serves _ := True
  draws i draw := draw = scriptedDraw i
  owners _ := True
  loses _ _ := True

lemma scripted_distinctOwners : scripted.DistinctOwners := by
  rintro i j _ _ n m rfl rfl h
  exact ownerName_injective h

lemma scripted_draws (i : Nat) : scripted.draws i (scriptedDraw i) := rfl

/-- The scripts of this setting. -/
def scriptedRun : Script scripted where
  draw := scriptedDraw
  ledgerDraw j := Ledger.drawFor (ledgerName j)
  test _ _ := true
  ledgerTest _ _ := true
  serves _ := true
  owners _ := true
  loses _ _ := true
  draw_ok := scripted_draws
  uuid_ok _ _ := trivial
  test_ok _ _ _ := trivial
  serves_ok _ _ := trivial
  ledgerTest_ok _ _ _ := trivial
  owners_ok _ _ := ⟨trivial, fun _ => trivial⟩
  loses_ok _ _ _ := trivial

/-- Ann wants to pay Bob four dollars. -/
def payment : CreateTransferDto :=
  { fromWalletId := "ann-wallet", toWalletIdentifier := "bob@example.com", amount := 4,
    currency := "USD", targetCurrency := none }

/-- Ann and Bob have wallets, Ann's has ten dollars, and the transfer `t` is created. -/
def opening : List Action :=
  [.owner 0 (.getOrCreateForUser "ann" "USD"), .owner 1 (.getOrCreateForUser "bob" "USD"),
    .owner 2 (.deposit "ann-wallet" "ann" 10), .start 0 (.create payment (some "key") "ann")]

/-- Thread `i` asks the ledger for something: the request is sent, thread `j` of the ledger executes
it, and the answer arrives. -/
def asking (i j n : Nat) : List Action :=
  [.breaker i false, .send i, .deliver j n, .respond i j false, .breaker i true]

/-- A run of `t` in which every request is answered: the transfer is settled and completed. -/
def settling : List Action :=
  .start 1 (.run "t" 5) :: (asking 1 3 0 ++ asking 1 4 1 ++ asking 1 5 2)

/-- The attempts of a request of thread `i` time out, without the first one's being sent. -/
def timingOut (i : Nat) : List Action :=
  [.refuse i .aborted, .breaker i true, .send i, .refuse i .aborted, .breaker i true, .send i,
    .refuse i .aborted, .breaker i true]

/-- Three runs of `t` in which the ledger executes the first request to settle, but every response is
too late; the last run releases the hold, and may lose the body of the answer. -/
def compensating (lost : Bool) : List Action :=
  .start 1 (.run "t" 5) :: (asking 1 3 0 ++ asking 1 4 1 ++
    [.breaker 1 false, .send 1, .deliver 5 2] ++ timingOut 1 ++
    [.start 2 (.run "t" 2000), .breaker 2 false, .send 2] ++ timingOut 2 ++
    [.start 3 (.run "t" 10000), .breaker 3 false, .send 3] ++ timingOut 3 ++
    [.breaker 3 false, .send 3, .deliver 6 11, .respond 3 6 lost, .breaker 3 true])

/-! ### Ann and Carl share a bill of Bob -/

/-- Ann, Bob and Carl are registered. -/
def annBobAndCarl : List Ledger.User := Ledger.annAndBob ++ [⟨"carl", "carl@example.com"⟩]

/-- Eight dollars in equal shares of Ann and Carl. -/
def sharedBill : CreateSplitBillDto :=
  { total := "8.00", currency := "USD", mode := .equal,
    participants := [⟨"ann", none⟩, ⟨"carl", none⟩], deadline := none }

/-- Everybody has a wallet, Ann's and Carl's have ten dollars, and Bob creates his bill. -/
def billOpening : List Action :=
  [.owner 0 (.getOrCreateForUser "ann" "USD"), .owner 1 (.getOrCreateForUser "bob" "USD"),
    .owner 2 (.getOrCreateForUser "carl" "USD"), .owner 3 (.deposit "ann-wallet" "ann" 10),
    .owner 4 (.deposit "request-2-wallet" "carl" 10),
    .start 0 (.createBill sharedBill "bob" "bob@example.com")]

/-- Thread `i` asks the ledger, and goes on no further than to its answer. -/
def askingOnly (i j n : Nat) : List Action :=
  [.breaker i false, .send i, .deliver j n, .respond i j false]

/-- Ann pays her share, up to the settlement of the transfer. -/
def payingFirst : List Action :=
  .start 1 (.payShare "bill" "share-0" "ann" "ann-wallet" (some "key") 5) ::
    (asking 1 5 0 ++ asking 1 6 1 ++ askingOnly 1 7 2)

/-- Carl pays his share, up to the settlement of the transfer. -/
def payingSecond : List Action :=
  .start 2 (.payShare "bill" "share-1" "carl" "request-2-wallet" (some "key") 5) ::
    (asking 2 8 3 ++ asking 2 9 4 ++ askingOnly 2 10 5)

end Payments

end PeerLedger
