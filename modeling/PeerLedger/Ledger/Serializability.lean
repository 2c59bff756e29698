import PeerLedger.Ledger.Soundness
import PeerLedger.Transactions.Solo

/-!
# The ledger is serializable

The committed tables are those that result from executing the committed commands one at a time, in
commit order (`Serially`).  Executing a command means running its whole program (`Command.program`)
alone on the tables that its predecessors left, with the ids, the clock and the trace context of the
attempt that committed.

`releaseTransferHold` and wallet creation are replayed transaction by transaction: the reads that
these commands make before their transaction may be older.  A release that found no hold writes
nothing.

`CommittedTables` is what holds of the four tables between commits.
-/

namespace PeerLedger

namespace Ledger

open Transactions WalletAggregate

/-- The draws of a command whose every attempt is the given one. -/
def onlyAttempt (draw : Nat → Draw) (attempt : Nat) : Nat → Draw
  | 0 => draw 0
  | _ + 1 => draw attempt

/-- Executing the command of a commit on `db` leaves `db'`. -/
inductive Executes (db : Database) (job : Job) (c : LedgerCommit) : Database → Prop
  | command (attempt : Nat) (reply : Reply) {db'} :
      (job.command.program (onlyAttempt job.draw attempt)).alone db = (.ok reply, db') →
      Executes db job c db'
  | transaction {reply} :
      (job.command.Creates ∨ ∃ transferId dto, job.command = .releaseTransferHold transferId dto) →
      c.body.alone db [] = .ok (reply, c.writes) → Executes db job c (view db c.writes)
  | missing {transferId dto} : job.command = .releaseTransferHold transferId dto → c.writes = [] →
      Executes db job c db

/-- The available funds cover the amount. -/
def Covered (db : Database) (walletId : String) (amount : ℚ) : Prop :=
  ∃ n a, toMinorUnits "Сума повинна бути додатною" amount = .ok n ∧
    rehydrate walletId (db.stream walletId) = .ok a ∧ n ≤ a.availableMinor

/-- A withdrawal and a new hold are covered by the available funds. -/
def Affordable (db : Database) : Command → Prop
  | .withdraw walletId _ amount => Covered db walletId amount
  | .placeHold walletId _ holdId amount =>
      db.hold walletId holdId = none → Covered db walletId amount
  | .placeTransferHold transferId dto =>
      db.hold dto.senderWalletId transferId = none → Covered db dto.senderWalletId dto.amount
  | _ => True

/-- Executing the commands of a log one at a time, each on what its predecessors left. -/
inductive Serially (jobs : Nat → Option Job) (start : Database) :
    List LedgerCommit → Database → Prop
  | nil : Serially jobs start [] start
  | snoc {log db c job db'} : Serially jobs start log db → jobs c.thread = some job →
      Affordable db job.command → Executes db job c db' → Serially jobs start (log ++ [c]) db'

/-! ### Commits as executions -/

section Commit

variable {db : Database} {job : Job} {c : LedgerCommit} {reply : Reply}

/-- A retry loop whose first attempt succeeds. -/
lemma alone_retrying {again : LedgerError → Bool} {unreachable : String}
    {body : Nat → LedgerTx Reply} {ws : List Write}
    (h : (body 1).alone db [] = .ok (reply, ws)) :
    (retrying again unreachable body 1 MAX_CONCURRENCY_RETRIES).alone db = (.ok reply, view db ws) :=
  Prog.alone_transaction h _

lemma Serial.alone_of_ne {command : Command} {body : LedgerTx Reply} {ws : List Write}
    (h : Serial command db body ws)
    (hne : ∀ transferId dto, command ≠ .releaseTransferHold transferId dto) :
    ∃ reply, body.alone db [] = .ok (reply, ws) := by
  rcases h with ⟨-, t, dto, hc⟩ | h
  · exact absurd hc (hne t dto)
  · exact h

/-- The wallets of a receipt can be read outside a transaction too. -/
lemma Consistent.alone_readSettlementWallets (h : Consistent db)
    {receipt : LedgerTransferSettlement} (hmem : receipt ∈ db.settlements) :
    ∃ sender receiver, (readSettlementWallets receipt).alone db =
      (.ok (.settled sender receiver), db) := by
  obtain ⟨hsender, hreceiver⟩ := h.receiptWallets receipt hmem
  obtain ⟨sp, hsp⟩ := h.projectionOf_some hsender
  obtain ⟨rp, hrp⟩ := h.projectionOf_some hreceiver
  obtain ⟨s, hs⟩ := walletById_some hsender
  obtain ⟨r, hr⟩ := walletById_some hreceiver
  refine ⟨toView s sp, toView r rp, ?_⟩
  simp [readSettlementWallets, readOrThrow, Prog.read, Prog.bind, Prog.attempt, Prog.alone,
    Except.map, hs, hr, hsp, hrp]

/-- The program of a settlement whose transaction succeeds alone. -/
lemma alone_settleTransfer {transferId : String} {dto : SettleInternalTransferDto} {n d : Int}
    {ws : List Write} (draw : Nat → Draw) (hc : Consistent db)
    (hn : toPositiveMinorUnits dto.amount = .ok n)
    (hd : toPositiveMinorUnits (dto.destinationAmount.getD dto.amount) = .ok d)
    (h : (settleTransferAttempt transferId dto n d (dto.targetCurrency.getD dto.currency)
      (draw 1)).alone db [] = .ok (reply, ws)) :
    ∃ reply, (Ledger.settleTransfer transferId dto draw).alone db = (.ok reply, view db ws) := by
  have hprogram : Ledger.settleTransfer transferId dto draw =
      settleTransferLoop transferId dto n d (dto.targetCurrency.getD dto.currency) draw 1 (24 + 1) := by
    simp only [Ledger.settleTransfer, hn, hd]
    rfl
  rw [hprogram, settleTransferLoop]
  cases hfound : db.settlementOf transferId with
  | some receipt =>
    have hmem := List.mem_of_find?_eq_some hfound
    rw [settleTransferAttempt_eq, Tx.alone_bind, Tx.alone_query, view_nil, hfound] at h
    change ((Tx.ofExcept (assertSettlementMatches receipt dto n d
      (dto.targetCurrency.getD dto.currency))).bind fun _ =>
        findSettlementWallets receipt).alone db [] = _ at h
    cases hcheck : assertSettlementMatches receipt dto n d
      (dto.targetCurrency.getD dto.currency) with
    | error e =>
      rw [hcheck] at h
      cases h
    | ok _ =>
      rw [hcheck] at h
      obtain ⟨sender, receiver, hread⟩ := hc.alone_findSettlementWallets hmem
      obtain ⟨sender', receiver', hread'⟩ := hc.alone_readSettlementWallets hmem
      have hws : ws = [] := (congrArg Prod.snd (Except.ok.inj (h.symm.trans hread)))
      subst hws
      refine ⟨.settled sender' receiver', ?_⟩
      simp only [Prog.read, Prog.bind_eq, Prog.bind, Prog.attempt, Prog.alone, Except.map, hfound,
        hcheck]
      exact hread'
  | none =>
    refine ⟨reply, ?_⟩
    simp only [Prog.read, Prog.bind_eq, Prog.bind, Prog.attempt, Prog.alone, Except.map, hfound, h]

/-- A commit executes its command on the contents at that moment. -/
lemma executes_of_effect (hc : Consistent db) (hattempt : job.command.Attempts job.draw c.body)
    (hserial : Serial job.command db c.body c.writes) :
    Executes db job c (view db c.writes) := by
  obtain ⟨command, draw, startDb⟩ := job
  obtain ⟨thread, body, ws, reply⟩ := c
  dsimp only at hattempt hserial ⊢
  cases hattempt with
  | @deposit walletId ownerId amount n attempt hn =>
    obtain ⟨reply, h⟩ := hserial.alone_of_ne (by simp)
    refine .command attempt reply ?_
    simp only [Command.program, executeMoneyCommand, hn]
    exact alone_retrying h
  | @withdraw walletId ownerId amount n attempt hn =>
    obtain ⟨reply, h⟩ := hserial.alone_of_ne (by simp)
    refine .command attempt reply ?_
    simp only [Command.program, executeMoneyCommand, hn]
    exact alone_retrying h
  | @hold _ walletId ownerId holdId operation amountMinor allow attempt hruns =>
    cases hruns with
    | @place _ amount n hplaces hn =>
      cases hplaces with
      | placeHold =>
        obtain ⟨reply, h⟩ := hserial.alone_of_ne (by simp)
        refine .command attempt reply ?_
        simp only [Command.program, Ledger.placeHold, hn]
        exact alone_retrying h
      | placeTransferHold =>
        obtain ⟨reply, h⟩ := hserial.alone_of_ne (by simp)
        refine .command attempt reply ?_
        simp only [Command.program, Ledger.placeTransferHold, Ledger.placeHold, hn]
        exact alone_retrying h
    | release hreleases =>
      cases hreleases with
      | releaseHold =>
        obtain ⟨reply, h⟩ := hserial.alone_of_ne (by simp)
        refine .command attempt reply ?_
        simp only [Command.program, Ledger.releaseHold, executeHoldCommand]
        exact alone_retrying h
      | releaseTransferHold =>
        rcases hserial with ⟨rfl, -⟩ | ⟨reply, h⟩
        · exact .missing rfl rfl
        · exact .transaction (.inr ⟨_, _, rfl⟩) h
    | consume =>
      obtain ⟨reply, h⟩ := hserial.alone_of_ne (by simp)
      refine .command attempt reply ?_
      simp only [Command.program, Ledger.consumeHold, executeHoldCommand]
      exact alone_retrying h
  | create hcreates =>
    rcases hserial with ⟨-, t, dto, rfl⟩ | ⟨reply, h⟩
    · cases hcreates
    · exact .transaction (.inl hcreates) h
  | @settle transferId dto n d attempt hn hd =>
    obtain ⟨reply, h⟩ := hserial.alone_of_ne (by simp)
    obtain ⟨reply', h'⟩ := alone_settleTransfer (onlyAttempt draw attempt) hc hn hd h
    exact .command attempt reply' h'

/-- A command that places a hold is covered when the hold is new. -/
lemma Command.Places.affordable {command : Command} {walletId ownerId holdId : String} {amount : ℚ}
    (hplaces : command.Places walletId ownerId holdId amount)
    (h : db.hold walletId holdId = none → Covered db walletId amount) : Affordable db command := by
  cases hplaces <;> exact h

lemma Command.Releases.affordable {command : Command} {walletId ownerId holdId : String}
    {allow : Bool} (h : command.Releases walletId ownerId holdId allow) : Affordable db command := by
  cases h <;> trivial

/-- A committed withdrawal or new hold is covered by the funds that were available then. -/
lemma Effect.affordable {draw : Nat → Draw} {startDb : Database} {command : Command}
    {ws : List Write} (h : Effect draw startDb db command ws) : Affordable db command := by
  cases h with
  | noop hdone =>
    cases hdone with
    | created hcreates => cases hcreates <;> trivial
    | placed hplaces hhold => exact hplaces.affordable fun hnone => by cases hhold.symm.trans hnone
    | released hreleases => exact hreleases.affordable
    | consumed => trivial
    | settled => trivial
  | created hcreates => cases hcreates <;> trivial
  | recorded hdecides hrecorded =>
    obtain ⟨change, hmade, -, -, hmakes⟩ := hdecides.makes hrecorded
    have hallowed := hmakes.allowed
    have hrehydrated := hmakes.recorded.rehydrated
    cases hmade with
    | deposited => trivial
    | withdrawn hn => exact ⟨_, _, hn, hrehydrated, hallowed⟩
    | held hplaces hn =>
      exact hplaces.affordable fun _ => ⟨_, _, hn, hrehydrated, hallowed.2⟩
    | released hreleases => exact hreleases.affordable
    | consumed => trivial
  | settled => trivial

end Commit

/-! ### Runs -/

/-- The deposit with this event id and amount is in the wallet's stream. -/
def HasDeposit (db : Database) (walletId eventId : String) (amountMinor : Int) : Prop :=
  ∃ e ∈ db.stream walletId, e.eventId = eventId ∧ e.eventType = MONEY_DEPOSITED ∧
    ownPostings walletId e = [amountMinor]

/-- The committed tables of a state as a serial execution of its commands. -/
structure Serialized (users : List User) (s : LedgerSys) : Prop where
  /-- The tables result from executing the committed commands one at a time. -/
  serial : Serially s.world.jobs (Database.initial users) s.world.log s.world.db
  /-- No command commits twice. -/
  once : (s.world.log.map (·.thread)).Nodup
  /-- No committed deposit is lost. -/
  deposits : ∀ c ∈ s.world.log, ∀ job, s.world.jobs c.thread = some job →
    ∀ walletId ownerId amount, job.command = .deposit walletId ownerId amount →
      ∃ n, toMinorUnits "Сума повинна бути додатною" amount = .ok n ∧
        HasDeposit s.world.db walletId (job.draw 0).eventId n
  /-- A command that failed is not among the committed ones. -/
  failed : ∀ i job e, s.world.jobs i = some job → s.threads i = .run (.done (.error e)) →
    (∀ dto, job.command ≠ .validateTransfer dto) → ¬ s.world.Committed i
  /-- A command that succeeded is, or is a settlement that found its receipt. -/
  succeeded : ∀ i job reply, s.world.jobs i = some job →
    s.threads i = .run (.done (.ok reply)) → match job.command with
    | .getOrCreateForUser _ _ | .validateTransfer _ | .releaseTransferHold _ _ => True
    | .settleTransfer transferId dto => s.world.Committed i ∨
        ∃ receipt ∈ s.world.db.settlements, receipt.transferId = transferId ∧ dto.Matches receipt
    | _ => s.world.Committed i

lemma Serially.congr {jobs jobs' : Nat → Option Job} {start db : Database}
    {log : List LedgerCommit} (h : Serially jobs start log db)
    (hjobs : ∀ c ∈ log, jobs' c.thread = jobs c.thread) : Serially jobs' start log db := by
  induction h with
  | nil => exact .nil
  | snoc _ hjob haff hexec ih =>
    refine .snoc (ih fun c hc => hjobs c (by simp [hc])) ?_ haff hexec
    rw [hjobs _ (by simp), hjob]

/-- A deposit that is there stays. -/
lemma HasDeposit.grows {db db' : Database} {locked : List Lock} {walletId eventId : String} {n : Int}
    (h : HasDeposit db walletId eventId n) (hg : db.Grows locked db') :
    HasDeposit db' walletId eventId n := by
  obtain ⟨e, he, hrest⟩ := h
  exact ⟨e, (hg.stream walletId).subset he, hrest⟩

/-- The commit of a deposit adds its event. -/
lemma Effect.hasDeposit {draw : Nat → Draw} {startDb db : Database} {walletId ownerId : String}
    {amount : ℚ} {ws : List Write}
    (h : Effect draw startDb db (.deposit walletId ownerId amount) ws) :
    ∃ n, toMinorUnits "Сума повинна бути додатною" amount = .ok n ∧
      HasDeposit (view db ws) walletId (draw 0).eventId n := by
  generalize hcommand : Command.deposit walletId ownerId amount = command at h
  cases h with
  | noop hdone =>
    subst hcommand
    cases hdone with
    | created hcreates => cases hcreates
    | placed hplaces => cases hplaces
    | released hreleases => cases hreleases
  | created hcreates =>
    subst hcommand
    cases hcreates
  | @recorded _ wallet a a' event now carrier hdecides hrecorded =>
    obtain ⟨change, hmade, rfl, rfl, hmakes⟩ := hdecides.makes hrecorded
    subst hcommand
    cases hmade with
    | @deposited _ n hn =>
      refine ⟨n, hn, nextEvent wallet.id a.version
        ((Change.deposited n (draw 0).transactionId).event wallet.id (draw 0).eventId) now,
        ?_, rfl, rfl, ownPostings_change _ _ _ _⟩
      rw [stream_records hmakes.recorded.streamId, if_pos rfl]
      exact List.mem_append_right _ (List.mem_singleton_self _)
    | held hplaces => cases hplaces
    | released hreleases => cases hreleases
  | settled => cases hcommand

/-- For every run of any commands: the committed tables are those that the committed commands leave
when they are executed one at a time in commit order, every withdrawal and new hold being covered by
the funds available at its place; commands that failed are not among them; and every deposit that
was committed is in its stream. -/
theorem ledger_serializable (setting : Setting) (users : List User) (s : LedgerSys)
    (hs : Reaches (ledger setting) (Sys.init (.initial users)) s) : Serialized users s := by
  have hok := reaches_ok hs
  have hinit : (Sys.init (.initial users) : LedgerSys).Ok (ledger setting) (ledgerProtocol setting) :=
    reaches_ok .refl
  refine ⟨?serial, ?once, ?deposits, ?failed, ?succeeded⟩
  case serial =>
    refine reaches_invariant (P := fun w => Serially w.jobs (Database.initial users) w.log w.db)
      hinit .nil ?_ ?_ hs
    · intro w c job hinv hw _ hjob _ hattempt heffect hserial
      exact hw.snoc hjob heffect.affordable (executes_of_effect hinv.1 hattempt hserial)
    · intro w i command draw hinv hw hnone _
      exact hw.congr fun c hc => jobs_start hinv hnone hc
  case once =>
    refine reaches_invariant (P := fun w => (w.log.map (·.thread)).Nodup) hinit List.nodup_nil
      ?_ ?_ hs
    · intro w c job _ hw _ _ hcom _ _ _
      change ((w.log ++ [c]).map _).Nodup
      rw [List.map_append, List.map_singleton, ← List.concat_eq_append]
      refine hw.concat fun hmem => hcom ?_
      obtain ⟨c', hc', hthread⟩ := List.mem_map.mp hmem
      exact ⟨c', hc', hthread⟩
    · exact fun _ _ _ _ _ hw _ _ => hw
  case deposits =>
    refine reaches_invariant (P := fun w => ∀ c ∈ w.log, ∀ job, w.jobs c.thread = some job →
      ∀ walletId ownerId amount, job.command = .deposit walletId ownerId amount →
        ∃ n, toMinorUnits "Сума повинна бути додатною" amount = .ok n ∧
          HasDeposit w.db walletId (job.draw 0).eventId n) hinit (by simp [Sys.init, LedgerWorld.initial])
      ?_ ?_ hs
    · intro w c job _ hw _ hjob _ _ heffect _ c' hc' job' hjob' walletId ownerId amount hcommand
      rcases List.mem_append.mp hc' with hc' | hc'
      · obtain ⟨n, hn, hdeposit⟩ := hw c' hc' job' hjob' walletId ownerId amount hcommand
        exact ⟨n, hn, hdeposit.grows (.of_writes w.db c.writes)⟩
      · obtain rfl := List.mem_singleton.mp hc'
        obtain rfl : job' = job := Option.some.inj (hjob'.symm.trans hjob)
        exact (hcommand ▸ heffect).hasDeposit
    · intro w i command draw hinv hw hnone _ c hc job hjob
      exact hw c hc job ((jobs_start hinv hnone hc).symm.trans hjob)
  case failed =>
    intro i job e hjob hthread hne
    exact (hok.post hthread job hjob).error e rfl hne
  case succeeded =>
    intro i job reply hjob hthread
    have hanswers := (hok.post hthread job hjob).ok reply rfl
    revert hanswers
    unfold Answers
    cases job.command with
    | settleTransfer transferId dto => exact fun h => .inr h.2
    | placeTransferHold transferId dto => exact fun h => h.1
    | getOrCreateForUser userId currency => exact fun _ => trivial
    | validateTransfer dto => exact fun _ => trivial
    | releaseTransferHold transferId dto => exact fun _ => trivial
    | _ => exact id

/-! ### Serial runs -/

/-- Commands with what they draw from outside. -/
abbrev Request := Command × (Nat → Draw)

/-- The state after the commands were served one after another by the threads `i`, `i + 1`, … -/
def serveAll (setting : Setting) (s : LedgerSys) (i : Nat) : List Request → LedgerSys
  | [] => s
  | (command, draw) :: requests =>
    serveAll setting
      (s.serve (ledger setting) 60 i (command.program draw) (s.world.start i command draw)) (i + 1)
      requests

/-- No thread from `i` on has started. -/
def IdleFrom (s : LedgerSys) (i : Nat) : Prop :=
  ∀ j, i ≤ j → s.threads j = .idle ∧ s.world.jobs j = none

/-- Serving commands one after another is a run of the ledger. -/
lemma reaches_serveAll {setting : Setting} {requests : List Request} {s : LedgerSys} {i : Nat}
    (huuid : ∀ request ∈ requests, ∀ n, setting.uuid (request.2 n).transactionId)
    (hadm : ∀ request ∈ requests, ∀ w c job, w.jobs c.thread = some job →
      job.command = request.1 → setting.admits w c)
    (hq : s.Quiet) (hidle : IdleFrom s i) :
    Reaches (ledger setting) s (serveAll setting s i requests) ∧
      (serveAll setting s i requests).Quiet ∧
      IdleFrom (serveAll setting s i requests) (i + requests.length) := by
  induction requests generalizing s i with
  | nil => exact ⟨.refl, hq, hidle⟩
  | cons request requests ih =>
    obtain ⟨command, draw⟩ := request
    have hjobs : ∀ (w : LedgerWorld) (c : LedgerCommit),
        w.jobs = (s.world.start i command draw).jobs → c.thread = i →
        ((ledger setting).commit w c).jobs = (s.world.start i command draw).jobs :=
      fun _ _ h _ => h
    have hserved := hq.serve (ledger setting) 60 i (command.program draw)
      (s.world.start i command draw)
      (Prog.admitted_of_invariant
        (I := fun w : LedgerWorld => w.jobs = (s.world.start i command draw).jobs) hjobs
        (fun w c hw hc => hadm (command, draw) (by simp) w c ⟨command, draw, s.world.db⟩
          (by rw [hw, hc]; simp [LedgerWorld.start]) rfl) 60 rfl _)
      (hidle i le_rfl).1
      ⟨(hidle i le_rfl).2, command, draw, huuid (command, draw) (by simp), rfl, rfl⟩
    have hidle' : IdleFrom (s.serve (ledger setting) 60 i (command.program draw)
        (s.world.start i command draw)) (i + 1) := by
      intro j hj
      have hne : j ≠ i := by omega
      refine ⟨(Sys.set_threads_ne s hne _ _).trans (hidle j (by omega)).1, ?_⟩
      have hdrive := Prog.drive_invariant
        (I := fun w : LedgerWorld => w.jobs = (s.world.start i command draw).jobs) hjobs 60 rfl
        (command.program draw)
      change ((command.program draw).drive (ledger setting) i 60 _).1.jobs j = none
      rw [hdrive]
      exact (Function.update_of_ne hne _ _).trans (hidle j (by omega)).2
    obtain ⟨hrest, hquiet, hfresh⟩ := ih
      (fun request hrequest => huuid request (by simp [hrequest]))
      (fun request hrequest => hadm request (by simp [hrequest])) hserved.2 hidle'
    refine ⟨hserved.1.trans hrest, hquiet, ?_⟩
    rw [List.length_cons, Nat.add_comm requests.length, ← Nat.add_assoc]
    exact hfresh

/-- A ledger without failing statements. -/
def openLedger (uuid : String → Prop) : Setting :=
  { fails := fun _ => False, uuid, admits := fun _ _ => True }

/-- The draws of a request, named after it. -/
def drawFor (name : String) (attempt : Nat) : Draw :=
  { eventId := name ++ "-event-" ++ toString attempt,
    creditEventId := name ++ "-credit-" ++ toString attempt,
    transactionId := name ++ "-transaction", walletId := uuid (name ++ "-wallet"),
    walletId_uuid := uuid_uuid _, now := 0,
    lower := fun text => String.ofList (text.toList.map Char.toLower),
    carrier := { traceId := none, traceparent := none, tracestate := none } }

/-- The state after the requests were served one after another, from the start. -/
def servedBy (setting : Setting) (users : List User) (requests : List Request) : LedgerSys :=
  serveAll setting (Sys.init (.initial users)) 0 requests

/-- Serving commands from the start reaches its state. -/
lemma reaches_servedBy {setting : Setting} {users : List User} {requests : List Request}
    (huuid : ∀ request ∈ requests, ∀ n, setting.uuid (request.2 n).transactionId)
    (hadm : ∀ request ∈ requests, ∀ w c job, w.jobs c.thread = some job →
      job.command = request.1 → setting.admits w c) :
    Reaches (ledger setting) (Sys.init (.initial users)) (servedBy setting users requests) :=
  (reaches_serveAll huuid hadm (.init _) fun _ _ => ⟨rfl, rfl⟩).1

/-- Ann opens a wallet, deposits, withdraws, and tries to withdraw more than she has left. -/
def annRequests : List Request :=
  [(.getOrCreateForUser "ann" "USD", drawFor "open"),
    (.deposit "open-wallet" "ann" 10, drawFor "pay-in"),
    (.withdraw "open-wallet" "ann" 4, drawFor "pay-out"),
    (.withdraw "open-wallet" "ann" 7, drawFor "too-much")]

theorem ledger_serializable_ann :
    (servedBy (openLedger fun _ => True) [⟨"ann", "ann@example.com"⟩] annRequests).world.log.map
      (·.thread) = [0, 1, 2] ∧
    Serialized [⟨"ann", "ann@example.com"⟩]
      (servedBy (openLedger fun _ => True) [⟨"ann", "ann@example.com"⟩] annRequests) :=
  ⟨by decide +kernel, ledger_serializable (openLedger fun _ => True) _ _
    (reaches_servedBy (fun _ _ _ => trivial) fun _ _ _ _ _ _ _ => trivial)⟩

/-! ### Committed tables -/

/-- The only row with its key. -/
lemma filter_key_eq_singleton {α β : Type} [DecidableEq β] {f : α → β} {rows : List α} {row : α}
    (hnodup : (rows.map f).Nodup) (hrow : row ∈ rows) :
    rows.filter (fun other => f other = f row) = [row] := by
  induction rows with
  | nil => cases hrow
  | cons other rows ih =>
    rw [List.map_cons, List.nodup_cons] at hnodup
    rcases List.mem_cons.mp hrow with rfl | hrow
    · have hrest : rows.filter (fun other => f other = f row) = [] :=
        List.filter_eq_nil_iff.mpr fun other hother hkey =>
          hnodup.1 (List.mem_map.mpr ⟨other, hother, by simpa using hkey⟩)
      simp [hrest]
    · have hne : f other ≠ f row := fun h => hnodup.1 (List.mem_map.mpr ⟨row, hrow, h.symm⟩)
      simp [hne, ih hnodup.2 hrow]

/-- The committed tables of a state, and what the commands that threw have to do with them. -/
structure CommittedTables (users : List User) (s : LedgerSys) : Prop where
  /-- Every wallet has exactly one projection row, which is that of the replayed stream. -/
  projected : ∀ wallet ∈ s.world.db.wallets, ∃ a,
    rehydrate wallet.id (s.world.db.stream wallet.id) = .ok a ∧
    s.world.db.projections.filter (fun row => row.walletId = wallet.id) =
      [{ walletId := wallet.id, balanceMinor := a.balanceMinor, heldMinor := a.heldMinor,
         availableMinor := a.availableMinor, streamVersion := a.version }]
  /-- The outbox has the ids of the events. -/
  outbox : s.world.db.outbox.map (·.eventId) = s.world.db.events.map (·.eventId)
  /-- All rows come from the commits. -/
  written : s.world.db = view (Database.initial users) (s.world.log.flatMap (·.writes))
  /-- A command that threw has no commit. -/
  thrown : ∀ i job e, s.world.jobs i = some job → s.threads i = .run (.done (.error e)) →
    (∀ dto, job.command ≠ .validateTransfer dto) → ∀ c ∈ s.world.log, c.thread ≠ i

/-- In every reachable state, whatever failed on the way: the projections are those of the replayed
streams, one for each wallet; every event has its outbox message and every message its event; and
the tables hold exactly what the commits of commands that did not throw have written. -/
theorem ledger_tables_consistent (setting : Setting) (users : List User) (s : LedgerSys)
    (hs : Reaches (ledger setting) (Sys.init (.initial users)) s) : CommittedTables users s := by
  have hok := reaches_ok hs
  have hinit : (Sys.init (.initial users) : LedgerSys).Ok (ledger setting) (ledgerProtocol setting) :=
    reaches_ok .refl
  have hc : Consistent s.world.db := hok.inv.1
  refine ⟨fun wallet hwallet => ?_, hc.outbox, ?_, fun i job e hjob hthread hne c hcommit hi => ?_⟩
  · obtain ⟨a, ha, -, -, hmem⟩ := hc.aggregate wallet hwallet
    refine ⟨a, ha, ?_⟩
    have hid : (projectionFromAggregate a).walletId = wallet.id := (rehydrate_replayed ha).id
    have hrow := filter_key_eq_singleton (hc.projected ▸ hc.walletIds) hmem
    rw [hid] at hrow
    rw [hrow]
    simp only [projectionFromAggregate, (rehydrate_replayed ha).id]
  · refine reaches_invariant
      (P := fun w => w.db = view (Database.initial users) (w.log.flatMap (·.writes))) hinit rfl
      ?_ (fun _ _ _ _ _ hw _ _ => hw) hs
    intro w c job _ hw _ _ _ _ _ _
    change view w.db c.writes = view _ ((w.log ++ [c]).flatMap _)
    rw [List.flatMap_append, List.flatMap_singleton, view_append, ← hw]
  · exact (hok.post hthread job hjob).error e rfl hne ⟨c, hcommit, hi⟩

theorem ledger_tables_consistent_ann :
    (servedBy (openLedger fun _ => True) [⟨"ann", "ann@example.com"⟩]
      annRequests).world.db.projections = [⟨"open-wallet", 600, 0, 600, 3⟩] ∧
    CommittedTables [⟨"ann", "ann@example.com"⟩]
      (servedBy (openLedger fun _ => True) [⟨"ann", "ann@example.com"⟩] annRequests) :=
  ⟨by decide +kernel, ledger_tables_consistent (openLedger fun _ => True) _ _
    (reaches_servedBy (fun _ _ _ => trivial) fun _ _ _ _ _ _ _ => trivial)⟩

end Ledger

end PeerLedger
