import PeerLedger.Transactions.RelyGuarantee
import PeerLedger.Ledger.Consistency

/-!
# The ledger as a concurrent service

Any number of threads run wallet commands, one each.  The world of the service is its database
together with what a reader of a run wants to refer to: the commits so far, and for every started
thread its command, what the command drew from outside, and the contents at its start.

`ledgerProtocol` is what the commands owe each other.  Its guarantee says of every commit that it
has an `Effect`, and that running its transaction alone at that moment would have made the same
writes.
-/

namespace PeerLedger

namespace Ledger

open Transactions WalletAggregate

/-- A command that was started. -/
structure Job where
  command : Command
  draw : Nat → Draw
  /-- The committed contents when the command was started. -/
  startDb : Database

/-- A commit of the ledger. -/
abbrev LedgerCommit := Commit Nat Database Write LedgerError Reply

/-- The database, the commits so far, and the command of every started thread. -/
structure LedgerWorld where
  db : Database
  log : List LedgerCommit
  jobs : Nat → Option Job

/-- The surroundings of the service. -/
structure Setting where
  /-- The errors that a statement may throw at any time. -/
  fails : LedgerError → Prop
  /-- The values that `randomUUID()` can return for a ledger transaction. -/
  uuid : String → Prop
  /-- A restriction on the commits of a run. -/
  admits : LedgerWorld → LedgerCommit → Prop

/-- The world before any command. -/
def LedgerWorld.initial (users : List User) : LedgerWorld :=
  { db := Database.initial users, log := [], jobs := fun _ => none }

/-- The world after a thread has started a command. -/
def LedgerWorld.start (w : LedgerWorld) (i : Nat) (command : Command) (draw : Nat → Draw) :
    LedgerWorld :=
  { w with jobs := Function.update w.jobs i (some ⟨command, draw, w.db⟩) }

/-- The ledger service. -/
def ledger (setting : Setting) :
    Service Nat LedgerWorld Database Write LedgerError Reply Empty Empty Unit Reply where
  db w := w.db
  commit w c := { w with db := view w.db c.writes, log := w.log ++ [c] }
  admits w _ c := setting.admits w c
  fails := setting.fails
  issue _ _ q _ _ := nomatch q
  answer _ _ q _ _ := nomatch q
  starts w i program w' := w.jobs i = none ∧ ∃ command draw,
    (∀ n, setting.uuid (draw n).transactionId) ∧ program = command.program draw ∧
    w' = w.start i command draw
  env _ _ := False

/-- A state of the ledger and its clients. -/
abbrev LedgerSys := Sys Nat LedgerWorld Database Write LedgerError Reply Empty Empty Unit Reply

/-- Thread `i` has committed. -/
def LedgerWorld.Committed (w : LedgerWorld) (i : Nat) : Prop := ∃ c ∈ w.log, c.thread = i

/-- What a command that returned has established. -/
def Answers (job : Job) (w : LedgerWorld) (i : Nat) (reply : Reply) : Prop :=
  match job.command with
  | .getOrCreateForUser _ _ => True
  | .deposit _ _ _ => w.Committed i
  | .withdraw _ _ _ => w.Committed i
  | .placeHold _ _ _ _ => w.Committed i
  | .releaseHold _ _ _ => w.Committed i
  | .consumeHold _ _ _ => w.Committed i
  | .validateTransfer _ => ∃ receiverWalletId, reply = .validated receiverWalletId
  | .placeTransferHold transferId dto => w.Committed i ∧
      ∃ hold, w.db.hold dto.senderWalletId transferId = some hold ∧
        toMinorUnits "Сума повинна бути додатною" dto.amount = .ok hold.amountMinor
  | .releaseTransferHold transferId dto =>
      (reply = .alreadySettled ∧ ∃ receipt ∈ w.db.settlements, receipt.transferId = transferId) ∨
      (reply = .released ∧ w.Committed i ∧
        ((∃ n, w.db.hold dto.senderWalletId transferId = some ⟨n, .released⟩) ∨
          job.startDb.hold dto.senderWalletId transferId = none))
  | .settleTransfer transferId dto => (∃ sender receiver, reply = .settled sender receiver) ∧
      ∃ receipt ∈ w.db.settlements, receipt.transferId = transferId ∧ dto.Matches receipt

/-- What holds when a command has ended: one that throws has committed nothing, a wallet that
`validateTransfer` created apart; one that returns has done its work; and a settlement that finds
its receipt commits nothing and throws only when the receipt differs or the database fails. -/
structure Outcome (setting : Setting) (job : Job) (w : LedgerWorld) (i : Nat)
    (r : Except LedgerError Reply) : Prop where
  error : ∀ e, r = .error e → (∀ dto, job.command ≠ .validateTransfer dto) → ¬ w.Committed i
  ok : ∀ reply, r = .ok reply → Answers job w i reply
  settled : ∀ transferId dto, job.command = .settleTransfer transferId dto →
    ∀ receipt ∈ job.startDb.settlements, receipt.transferId = transferId →
      ¬ w.Committed i ∧ ∀ e, r = .error e → dto.Matches receipt → setting.fails e

/-- The transaction would have made the same writes alone on `db`.  A release of a transfer that found
no hold is left out: it locks nothing, and the hold may have been placed since. -/
def Serial (command : Command) (db : Database) (body : LedgerTx Reply) (ws : List Write) : Prop :=
  (ws = [] ∧ ∃ transferId dto, command = .releaseTransferHold transferId dto) ∨
    ∃ reply, body.alone db [] = .ok (reply, ws)

/-- The commands that run `executeHoldCommand`, with its arguments. -/
inductive Command.RunsHold (walletId ownerId holdId : String) :
    Command → HoldOperation → Option Int → Bool → Prop
  | place {command amount n} : command.Places walletId ownerId holdId amount →
      toMinorUnits "Сума повинна бути додатною" amount = .ok n →
      RunsHold walletId ownerId holdId command .place (some n) false
  | release {command allow} : command.Releases walletId ownerId holdId allow →
      RunsHold walletId ownerId holdId command .release none allow
  | consume : RunsHold walletId ownerId holdId (.consumeHold walletId ownerId holdId) .consume none
      false

/-- The transactions that a command attempts. -/
inductive Command.Attempts (draw : Nat → Draw) : Command → LedgerTx Reply → Prop
  | deposit {walletId ownerId amount n attempt} :
      toMinorUnits "Сума повинна бути додатною" amount = .ok n →
      Attempts draw (.deposit walletId ownerId amount)
        (executeMoneyCommandAttempt walletId ownerId n .deposit (draw 0).eventId
          (draw 0).transactionId (draw attempt))
  | withdraw {walletId ownerId amount n attempt} :
      toMinorUnits "Сума повинна бути додатною" amount = .ok n →
      Attempts draw (.withdraw walletId ownerId amount)
        (executeMoneyCommandAttempt walletId ownerId n .withdraw (draw 0).eventId
          (draw 0).transactionId (draw attempt))
  | hold {command walletId ownerId holdId operation amountMinor allow attempt} :
      command.RunsHold walletId ownerId holdId operation amountMinor allow →
      Attempts draw command (executeHoldCommandAttempt walletId ownerId holdId operation amountMinor
        allow (draw 0).eventId (draw 0).transactionId (draw attempt))
  | create {command userId currency} : command.Creates →
      Attempts draw command (createWallet userId currency (draw 0))
  | settle {transferId dto n d attempt} : toPositiveMinorUnits dto.amount = .ok n →
      toPositiveMinorUnits (dto.destinationAmount.getD dto.amount) = .ok d →
      Attempts draw (.settleTransfer transferId dto)
        (settleTransferAttempt transferId dto n d (dto.targetCurrency.getD dto.currency)
          (draw attempt))

/-- What the commands owe each other. -/
def ledgerProtocol (setting : Setting) :
    Protocol Nat LedgerWorld Database Write LedgerError Reply Empty Reply where
  inv w := Consistent w.db ∧ (∀ c ∈ w.log, w.jobs c.thread ≠ none) ∧
    ∀ i job, w.jobs i = some job → Consistent job.startDb ∧ job.startDb.Grows [] w.db ∧
      ∀ n, setting.uuid (job.draw n).transactionId
  guar w c := ∃ job, w.jobs c.thread = some job ∧ ¬ w.Committed c.thread ∧
    job.command.Attempts job.draw c.body ∧
    Effect job.draw job.startDb w.db job.command c.writes ∧
    Serial job.command w.db c.body c.writes
  callOk _ _ _ := True
  post w i r := ∀ job, w.jobs i = some job → Outcome setting job w i r

variable {setting : Setting} {i : Nat} {p : List Write} {w w' : LedgerWorld} {job : Job}

lemma ledger_appends : Appends (ledger setting) (ledgerProtocol setting) where
  db_commit _ _ := rfl
  db_env _ _ h := h.elim
  db_issue _ _ q := nomatch q
  db_start _ _ _ _ h := by
    obtain ⟨-, command, draw, -, -, rfl⟩ := h
    rfl
  gapFree _ h := h.1.gapFree

/-! ### Holds that are there stay -/

lemma Consistent.rehydrate_ok {db : Database} (h : Consistent db) (walletId : String) :
    ∃ a, rehydrate walletId (db.stream walletId) = .ok a := by
  by_cases hw : ∃ wallet ∈ db.wallets, wallet.id = walletId
  · obtain ⟨wallet, hmem, rfl⟩ := hw
    obtain ⟨a, ha, -⟩ := h.aggregate wallet hmem
    exact ⟨a, ha⟩
  · have hnil : db.stream walletId = [] := by
      refine List.filter_eq_nil_iff.mpr fun e he hs => hw ?_
      obtain ⟨wallet, hmem, hid⟩ := h.streams e he
      exact ⟨wallet, hmem, hid.trans (by simpa using hs)⟩
    exact ⟨empty walletId, by rw [hnil]; rfl⟩

/-- The life of a hold, as its events tell it. -/
lemma Consistent.hold_actions {db : Database} (h : Consistent db) (walletId holdId : String) :
    HoldState.actions (db.hold walletId holdId) =
      holdActions holdId (holdLog (db.stream walletId)) := by
  obtain ⟨a, ha⟩ := h.rehydrate_ok walletId
  rw [Database.hold_of_rehydrate ha, (rehydrate_replayed ha).actions]

/-- A hold keeps its amount, and one that is released or consumed does not change again. -/
lemma Consistent.hold_grows {db db' : Database} {locked : List Lock} {walletId holdId : String}
    {hold : HoldState} (h : Consistent db) (h' : Consistent db') (hg : db.Grows locked db')
    (hh : db.hold walletId holdId = some hold) :
    ∃ hold', db'.hold walletId holdId = some hold' ∧ hold'.amountMinor = hold.amountMinor ∧
      (hold.status ≠ .active → hold' = hold) := by
  obtain ⟨more, hmore⟩ := hg.stream walletId
  have hpre : HoldState.actions (db.hold walletId holdId) <+:
      HoldState.actions (db'.hold walletId holdId) := by
    rw [h.hold_actions, h'.hold_actions, ← hmore]
    exact ⟨holdActions holdId (holdLog more), by simp [holdLog, holdActions]⟩
  rw [hh] at hpre
  rcases hold with ⟨n, _ | _ | _⟩ <;> rcases hd : db'.hold walletId holdId with _ | ⟨m, _ | _ | _⟩ <;>
    simp_all [HoldState.actions, List.cons_prefix_cons]

/-- A hold that is missing was always missing. -/
lemma Consistent.hold_none {db db' : Database} {locked : List Lock} {walletId holdId : String}
    (h : Consistent db) (h' : Consistent db') (hg : db.Grows locked db')
    (hh : db'.hold walletId holdId = none) : db.hold walletId holdId = none := by
  cases hd : db.hold walletId holdId with
  | none => rfl
  | some hold =>
    obtain ⟨hold', hold'_eq, -⟩ := h.hold_grows h' hg hd
    rw [hh] at hold'_eq
    cases hold'_eq

/-! ### A thread that has not committed yet -/

/-- Thread `i` runs `job` and has not committed. -/
structure Running (setting : Setting) (w : LedgerWorld) (i : Nat) (job : Job) : Prop where
  inv : (ledgerProtocol setting).inv w
  job_eq : w.jobs i = some job
  uncommitted : ¬ w.Committed i

lemma Running.consistent (h : Running setting w i job) : Consistent w.db := h.inv.1

lemma Running.start_consistent (h : Running setting w i job) : Consistent job.startDb :=
  (h.inv.2.2 i job h.job_eq).1

lemma Running.start_grows (h : Running setting w i job) : job.startDb.Grows [] w.db :=
  (h.inv.2.2 i job h.job_eq).2.1

/-- Interference leaves the commits of a thread alone. -/
lemma later_committed (h : Later (ledger setting) (ledgerProtocol setting) i p w w') :
    w'.Committed i ↔ w.Committed i := by
  refine Later.rel (R := fun w w' : LedgerWorld => w'.Committed i ↔ w.Committed i)
    (fun _ => Iff.rfl) (fun _ _ _ hab hbc => hbc.trans hab) (fun a b hab => ?_) h
  cases hab with
  | env _ he => exact he.elim
  | @commit c _ _ hne _ _ _ _ =>
    simp only [LedgerWorld.Committed, ledger, List.mem_append, List.mem_singleton]
    constructor
    · rintro ⟨c', hc' | rfl, hi⟩
      · exact ⟨c', hc', hi⟩
      · exact absurd hi hne
    · rintro ⟨c', hc', hi⟩
      exact ⟨c', .inl hc', hi⟩
  | @issue _ _ _ q => exact nomatch q
  | start _ hne hs =>
    obtain ⟨-, command, draw, -, -, rfl⟩ := hs
    exact Iff.rfl

/-- Interference leaves the job of a started thread alone. -/
lemma later_jobs (h : Later (ledger setting) (ledgerProtocol setting) i p w w') :
    w.jobs i ≠ none → w'.jobs i = w.jobs i := by
  refine Later.rel (R := fun w w' : LedgerWorld => w.jobs i ≠ none → w'.jobs i = w.jobs i)
    (fun _ _ => rfl) (fun _ _ _ hab hbc ha => ?_) (fun a b hab => ?_) h
  · exact (hbc (hab ha ▸ ha)).trans (hab ha)
  cases hab with
  | env _ he => exact he.elim
  | commit => exact fun _ => rfl
  | @issue _ _ _ q => exact nomatch q
  | start _ hne hs =>
    obtain ⟨-, command, draw, -, -, rfl⟩ := hs
    exact fun _ => Function.update_of_ne hne.symm _ _

lemma Running.later (h : Running setting w i job)
    (hw : Later (ledger setting) (ledgerProtocol setting) i p w w') : Running setting w' i job :=
  ⟨hw.inv, (later_jobs hw (by simp [h.job_eq])).trans h.job_eq,
    fun hc => h.uncommitted ((later_committed hw).mp hc)⟩

end Ledger

end PeerLedger
