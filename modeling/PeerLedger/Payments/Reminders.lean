import PeerLedger.Transactions.Embedding
import PeerLedger.Payments.LostLeases

/-!
# Reminders of overdue shares

`detectAndEnqueue` of `split-bill-reminder.service.ts`: one transaction looks for the shares that are
past their deadline and not paid for, and gives each of them a row of `split_bill_reminders` and a
message in the outbox.  Scans run beside each other and beside all programs of the payments service,
which work on their part of the tables (`paymentsPart`).

`one_reminder_per_share` says what holds of every run: a share never gets a second reminder, reminders
and messages come in pairs, and every reminder was due when its scan looked.
-/

namespace PeerLedger

namespace Payments

open Transactions

/-! ### Tables -/

/-- A row of `split_bill_reminders`. -/
structure SplitBillReminder where
  id : String
  shareId : String
  kind : String
  eventId : String
deriving DecidableEq

/-- The tables of the payments service, with the reminders. -/
structure ReminderTables where
  payments : Database
  reminders : List SplitBillReminder

/-- The writes of scans and of the other transactions. -/
inductive ReminderWrite where
  | payments (write : Write)
  /-- `FOR UPDATE` of the row of a share. -/
  | lockShare (shareId : String)
  | insertReminder (row : SplitBillReminder)

/-- What an uncommitted write occupies. -/
inductive ReminderLock where
  | payments (lock : Lock)
  /-- The row of a share. -/
  | shareRow (shareId : String)
  | reminderId (id : String)
  | shareKind (shareId kind : String)
  | reminderEvent (eventId : String)
deriving DecidableEq

/-- The contents after a write. -/
def ReminderTables.apply (db : ReminderTables) : ReminderWrite → ReminderTables
  | .payments write => { db with payments := db.payments.apply write }
  | .lockShare _ => db
  | .insertReminder row => { db with reminders := db.reminders ++ [row] }

/-- The shares whose rows the foreign keys of a write lock. -/
def Write.referencedShares : Write → List String
  | .insertTransfer row => row.splitBillShareId.toList
  | _ => []

/-- The unique index entries and rows of a write. -/
def ReminderWrite.locks : ReminderWrite → List ReminderLock
  | .payments write =>
    write.locks.map .payments ++ write.referencedShares.map .shareRow
  | .lockShare shareId => [.shareRow shareId]
  | .insertReminder row =>
    [.reminderId row.id, .shareKind row.shareId row.kind, .reminderEvent row.eventId]

instance : Store ReminderTables ReminderWrite ReminderLock where
  apply := ReminderTables.apply
  locks := ReminderWrite.locks

/-- The tables that the other programs of the payments service work on. -/
def paymentsPart : Embedding Database Write Lock ReminderTables ReminderWrite ReminderLock where
  part db := db.payments
  write := .payments
  part_apply _ _ := rfl

/-! ### Statements -/

/-- The transactions over the tables and the reminders. -/
abbrev ReminderTx := Tx ReminderTables ReminderWrite PaymentsError

/-- The programs over them. -/
abbrev ReminderProg := Prog ReminderTables ReminderWrite PaymentsError Reply Ask Answer

/-- The right side of a `LEFT JOIN`. -/
def leftJoin {α : Type} : List α → List (Option α)
  | [] => [none]
  | rows => rows.map some

/-- `b.deadline IS NOT NULL AND b.deadline <= $1`. -/
def SplitBill.isOverdue (bill : SplitBill) (now : Int) : Bool := bill.deadline.any (· ≤ now)

/-- `t.id IS NULL OR t.status = $2`. -/
def isUnpaid (transfer : Option Transfer) : Bool := transfer.all (·.status = .failed)

namespace ReminderTables

/-- The rows of the join that the scan selects from, as far as they meet its condition. -/
def overdueShares (db : ReminderTables) (now : Int) : List (SplitBill × SplitBillShare) :=
  db.payments.shares.flatMap fun share =>
    (db.payments.bills.filter fun bill => bill.id = share.billId).flatMap fun bill =>
      (leftJoin (db.payments.transfers.filter fun row =>
          row.splitBillShareId = some share.id)).flatMap fun transfer =>
        (leftJoin (db.reminders.filter fun row =>
            row.shareId = share.id ∧ row.kind = "overdue")).flatMap fun reminder =>
          if bill.isOverdue now && isUnpaid transfer && reminder.isNone then [(bill, share)] else []

/-- The ids that the scan selects: in order of their deadlines, without the locked rows, at most
`limit` of them. -/
def candidates (db : ReminderTables) (now limit : Int) (skipLocked : String → Bool) :
    List String :=
  ((((db.overdueShares now).insertionSort fun a b =>
    a.1.deadline.getD 0 < b.1.deadline.getD 0 ∨
      (a.1.deadline.getD 0 = b.1.deadline.getD 0 ∧ a.2.id ≤ b.2.id)).map (·.2.id)).filter
    fun id => !skipLocked id).take limit.toNat

/-- `findOne` of a share with its bill. -/
def shareAndBill (db : ReminderTables) (id : String) :
    Option (SplitBillShare × Option SplitBill) :=
  (db.payments.shares.find? fun share => share.id = id).map fun share =>
    (share, db.payments.bills.find? fun bill => bill.id = share.billId)

/-- The share has a reminder of the kind. -/
def hasReminder (db : ReminderTables) (shareId kind : String) : Bool :=
  db.reminders.any fun row => row.shareId = shareId ∧ row.kind = kind

end ReminderTables

/-- `SELECT … FOR UPDATE OF s SKIP LOCKED LIMIT $3`. -/
def selectOverdue (now limit : Int) (skipLocked : String → Bool) : ReminderTx (List String) :=
  .stmt
    (fun db =>
      if limit < 0 then .error (.queryFailed "2201W" "LIMIT must not be negative")
      else .ok ((db.candidates now limit skipLocked).map .lockShare))
    fun db => .ret (db.candidates now limit skipLocked)

/-- `INSERT INTO split_bill_reminders … ON CONFLICT (share_id, kind) DO NOTHING RETURNING id`. -/
def insertReminder (row : SplitBillReminder) : ReminderTx (List String) :=
  .stmt
    (fun db =>
      if db.hasReminder row.shareId row.kind then .ok []
      else if db.reminders.any fun old => old.id = row.id then
        .error (.uniqueViolation "split_bill_reminders_pkey")
      else if db.reminders.any fun old => old.eventId = row.eventId then
        .error (.uniqueViolation "UQ_split_bill_reminder_event")
      else if db.payments.shares.any fun share => share.id = row.shareId then
        .ok [.insertReminder row]
      else .error (.queryFailed "23503" "insert violates foreign key constraint"))
    fun db => .ret (if db.hasReminder row.shareId row.kind then [] else [row.id])

/-- The message of an overdue share. -/
def overdueReminderMessage (isoString : Int → String) (bill : SplitBill) (share : SplitBillShare)
    (draw : MessageDraw) : PaymentOutboxMessage :=
  outboxMessage draw "payments.split-bill.ShareOverdue" "payments.split-bill.share-overdue.v1"
    "SplitBillShare" share.id 1 bill.id
    (.obj [("ownerId", .str share.participantUserId), ("splitBillId", .str bill.id),
      ("shareId", .str share.id), ("amountMinor", .str (toString share.amountMinor)),
      ("currency", .str bill.currency),
      ("deadline", (bill.deadline.map fun time => Json.str (isoString time)).getD .null)])

/-- `enqueueOverdueReminder`; a relation that was not found is `null`. -/
def enqueueOverdueReminder (isoString : Int → String) (bill : Option SplitBill)
    (share : SplitBillShare) (draw : MessageDraw) : ReminderTx Unit :=
  match bill with
  | none => .abort (.error "Cannot read properties of null (reading 'id')")
  | some bill =>
    (Tx.write (insertOutbox (overdueReminderMessage isoString bill share draw))).embed paymentsPart

/-! ### Scans -/

/-- What a scan takes from outside. -/
structure ScanDraw where
  /-- The rows that other transactions have locked when the scan looks: all of them, since it waits
  for none, and possibly more. -/
  skipLocked : String → Bool
  /-- `randomUUID()` for the reminder of a candidate. -/
  reminderIds : Nat → String
  /-- `randomUUID()` for its event, with the time and the trace of its message. -/
  messages : Nat → MessageDraw

/-- The loop over the candidates from the one with number `n` on. -/
def remindEach (isoString : Int → String) (draw : ScanDraw) : Nat → Nat → List String → ReminderTx Nat
  | _, created, [] => return created
  | n, created, id :: ids => do
    match ← Tx.query fun db => db.shareAndBill id with
    | none => remindEach isoString draw (n + 1) created ids
    | some (share, bill) => do
      let inserted ← insertReminder
        { id := draw.reminderIds n, shareId := share.id, kind := "overdue",
          eventId := (draw.messages n).eventId }
      if inserted.length = 0 then remindEach isoString draw (n + 1) created ids
      else do
        enqueueOverdueReminder isoString bill share (draw.messages n)
        remindEach isoString draw (n + 1) (created + 1) ids

/-- The transaction of `detectAndEnqueue`. -/
def scanTransaction (config : Config) (now limit : Int) (draw : ScanDraw) : ReminderTx Reply := do
  let candidates ← selectOverdue now limit draw.skipLocked
  let created ← remindEach config.isoString draw 0 0 candidates
  return .affected created

/-- The number of rows that a transaction reports. -/
def Reply.count : Reply → Nat
  | .affected count => count
  | _ => 0

/-- A scan: it returns how many reminders it has created. -/
def detectAndEnqueue (config : Config) (now limit : Int) (draw : ScanDraw) : ReminderProg Result := do
  let reply ← Prog.run (scanTransaction config now limit draw)
  return .count reply.count

/-! ### All programs together -/

/-- What a thread does: a scan, or any program of the payments service. -/
inductive Duty where
  | scan (now limit : Int) (draw : ScanDraw)
  | serve (command : Command) (draw : Draw)

/-- The program of a duty; those of the payments service work on their tables. -/
def Duty.program (config : Config) : Duty → ReminderProg Result
  | .scan now limit draw => detectAndEnqueue config now limit draw
  | .serve command draw => (command.program config draw).embed paymentsPart

/-- A commit of a thread. -/
abbrev ReminderCommit := Commit Nat ReminderTables ReminderWrite PaymentsError Reply

/-- The tables, with the commits so far and the duties of the threads. -/
structure ReminderWorld where
  db : ReminderTables
  log : List ReminderCommit
  duties : Nat → Option Duty

/-- The world before any scan, with the tables as they are then. -/
def ReminderWorld.initial (tables : Database) : ReminderWorld :=
  { db := ⟨tables, []⟩, log := [], duties := fun _ => none }

/-- Scans, and programs of the payments service to which the ledger and the network answer anything.
Every statement may fail with any error. -/
def reminding (config : Config) :
    Service Nat ReminderWorld ReminderTables ReminderWrite PaymentsError Reply Ask Answer Unit
      Result where
  db w := w.db
  commit w c := { w with db := view w.db c.writes, log := w.log ++ [c] }
  admits _ _ _ := True
  fails _ := True
  issue w _ _ _ w' := w' = w
  answer _ _ _ _ _ := True
  starts w i program w' := w.duties i = none ∧ ∃ duty : Duty, program = duty.program config ∧
    w' = { w with duties := Function.update w.duties i (some duty) }
  env _ _ := False

/-- A state of the payments service with its scans. -/
abbrev ReminderSystem :=
  Sys Nat ReminderWorld ReminderTables ReminderWrite PaymentsError Reply Ask Answer Unit Result

/-! ### The other programs enqueue no reminders -/

/-- The message says that a share is overdue. -/
def PaymentOutboxMessage.isReminder (message : PaymentOutboxMessage) : Bool :=
  message.event.eventType = "payments.split-bill.ShareOverdue"

/-- The write enqueues such a message. -/
def Write.isReminder : Write → Bool
  | .insertOutbox message => message.isReminder
  | _ => false

/-- No message of an overdue share is written. -/
abbrev NoReminders : Database → List Write → Prop := fun _ ws => ∀ y ∈ ws, y.isReminder = false

section NoReminders

/-- A read writes nothing. -/
lemma noReminders_query {α : Type} (f : Database → α) :
    (Tx.query f : PaymentsTx α).Obeys NoReminders :=
  Tx.obeys_query f fun _ _ h => absurd h List.not_mem_nil

/-- The insert of another message. -/
lemma noReminders_insertOutbox {message : PaymentOutboxMessage} (h : message.isReminder = false) :
    (Tx.write (insertOutbox message) : PaymentsTx Unit).Obeys NoReminders := by
  refine Tx.obeys_write fun db ws hws y hy => ?_
  unfold insertOutbox at hws
  split_ifs at hws
  obtain rfl := Except.ok.inj hws
  obtain rfl := List.mem_singleton.mp hy
  exact h

/-- The insert of a transfer. -/
lemma noReminders_insertTransfer (row : Transfer) :
    (Tx.write (insertTransfer row) : PaymentsTx Unit).Obeys NoReminders := by
  refine Tx.obeys_write fun db ws hws y hy => ?_
  unfold insertTransfer at hws
  split_ifs at hws
  all_goals
    obtain rfl := Except.ok.inj hws
    obtain rfl := List.mem_singleton.mp hy
    rfl

/-- The insert of a bill. -/
lemma noReminders_insertBill (bill : SplitBill) :
    (Tx.write (insertBill bill) : PaymentsTx Unit).Obeys NoReminders := by
  refine Tx.obeys_write fun db ws hws y hy => ?_
  unfold insertBill at hws
  split_ifs at hws
  obtain rfl := Except.ok.inj hws
  obtain rfl := List.mem_singleton.mp hy
  rfl

/-- The insert of a share. -/
lemma noReminders_insertShare (share : SplitBillShare) :
    (Tx.write (insertShare share) : PaymentsTx Unit).Obeys NoReminders := by
  refine Tx.obeys_write fun db ws hws y hy => ?_
  unfold insertShare at hws
  split_ifs at hws
  obtain rfl := Except.ok.inj hws
  obtain rfl := List.mem_singleton.mp hy
  rfl

/-- An update of transfers. -/
lemma noReminders_updateTransfers (matched : Transfer → Bool) (set : Transfer → Transfer) :
    (updateTransfers matched set).Obeys NoReminders := by
  refine fun db => ⟨fun ws hws y hy => ?_, trivial⟩
  obtain rfl := Except.ok.inj hws
  obtain ⟨row, -, rfl⟩ := List.mem_map.mp hy
  rfl

/-- A read that throws when there is no row. -/
lemma noReminders_findTransfer (id : String) : (findTransfer id).Obeys NoReminders := by
  refine (noReminders_query _).bind fun row => ?_
  cases row <;> trivial

/-- A transition of a claimed row. -/
lemma noReminders_transition (transfer : Transfer) (leaseOwner : String) (next : TransferStatus)
    (patch : Transfer → Transfer) :
    (transitionUsingManager transfer leaseOwner next patch).Obeys NoReminders := by
  refine (Tx.obeys_ofExcept _).bind fun _ => (noReminders_updateTransfers _ _).bind fun ids => ?_
  split_ifs
  · trivial
  · exact noReminders_findTransfer _

/-- The message about a completed transfer. -/
lemma noReminders_completed (transfer : Transfer) (draw : MessageDraw) :
    (enqueueTransferCompleted transfer draw).Obeys NoReminders := by
  unfold enqueueTransferCompleted
  cases transfer.receiverWalletId with
  | none => trivial
  | some receiverWalletId => exact noReminders_insertOutbox rfl

/-- The messages about a paid share. -/
lemma noReminders_sharePaid (transfer : Transfer) (draw : CompletionDraw) :
    (enqueueSplitSharePaid transfer draw).Obeys NoReminders := by
  unfold enqueueSplitSharePaid
  cases transfer.splitBillShareId with
  | none => trivial
  | some shareId =>
    refine (noReminders_query _).bind fun found => ?_
    rcases found with _ | ⟨share, bill⟩
    · trivial
    · refine (noReminders_query _).bind fun counts => ?_
      refine (noReminders_insertOutbox rfl).bind fun _ => ?_
      split_ifs
      · exact noReminders_insertOutbox rfl
      · trivial

/-- The transaction that completes a transfer. -/
lemma noReminders_complete (transfer : Transfer) (leaseOwner : String) (draw : CompletionDraw) :
    (completeTransaction transfer leaseOwner draw).Obeys NoReminders :=
  (noReminders_transition _ _ _ _).bind fun _ => (noReminders_completed _ _).bind fun _ =>
    (noReminders_sharePaid _ _).bind fun _ => trivial

/-- The inserts of the shares of a bill, with their messages. -/
lemma noReminders_insertShares (config : Config) (bill : SplitBill) (draw : Draw)
    (shares : List (String × Int)) (index : Nat) :
    (insertShares config bill draw index shares).Obeys NoReminders := by
  induction shares generalizing index with
  | nil => trivial
  | cons share shares ih =>
    exact (noReminders_insertShare _).bind fun _ =>
      (noReminders_insertOutbox rfl).bind fun _ => ih _

variable {config : Config}

/-- A request to the ledger writes nothing, however often it is tried. -/
lemma noReminders_request (command : Ledger.Command) :
    (request config command).Obeys NoReminders := by
  have hattempts : ∀ left lastError,
      (requestAttempts config command left lastError).Obeys NoReminders := by
    intro left
    induction left with
    | zero => exact fun _ => trivial
    | succ left ih =>
      intro lastError
      refine Prog.Obeys.attempt ?_ fun r => ?_
      · unfold fetchOnce
        split_ifs
        · exact fun _ => trivial
        · trivial
      · cases r with
        | ok body => exact fun _ => trivial
        | error e =>
          dsimp only
          split_ifs
          · trivial
          · intro closed
            dsimp only
            split_ifs
            · exact ih _
            · trivial
  intro opened
  dsimp only
  split_ifs
  · trivial
  · exact hattempts _ _

/-- Nor does the reading of a reply. -/
lemma noReminders_rowOf (reply : Reply) : (rowOf reply).Obeys NoReminders := by
  cases reply <;> trivial

/-- A transition, in its transaction. -/
lemma noReminders_transitionClaimed (transfer : Transfer) (leaseOwner : String)
    (next : TransferStatus) (patch : Transfer → Transfer) :
    (transitionClaimed transfer leaseOwner next patch).Obeys NoReminders := by
  have hbody : (transitionTransaction transfer leaseOwner next patch).Obeys NoReminders :=
    (noReminders_transition _ _ _ _).bind fun _ => trivial
  exact (Prog.obeys_run hbody).bind fun _ => noReminders_rowOf _

/-- An update of a claimed row, in its transaction. -/
lemma noReminders_updateClaimed (transfer : Transfer) (leaseOwner : String)
    (patch : Transfer → Transfer) :
    (updateClaimed transfer leaseOwner patch).Obeys NoReminders := by
  have hbody : (updateStatement transfer leaseOwner patch).Obeys NoReminders :=
    (noReminders_updateTransfers _ _).bind fun _ => trivial
  have hfind : (do return Reply.transfer (← findTransfer transfer.id) : PaymentsTx Reply).Obeys
      NoReminders := (noReminders_findTransfer _).bind fun _ => trivial
  refine (Prog.obeys_run hbody).bind fun reply => ?_
  split
  · exact (Prog.obeys_run hfind).bind fun _ => noReminders_rowOf _
  · trivial

/-- The claim of a row. -/
lemma noReminders_claim (transferId : String) (draw : RunDraw) (now : Int) :
    (claim config transferId draw now).Obeys NoReminders := by
  have hbody : (claimStatement config transferId draw now).Obeys NoReminders :=
    (noReminders_updateTransfers _ _).bind fun _ => trivial
  have hfind : (findClaimed transferId).Obeys NoReminders :=
    (noReminders_findTransfer _).bind fun _ => trivial
  refine (Prog.obeys_run hbody).bind fun reply => ?_
  split
  · trivial
  · exact (Prog.obeys_run hfind).bind fun _ => (noReminders_rowOf _).bind fun _ => trivial

/-- The schedule of a retry. -/
lemma noReminders_scheduleRetry (transfer : Transfer) (leaseOwner : String)
    (failure : LedgerCommandError) (now : Int) :
    (scheduleRetry config transfer leaseOwner failure now).Obeys NoReminders :=
  (noReminders_updateClaimed _ _ _).bind fun _ => trivial

/-- The failure of a transfer. -/
lemma noReminders_fail (transfer : Transfer) (leaseOwner : String)
    (failure : Option LedgerCommandError) :
    (fail transfer leaseOwner failure).Obeys NoReminders :=
  (noReminders_transitionClaimed _ _ _ _).bind fun _ => trivial

/-- The handling of a failed step. -/
lemma noReminders_handleFailure (transfer : Transfer) (leaseOwner : String) (error : PaymentsError)
    (now : Int) : (handleFailure config transfer leaseOwner error now).Obeys NoReminders := by
  unfold handleFailure
  dsimp only
  split_ifs
  · exact (noReminders_scheduleRetry _ _ _ _).bind fun _ => trivial
  · exact (noReminders_scheduleRetry _ _ _ _).bind fun _ => trivial
  · exact (noReminders_transitionClaimed _ _ _ _).bind fun _ => trivial
  · exact (noReminders_fail _ _ _).bind fun _ => trivial

/-- The `catch` clause of the loop. -/
lemma noReminders_caught {leaseOwner : String} {now : Int} {next : Transfer → PaymentsProg Unit}
    (hnext : ∀ transfer, (next transfer).Obeys NoReminders) (transfer : Transfer)
    (error : PaymentsError) : (caught config leaseOwner now next transfer error).Obeys NoReminders := by
  unfold caught
  split_ifs
  · trivial
  · refine (noReminders_handleFailure _ _ _ _).bind fun r => ?_
    cases r with
    | none => trivial
    | some transfer => exact hnext transfer

/-- A step of the saga, if the steps after it write no reminders. -/
lemma noReminders_sagaStep {leaseOwner : String} {now : Int} {next : Transfer → PaymentsProg Unit}
    (hnext : ∀ transfer, (next transfer).Obeys NoReminders) (draw : CompletionDraw)
    (transfer : Transfer) :
    (sagaStep config leaseOwner now draw next transfer).Obeys NoReminders := by
  have hcaught : ∀ transfer error, (caught config leaseOwner now next transfer error).Obeys NoReminders :=
    noReminders_caught hnext
  have hcomplete : (complete transfer leaseOwner draw).Obeys NoReminders :=
    (Prog.obeys_run (noReminders_complete _ _ _)).bind fun _ => trivial
  unfold sagaStep
  dsimp only
  cases transfer.status with
  | completed => trivial
  | failed => trivial
  | pending =>
    refine (noReminders_transitionClaimed _ _ _ _).attempt fun r => ?_
    cases r with
    | ok transfer => exact hnext transfer
    | error e => exact hcaught _ e
  | fundsHeld =>
    refine (noReminders_transitionClaimed _ _ _ _).attempt fun r => ?_
    cases r with
    | ok transfer => exact hnext transfer
    | error e => exact hcaught _ e
  | processing =>
    refine Prog.Obeys.attempt (Prog.Obeys.bind ?_ fun _ => hcomplete) fun r => ?_
    · unfold settle
      cases transfer.receiverWalletId with
      | none => trivial
      | some receiverWalletId => exact (noReminders_request _).bind fun _ => trivial
    · cases r with
      | ok => trivial
      | error e => exact hcaught _ e
  | compensating =>
    have hrelease : (release config transfer).Obeys NoReminders :=
      (noReminders_request _).bind fun _ => trivial
    refine (hrelease.bind fun outcome => ?_).attempt fun r => ?_
    · split_ifs
      · exact hcomplete
      · exact noReminders_fail _ _ _
    · cases r with
      | ok => trivial
      | error e => exact hcaught _ e
  | validating =>
    dsimp only
    cases config.validate transfer now with
    | error e => exact hcaught _ e
    | ok =>
      refine Prog.Obeys.attempt ?_ fun r => ?_
      · unfold resolveReceiver
        split_ifs
        · have hvalidate : (validate config transfer).Obeys NoReminders :=
            (noReminders_request _).bind fun _ => trivial
          exact hvalidate.bind fun _ => noReminders_updateClaimed _ _ _
        · trivial
      cases r with
      | error e => exact hcaught _ e
      | ok transfer =>
        refine Prog.Obeys.attempt ?_ fun r => ?_
        · unfold markHold
          split_ifs
          · trivial
          · exact noReminders_updateClaimed _ _ _
        cases r with
        | error e => exact hcaught _ e
        | ok transfer =>
          have hplace : (placeHold config transfer).Obeys NoReminders :=
            (noReminders_request _).bind fun _ => trivial
          refine (hplace.bind fun _ => noReminders_transitionClaimed _ _ _ _).attempt fun r => ?_
          cases r with
          | error e => exact hcaught _ e
          | ok transfer => exact hnext transfer

/-- A run of the saga. -/
lemma noReminders_run (transferId : String) (draw : RunDraw) (now : Int) :
    (run config transferId draw now).Obeys NoReminders := by
  have hloop : ∀ left transfer, (sagaLoop config draw now left transfer).Obeys NoReminders := by
    intro left
    induction left with
    | zero => exact fun _ => noReminders_scheduleRetry _ _ _ _
    | succ left ih => exact noReminders_sagaStep ih _
  refine (noReminders_claim _ _ _).bind fun r => ?_
  cases r with
  | none => trivial
  | some transfer => exact hloop 8 transfer

/-- The runs of a recovery. -/
lemma noReminders_runEach (draw : Nat → RunDraw) (now : Int) (ids : List String) (n : Nat) :
    (runEach config draw now n ids).Obeys NoReminders := by
  induction ids generalizing n with
  | nil => trivial
  | cons id ids ih => exact (noReminders_run _ _ _).bind fun _ => ih _

/-- The insert of a new transfer, and the search for the winner of its race. -/
lemma noReminders_insertNew (canonical : CanonicalTransferRequest) (key : String) (row : Transfer) :
    (insertNew config canonical key row).Obeys NoReminders := by
  have hinsert : (insertStatement row).Obeys NoReminders :=
    (noReminders_insertTransfer _).bind fun _ => trivial
  refine Prog.Obeys.attempt ((Prog.obeys_run hinsert).bind fun _ => (Prog.obeys_read _).bind
    fun created => ?_) fun r => ?_
  · cases created <;> trivial
  · cases r with
    | ok view => trivial
    | error e =>
      unfold afterInsert
      dsimp only
      split_ifs
      · refine Prog.Obeys.bind ?_ fun winner => ?_
        · unfold findWinner
          cases canonical.splitBillShareId <;> exact Prog.obeys_read _
        · cases winner <;> trivial
      · trivial

/-- The creation of a transfer. -/
lemma noReminders_createCanonical (canonical : CanonicalTransferRequest) (key : String)
    (draw : Draw) : (createCanonical config canonical key draw).Obeys NoReminders := by
  have hcreate : (createOrResolve config canonical key draw).Obeys NoReminders := by
    refine (Prog.obeys_read _).bind fun existing => ?_
    cases existing with
    | some existing => trivial
    | none => exact Prog.Obeys.bind (x := .done _) trivial fun quote => noReminders_insertNew _ _ _
  unfold createCanonical
  dsimp only
  cases canonical.splitBillShareId with
  | none => exact hcreate
  | some shareId =>
    refine (Prog.obeys_read _).bind fun shareTransfer => ?_
    cases shareTransfer with
    | some shareTransfer => trivial
    | none => exact hcreate

/-- The view of a bill. -/
lemma noReminders_get (id userId : String) : (get id userId).Obeys NoReminders := by
  refine (Prog.obeys_read _).bind fun bill => ?_
  cases bill with
  | none => trivial
  | some bill =>
    dsimp only
    split_ifs <;> trivial

/-- No program of the payments service but a scan enqueues a message of an overdue share. -/
lemma noReminders_command (draw : Draw) (command : Command) :
    (command.program config draw).Obeys NoReminders := by
  have hpayment : ∀ input header,
      (createSplitSharePayment config input header draw).Obeys NoReminders := fun input header =>
    Prog.Obeys.bind (x := .done _) trivial fun key => noReminders_createCanonical _ _ _
  cases command with
  | create dto header senderUserId =>
    exact (Prog.Obeys.bind (x := .done _) trivial fun key =>
      Prog.Obeys.bind (x := .done _) trivial fun canonical =>
        noReminders_createCanonical _ _ _).bind fun _ => trivial
  | createSplitSharePayment input header => exact (hpayment input header).bind fun _ => trivial
  | createBill dto creatorUserId creatorReference =>
    refine (Prog.Obeys.bind (x := .done _) trivial fun totalMinor => ?_).bind fun _ => trivial
    dsimp only
    split_ifs
    · refine Prog.Obeys.bind (x := .done _) trivial fun amounts => ?_
      have hbody : ∀ bill shares, (createBillTransaction config bill shares draw).Obeys NoReminders :=
        fun bill shares => (noReminders_insertBill _).bind fun _ =>
          (noReminders_insertShares _ _ _ _ _).bind fun _ => trivial
      exact (Prog.obeys_run (hbody _ _)).bind fun _ => noReminders_get _ _
    · trivial
  | payShare billId shareId participantUserId fromWalletId header now =>
    refine Prog.Obeys.bind ((Prog.obeys_read _).bind fun found => ?_) fun _ => trivial
    rcases found with _ | ⟨share, bill⟩
    · trivial
    · dsimp only
      split_ifs
      · refine (hpayment _ _).bind fun transfer => (noReminders_run _ _ _).bind fun _ =>
          (noReminders_get _ _).bind fun bill => Prog.Obeys.bind ?_ fun _ => trivial
        refine (Prog.obeys_read _).bind fun transfer => ?_
        cases transfer <;> trivial
      · trivial
  | run transferId now => exact (noReminders_run _ _ _).bind fun _ => trivial
  | recoverDue now limit =>
    refine Prog.Obeys.bind ((Prog.obeys_read _).bind fun ids => ?_) fun _ => trivial
    exact (noReminders_runEach _ _ _ _).bind fun _ => trivial

end NoReminders

/-! ### The unique index -/

/-- The reminders that writes insert. -/
def remindersOf (ws : List ReminderWrite) : List SplitBillReminder :=
  ws.filterMap fun
    | .insertReminder row => some row
    | _ => none

/-- The reminders of writes are those that they insert. -/
lemma mem_remindersOf {ws : List ReminderWrite} {row : SplitBillReminder} :
    row ∈ remindersOf ws ↔ .insertReminder row ∈ ws := by
  simp only [remindersOf, List.mem_filterMap]
  constructor
  · rintro ⟨write, hwrite, hrow⟩
    cases write with
    | insertReminder row' =>
      obtain rfl := Option.some.inj hrow
      exact hwrite
    | payments write => cases hrow
    | lockShare shareId => cases hrow
  · exact fun h => ⟨_, h, rfl⟩

/-- The reminders of writes, one list after the other. -/
@[simp]
lemma remindersOf_append (ws ws' : List ReminderWrite) :
    remindersOf (ws ++ ws') = remindersOf ws ++ remindersOf ws' := List.filterMap_append

/-- The reminders after some writes. -/
lemma view_reminders (db : ReminderTables) (ws : List ReminderWrite) :
    (view db ws).reminders = db.reminders ++ remindersOf ws := by
  induction ws generalizing db with
  | nil => exact (List.append_nil _).symm
  | cons write ws ih =>
    rw [view_cons, ih]
    cases write with
    | insertReminder row => exact List.append_assoc ..
    | payments write => rfl
    | lockShare shareId => rfl

/-- All reminders are of overdue shares, and no share has two. -/
structure ReminderTables.Unique (db : ReminderTables) : Prop where
  kinds : ∀ row ∈ db.reminders, row.kind = "overdue"
  shares : (db.reminders.map (·.shareId)).Nodup

/-- A reminder is inserted by a statement of its own that has found none of the share. -/
def ReminderChecked (db : ReminderTables) (ws : List ReminderWrite) : Prop :=
  ∀ row, ReminderWrite.insertReminder row ∈ ws → ws = [.insertReminder row] ∧ row.kind = "overdue" ∧
    db.hasReminder row.shareId "overdue" = false

/-- A share without a reminder of a kind. -/
lemma ReminderTables.hasReminder_eq_false {db : ReminderTables} {shareId kind : String} :
    db.hasReminder shareId kind = false ↔
      ∀ row ∈ db.reminders, row.shareId = shareId → row.kind ≠ kind := by
  simp [ReminderTables.hasReminder]

/-- The statements and the entries of the index guard it. -/
lemma unique_guarded : Guarded ReminderTables.Unique ReminderChecked where
  stmt db ws hdb hws := by
    rcases hmade : remindersOf ws with _ | ⟨row, rest⟩
    · have hsame : (view db ws).reminders = db.reminders := by
        rw [view_reminders, hmade, List.append_nil]
      exact ⟨hsame ▸ hdb.kinds, hsame ▸ hdb.shares⟩
    · have hmem : ReminderWrite.insertReminder row ∈ ws :=
        mem_remindersOf.mp (hmade ▸ List.mem_cons_self)
      obtain ⟨rfl, hkind, hfresh⟩ := hws row hmem
      have hsame : (view db [ReminderWrite.insertReminder row]).reminders = db.reminders ++ [row] :=
        view_reminders db _
      constructor
      · rw [hsame]
        intro old hold
        rcases List.mem_append.mp hold with hold | hold
        · exact hdb.kinds old hold
        · rwa [List.mem_singleton.mp hold]
      · rw [hsame, List.map_append, List.nodup_append]
        refine ⟨hdb.shares, List.nodup_singleton _, fun a ha b hb hab => ?_⟩
        obtain ⟨old, hold, rfl⟩ := List.mem_map.mp ha
        obtain rfl := List.mem_singleton.mp hb
        exact ReminderTables.hasReminder_eq_false.mp hfresh old hold hab (hdb.kinds old hold)
  merge db p q hp hq hlocks := by
    have hsame : (view (view db q) p).reminders =
        db.reminders ++ remindersOf q ++ remindersOf p := by
      rw [view_reminders, view_reminders]
    have hkinds : ∀ row ∈ remindersOf p ++ remindersOf q, row.kind = "overdue" := by
      intro row hrow
      rcases List.mem_append.mp hrow with hrow | hrow
      · exact hp.kinds row (by rw [view_reminders]; exact List.mem_append_right _ hrow)
      · exact hq.kinds row (by rw [view_reminders]; exact List.mem_append_right _ hrow)
    have hpn := hp.shares
    have hqn := hq.shares
    rw [view_reminders, List.map_append, List.nodup_append] at hpn
    constructor
    · rw [hsame]
      intro row hrow
      rcases List.mem_append.mp hrow with hrow | hrow
      · exact hq.kinds row (by rwa [view_reminders])
      · exact hkinds row (List.mem_append_left _ hrow)
    · rw [hsame, List.map_append, List.nodup_append]
      refine ⟨by rwa [view_reminders] at hqn, hpn.2.1, fun a ha b hb hab => ?_⟩
      obtain ⟨row, hrow, rfl⟩ := List.mem_map.mp hb
      obtain ⟨old, hold, rfl⟩ := List.mem_map.mp ha
      rcases List.mem_append.mp hold with hold | hold
      · exact hpn.2.2 _ (List.mem_map_of_mem hold) _ (List.mem_map_of_mem hrow) hab
      · -- both transactions would occupy the entry of the share
        have hshare : ReminderLock.shareKind row.shareId row.kind ∈
            locksOf (σ := ReminderTables) p :=
          List.mem_flatMap.mpr ⟨_, mem_remindersOf.mp hrow, by simp [Store.locks, ReminderWrite.locks]⟩
        have hshare' : ReminderLock.shareKind old.shareId old.kind ∈
            locksOf (σ := ReminderTables) q :=
          List.mem_flatMap.mpr ⟨_, mem_remindersOf.mp hold, by simp [Store.locks, ReminderWrite.locks]⟩
        rw [hab, hkinds old (List.mem_append_right _ hold),
          ← hkinds row (List.mem_append_left _ hrow)] at hshare'
        exact hlocks hshare' hshare

/-- The selection of a scan inserts no reminder. -/
lemma checked_select (now limit : Int) (skipLocked : String → Bool) :
    (selectOverdue now limit skipLocked).Obeys ReminderChecked := by
  refine fun db => ⟨fun ws hws row hrow => ?_, trivial⟩
  dsimp only at hws
  split_ifs at hws
  obtain rfl := Except.ok.inj hws
  simp at hrow

/-- The insert of a reminder looks whether there is one. -/
lemma checked_insert (row : SplitBillReminder) (hkind : row.kind = "overdue") :
    (insertReminder row).Obeys ReminderChecked := by
  refine fun db => ⟨fun ws hws row' hrow' => ?_, trivial⟩
  dsimp only at hws
  split_ifs at hws with hfound
  all_goals obtain rfl := Except.ok.inj hws
  · cases hrow'
  · obtain rfl : row' = row := by simpa using hrow'
    exact ⟨rfl, hkind, by rw [← hkind]; simpa using hfound⟩

/-- The programs check the index. -/
lemma duty_checked (config : Config) (duty : Duty) :
    (duty.program config).Obeys ReminderChecked := by
  have hpayments : ∀ (P : Write → Prop) db ws, (∀ z ∈ ws, ∃ y, z = paymentsPart.write y ∧ P y) →
      ReminderChecked db ws := by
    intro P db ws hws row hrow
    obtain ⟨y, hy, -⟩ := hws _ hrow
    cases hy
  cases duty with
  | serve command draw =>
    exact (Prog.obeys_embed paymentsPart (noReminders_command draw command)).mono (hpayments _)
  | scan now limit draw =>
    have hloop : ∀ ids n created,
        (remindEach config.isoString draw n created ids).Obeys ReminderChecked := by
      intro ids
      induction ids with
      | nil => exact fun _ _ => trivial
      | cons id ids ih =>
        intro n created
        refine (Tx.obeys_query _ fun _ _ h => absurd h List.not_mem_nil).bind fun found => ?_
        rcases found with _ | ⟨share, bill⟩
        · exact ih _ _
        · refine (checked_insert _ rfl).bind fun inserted => ?_
          split_ifs
          · exact ih _ _
          · refine Tx.Obeys.bind ?_ fun _ => ih _ _
            cases bill with
            | none => trivial
            | some bill =>
              have hwrite : (Tx.write (insertOutbox (overdueReminderMessage config.isoString bill
                  share (draw.messages n))) : PaymentsTx Unit).Obeys
                  fun _ ws => ∀ y ∈ ws, True :=
                Tx.obeys_write fun _ _ _ _ _ => trivial
              exact (Tx.obeys_embed paymentsPart hwrite).mono (hpayments _)
    have hscan : (scanTransaction config now limit draw).Obeys ReminderChecked :=
      (checked_select _ _ _).bind fun candidates => (hloop _ _ _).bind fun _ => trivial
    exact (Prog.obeys_run hscan).bind fun _ => trivial

/-! ### What transactions publish -/

/-- The messages of overdue shares. -/
def ReminderTables.overdueMessages (db : ReminderTables) : List PaymentOutboxMessage :=
  db.payments.outbox.filter (·.isReminder)

/-- The messages of overdue shares that writes insert. -/
def overdueOf (ws : List ReminderWrite) : List PaymentOutboxMessage :=
  ws.filterMap fun
    | .payments (.insertOutbox message) => if message.isReminder then some message else none
    | _ => none

/-- The messages of writes, one list after the other. -/
@[simp]
lemma overdueOf_append (ws ws' : List ReminderWrite) :
    overdueOf (ws ++ ws') = overdueOf ws ++ overdueOf ws' := List.filterMap_append

/-- The messages of overdue shares after some writes. -/
lemma view_overdueMessages (db : ReminderTables) (ws : List ReminderWrite) :
    (view db ws).overdueMessages = db.overdueMessages ++ overdueOf ws := by
  induction ws generalizing db with
  | nil => exact (List.append_nil _).symm
  | cons write ws ih =>
    rw [view_cons, ih, ← List.singleton_append, overdueOf_append, ← List.append_assoc]
    congr 1
    cases write with
    | insertReminder row => exact (List.append_nil _).symm
    | lockShare shareId => exact (List.append_nil _).symm
    | payments write =>
      cases write with
      | insertOutbox message =>
        change (db.payments.outbox ++ [message]).filter (·.isReminder) = _
        rw [List.filter_append]
        congr 1
        by_cases h : message.isReminder <;> simp [overdueOf, h]
      | insertTransfer row => exact (List.append_nil _).symm
      | saveTransfer row => exact (List.append_nil _).symm
      | insertBill bill => exact (List.append_nil _).symm
      | insertShare share => exact (List.append_nil _).symm

/-- A row and a message remind of the same share, with the same event. -/
def Reminds (config : Config) (made : SplitBillReminder × PaymentOutboxMessage) : Prop :=
  ∃ bill share draw, made.2 = overdueReminderMessage config.isoString bill share draw ∧
    made.1.shareId = share.id ∧ made.1.eventId = draw.eventId

/-- The writes of new reminders. -/
def reminderWrites (made : List (SplitBillReminder × PaymentOutboxMessage)) : List ReminderWrite :=
  made.flatMap fun m => [.insertReminder m.1, .payments (.insertOutbox m.2)]

/-- The rows of new reminders. -/
lemma remindersOf_reminderWrites (made : List (SplitBillReminder × PaymentOutboxMessage)) :
    remindersOf (reminderWrites made) = made.map (·.1) := by
  induction made with
  | nil => rfl
  | cons m made ih =>
    change m.1 :: remindersOf (reminderWrites made) = _
    rw [ih, List.map_cons]

/-- A message that reminds of a share says that it is overdue. -/
lemma Reminds.isReminder {config : Config} {m : SplitBillReminder × PaymentOutboxMessage}
    (h : Reminds config m) : m.2.isReminder = true := by
  obtain ⟨bill, share, draw, hmessage, -⟩ := h
  rw [hmessage]
  rfl

/-- The messages of new reminders. -/
lemma overdueOf_reminderWrites {config : Config}
    {made : List (SplitBillReminder × PaymentOutboxMessage)} (h : ∀ m ∈ made, Reminds config m) :
    overdueOf (reminderWrites made) = made.map (·.2) := by
  induction made with
  | nil => rfl
  | cons m made ih =>
    have hm : overdueOf [.insertReminder m.1, .payments (.insertOutbox m.2)] = [m.2] := by
      simp [overdueOf, (h m List.mem_cons_self).isReminder]
    change overdueOf ([.insertReminder m.1, .payments (.insertOutbox m.2)] ++
      reminderWrites made) = _
    rw [overdueOf_append, hm, ih fun m' hm' => h m' (List.mem_cons_of_mem _ hm'), List.map_cons]
    rfl

/-- Writes of the other programs. -/
lemma remindersOf_payments {ws : List ReminderWrite}
    (h : ∀ z ∈ ws, ∃ y, z = .payments y ∧ y.isReminder = false) :
    remindersOf ws = [] ∧ overdueOf ws = [] := by
  constructor
  · rw [remindersOf, List.filterMap_eq_nil_iff]
    intro z hz
    obtain ⟨y, rfl, -⟩ := h z hz
    rfl
  · rw [overdueOf, List.filterMap_eq_nil_iff]
    intro z hz
    obtain ⟨y, rfl, hy⟩ := h z hz
    cases y with
    | insertOutbox message =>
      have hmessage : message.isReminder = false := hy
      simp [hmessage]
    | insertTransfer row => rfl
    | saveTransfer row => rfl
    | insertBill bill => rfl
    | insertShare share => rfl

/-- The locks of a scan. -/
lemma remindersOf_locks (ids : List String) :
    remindersOf (ids.map .lockShare) = [] ∧ overdueOf (ids.map .lockShare) = [] := by
  constructor
  · simp [remindersOf]
  · simp [overdueOf]

section Scans

variable {config : Config} {draw : ScanDraw} {p q : List ReminderWrite}

/-- The insert of a reminder inserts nothing, or the reminder. -/
lemma insertReminder_returns {row : SplitBillReminder} {inserted : List String}
    (h : (insertReminder row).Returns p inserted q) :
    (inserted = [] ∧ q = p) ∨ (inserted = [row.id] ∧ q = p ++ [.insertReminder row]) := by
  unfold insertReminder at h
  cases h with
  | stmt c hrun hnext =>
    obtain ⟨hinserted, hq⟩ := hnext.of_ret
    dsimp only at hrun
    split_ifs at hrun with hfound
    all_goals obtain rfl := Except.ok.inj hrun
    · rw [if_pos hfound] at hinserted
      rw [List.append_nil] at hq
      exact .inl ⟨hinserted, hq⟩
    · rw [if_neg hfound] at hinserted
      exact .inr ⟨hinserted, hq⟩

/-- A message that is enqueued reminds of its share. -/
lemma enqueueOverdueReminder_returns {bill : Option SplitBill} {share : SplitBillShare}
    {message : MessageDraw} {u : Unit}
    (h : (enqueueOverdueReminder config.isoString bill share message).Returns p u q) :
    ∃ b, q = p ++ [.payments (.insertOutbox
      (overdueReminderMessage config.isoString b share message))] := by
  cases bill with
  | none => cases h
  | some b =>
    refine ⟨b, ?_⟩
    unfold enqueueOverdueReminder at h
    cases h with
    | stmt c hrun hnext =>
      obtain ⟨-, hq⟩ := hnext.of_ret
      unfold insertOutbox at hrun
      dsimp only at hrun
      split_ifs at hrun
      · cases hrun
      · obtain rfl := Except.ok.inj hrun
        exact hq

/-- The loop makes reminders of some of its candidates, each with its message, and counts them. -/
lemma remindEach_returns {ids : List String} {n created total : Nat}
    (h : (remindEach config.isoString draw n created ids).Returns p total q) :
    ∃ made, q = p ++ reminderWrites made ∧ total = created + made.length ∧
      ∀ m ∈ made, Reminds config m ∧ m.1.shareId ∈ ids := by
  induction ids generalizing n created p with
  | nil =>
    obtain ⟨rfl, rfl⟩ := h.of_ret
    exact ⟨[], (List.append_nil _).symm, rfl, fun _ h => absurd h List.not_mem_nil⟩
  | cons id ids ih =>
    have hmore : ∀ {n created p}, (remindEach config.isoString draw n created ids).Returns p total q →
        ∃ made, q = p ++ reminderWrites made ∧ total = created + made.length ∧
          ∀ m ∈ made, Reminds config m ∧ m.1.shareId ∈ id :: ids := by
      intro n created p h
      obtain ⟨made, hq, htotal, hmade⟩ := ih h
      exact ⟨made, hq, htotal, fun m hm => ⟨(hmade m hm).1, List.mem_cons_of_mem _ (hmade m hm).2⟩⟩
    obtain ⟨found, p', hquery, hrest⟩ := h.bind_cases
    obtain ⟨c, hfound, rfl⟩ := hquery.of_query
    rcases found with _ | ⟨share, bill⟩
    · exact hmore hrest
    · have hid : share.id = id := by
        unfold ReminderTables.shareAndBill at hfound
        obtain ⟨share', hshare', heq⟩ := Option.map_eq_some_iff.mp hfound.symm
        obtain ⟨rfl, -⟩ := Prod.mk.inj heq
        simpa using List.find?_some hshare'
      obtain ⟨inserted, p₁, hinsert, hafter⟩ := Tx.Returns.bind_cases hrest
      rcases insertReminder_returns hinsert with ⟨rfl, rfl⟩ | ⟨rfl, rfl⟩
      · exact hmore hafter
      · obtain ⟨u, p₂, henqueue, hlast⟩ := Tx.Returns.bind_cases hafter
        obtain ⟨b, rfl⟩ := enqueueOverdueReminder_returns henqueue
        obtain ⟨made, hq, htotal, hmade⟩ := hmore hlast
        refine ⟨(⟨draw.reminderIds n, share.id, "overdue", (draw.messages n).eventId⟩,
          overdueReminderMessage config.isoString b share (draw.messages n)) :: made, ?_, ?_, ?_⟩
        · rw [hq]
          simp [reminderWrites]
        · rw [htotal, List.length_cons]
          omega
        · intro m hm
          rcases List.mem_cons.mp hm with rfl | hm
          · exact ⟨⟨b, share, draw.messages n, rfl, rfl, rfl⟩, hid ▸ List.mem_cons_self⟩
          · exact hmade m hm

end Scans

/-! ### Runs -/

/-- The share is past the deadline of its bill, and has no transfer or a failed one. -/
def ReminderTables.IsDue (db : ReminderTables) (now : Int) (shareId : String) : Prop :=
  ∃ share ∈ db.payments.shares, ∃ bill ∈ db.payments.bills, share.id = shareId ∧
    bill.id = share.billId ∧ (∃ deadline, bill.deadline = some deadline ∧ deadline ≤ now) ∧
    ((∀ row ∈ db.payments.transfers, row.splitBillShareId ≠ some shareId) ∨
      ∃ row ∈ db.payments.transfers, row.splitBillShareId = some shareId ∧ row.status = .failed)

/-- A row of a `LEFT JOIN` is a row of the right side, unless this has none. -/
lemma mem_leftJoin {α : Type} {rows : List α} {row : Option α} (h : row ∈ leftJoin rows) :
    (row = none ∧ rows = []) ∨ ∃ r ∈ rows, row = some r := by
  cases rows with
  | nil => exact .inl ⟨List.mem_singleton.mp h, rfl⟩
  | cons first rest =>
    obtain ⟨r, hr, rfl⟩ := List.mem_map.mp h
    exact .inr ⟨r, hr, rfl⟩

/-- What a scan selects is due. -/
lemma isDue_of_mem_candidates {db : ReminderTables} {now limit : Int} {skipLocked : String → Bool}
    {shareId : String} (h : shareId ∈ db.candidates now limit skipLocked) :
    db.IsDue now shareId := by
  have hmem := (List.mem_filter.mp (List.mem_of_mem_take h)).1
  obtain ⟨⟨bill, share⟩, hrow, rfl⟩ := List.mem_map.mp hmem
  rw [List.mem_insertionSort] at hrow
  obtain ⟨share', hshare, hrow⟩ := List.mem_flatMap.mp hrow
  obtain ⟨bill', hbill, hrow⟩ := List.mem_flatMap.mp hrow
  obtain ⟨transfer, htransfer, hrow⟩ := List.mem_flatMap.mp hrow
  obtain ⟨reminder, -, hrow⟩ := List.mem_flatMap.mp hrow
  split_ifs at hrow with hcond
  · obtain ⟨rfl, rfl⟩ := Prod.mk.inj (List.mem_singleton.mp hrow)
    simp only [Bool.and_eq_true] at hcond
    obtain ⟨⟨hoverdue, hunpaid⟩, -⟩ := hcond
    obtain ⟨hbill, hid⟩ := List.mem_filter.mp hbill
    refine ⟨share, hshare, bill, hbill, rfl, by simpa using hid, ?_, ?_⟩
    · unfold SplitBill.isOverdue at hoverdue
      obtain ⟨deadline, hdeadline, hle⟩ := Option.any_eq_true .. |>.mp hoverdue
      exact ⟨deadline, hdeadline, by simpa using hle⟩
    · rcases mem_leftJoin htransfer with ⟨-, hnone⟩ | ⟨row, hrow, rfl⟩
      · left
        intro row hrow heq
        have hfound := List.filter_eq_nil_iff.mp hnone row hrow
        simp [heq] at hfound
      · obtain ⟨hmem, heq⟩ := List.mem_filter.mp ‹row ∈ List.filter _ _›
        exact .inr ⟨row, hmem, by simpa using heq, by simpa [isUnpaid] using hunpaid⟩
  · cases hrow

/-- The programs of the threads. -/
def started (config : Config) (w : ReminderWorld) (i : Nat) : Option (ReminderProg Result) :=
  (w.duties i).map (Duty.program config)

/-- The duties of the threads say which programs they run. -/
lemma reminding_records (config : Config) : (reminding config).Records (started config) where
  commit _ _ := rfl
  issue w i q t w' h := by rw [show w' = w from h]
  env _ _ h := h.elim
  starts w i p w' h := by
    obtain ⟨-, duty, rfl, rfl⟩ := h
    funext j
    by_cases hj : j = i
    · subst hj
      simp [started]
    · simp [started, hj]

/-- Nothing but commits changes the tables. -/
lemma reminding_onlyCommits (config : Config) (I : ReminderTables → Prop) :
    (reminding config).OnlyCommits I where
  commit _ _ _ h := h
  issue w i q t w' p hw h := by rwa [show w' = w from hw]
  env _ _ _ h := h.elim
  starts w i b w' p hw h := by
    obtain ⟨-, duty, -, rfl⟩ := hw
    exact h

/-- The number of reminders that a commit reports, when it is one of a scan. -/
def ReminderWorld.created (w : ReminderWorld) (c : ReminderCommit) : Nat :=
  match w.duties c.thread with
  | some (.scan ..) => c.reply.count
  | _ => 0

/-- The scan of thread `i` with the clock `now` has seen that the share is due. -/
def SawDue (config : Config) (tables : Database) (s : ReminderSystem) (i : Nat)
    (shareId : String) : Prop :=
  ∃ now limit draw db locks, s.world.duties i = some (.scan now limit draw) ∧
    Sys.FirstRead (reminding config) (Sys.init (.initial tables)) s i
      (scanTransaction config now limit draw) db locks ∧ db.IsDue now shareId

section Runs

variable {config : Config} {tables : Database} {s s' : ReminderSystem}

/-- What the transaction of a thread is about to publish. -/
lemma commit_cases {i : Nat} {body : ReminderTx Reply} {r : Reply} {p : List ReminderWrite}
    {k : Except PaymentsError Reply → ReminderProg Result}
    (hs : Reaches (reminding config) (Sys.init (.initial tables)) s)
    (hi : s.threads i = .inTx body (.ret r) p k) :
    (∃ command draw, s.world.duties i = some (.serve command draw) ∧
      ∀ z ∈ p, ∃ y, z = ReminderWrite.payments y ∧ y.isReminder = false) ∨
    ∃ now limit draw, ∃ ids : List String, ∃ made, s.world.duties i = some (.scan now limit draw) ∧
      p = ids.map .lockShare ++ reminderWrites made ∧ r = .affected made.length ∧
      ∀ m ∈ made, Reminds config m ∧ SawDue config tables s i m.1.shareId := by
  obtain ⟨p₀, acts, hp₀, hexec, hreturns⟩ :=
    Sys.exec_of_inTx (reminding_records config) rfl hs hi
  obtain ⟨duty, hduty, rfl⟩ := Option.map_eq_some_iff.mp hp₀
  cases duty with
  | serve command draw =>
    left
    have hcommand : (command.program config draw).Obeys NoReminders := noReminders_command _ _
    have hbody := ((Prog.obeys_embed paymentsPart hcommand).exec hexec).1
    exact ⟨command, draw, hduty,
      hbody.returns (hreturns r p (.ret r p)) fun _ h => absurd h List.not_mem_nil⟩
  | scan now limit draw =>
    right
    have hbody : body = scanTransaction config now limit draw := by
      change (Prog.transaction (scanTransaction config now limit draw) _).Exec _ _ at hexec
      cases hexec with
      | refl => rfl
      | @transaction _ _ r _ _ hr hrest =>
        cases r with
        | ok reply => cases hrest
        | error e => cases hrest
    subst hbody
    rcases Sys.firstRead hs hi with ⟨hfirst, -⟩ | ⟨db, locks, hrun, hread, hrest⟩
    · cases hfirst
    · split_ifs at hrun
      obtain rfl := Except.ok.inj hrun
      have hloop : ((remindEach config.isoString draw 0 0
          (db.candidates now limit draw.skipLocked)).bind fun created =>
            .ret (.affected created)).Returns _ r p := hrest r p (.ret r p)
      obtain ⟨created, q, hreturns, hend⟩ := hloop.bind_cases
      obtain ⟨rfl, rfl⟩ := hend.of_ret
      obtain ⟨made, rfl, rfl, hmade⟩ := remindEach_returns hreturns
      refine ⟨now, limit, draw, _, made, hduty, rfl, by rw [Nat.zero_add], fun m hm => ?_⟩
      obtain ⟨hreminds, hmem⟩ := hmade m hm
      exact ⟨hreminds, now, limit, draw, db, _, hduty, hread, isDue_of_mem_candidates hmem⟩

/-- A thread keeps its duty. -/
lemma duties_step (hs : Step (reminding config) s s') {i : Nat} {duty : Duty}
    (h : s.world.duties i = some duty) : s'.world.duties i = some duty := by
  rcases hs.world_cases with hw | ⟨j, body, r, p, k, -, -, hw⟩ | ⟨j, q, k, t, -, hw⟩ |
    ⟨j, p, -, hfree, duty', -, hw⟩ | henv
  · rwa [hw]
  · rw [hw]
    exact h
  · rw [show s'.world = s.world from hw]
    exact h
  · rw [hw]
    have hne : i ≠ j := by
      rintro rfl
      rw [h] at hfree
      cases hfree
    change Function.update s.world.duties j _ i = _
    rw [Function.update_of_ne hne]
    exact h
  · exact henv.elim

/-- What a scan has seen stays so. -/
lemma SawDue.step {i : Nat} {shareId : String} (h : SawDue config tables s i shareId)
    (hs : Step (reminding config) s s') : SawDue config tables s' i shareId := by
  obtain ⟨now, limit, draw, db, locks, hduty, hread, hdue⟩ := h
  exact ⟨now, limit, draw, db, locks, duties_step hs hduty, hread.step hs, hdue⟩

/-- What holds of every run. -/
structure Reminding (config : Config) (tables : Database) (s : ReminderSystem) : Prop where
  paired : ∃ made : List (SplitBillReminder × PaymentOutboxMessage), s.world.db.reminders = made.map (·.1) ∧
    s.world.db.overdueMessages = made.map (·.2) ∧ ∀ m ∈ made, Reminds config m
  seen : ∀ row ∈ s.world.db.reminders, ∃ c ∈ s.world.log,
    ReminderWrite.insertReminder row ∈ c.writes ∧ SawDue config tables s c.thread row.shareId
  counted : (s.world.log.map s.world.created).sum = s.world.db.reminders.length
  duties : ∀ c ∈ s.world.log, ∃ duty, s.world.duties c.thread = some duty

/-- A scan counts the same for ever. -/
lemma Reminding.created_step (h : Reminding config tables s) (hs : Step (reminding config) s s') :
    s.world.log.map s'.world.created = s.world.log.map s.world.created := by
  refine List.map_congr_left fun c hc => ?_
  obtain ⟨duty, hduty⟩ := h.duties c hc
  rw [ReminderWorld.created, ReminderWorld.created, hduty, duties_step hs hduty]

/-- A step that does not commit. -/
lemma Reminding.quiet (h : Reminding config tables s) (hs : Step (reminding config) s s')
    (hdb : s'.world.db = s.world.db) (hlog : s'.world.log = s.world.log) :
    Reminding config tables s' where
  paired := by rw [hdb]; exact h.paired
  seen row hrow := by
    rw [hdb] at hrow
    obtain ⟨c, hc, hmem, hsaw⟩ := h.seen row hrow
    exact ⟨c, hlog ▸ hc, hmem, hsaw.step hs⟩
  counted := by rw [hlog, hdb, h.created_step hs, h.counted]
  duties c hc := by
    obtain ⟨duty, hduty⟩ := h.duties c (hlog ▸ hc)
    exact ⟨duty, duties_step hs hduty⟩

/-- Every step keeps what holds of every run. -/
lemma Reminding.step (hreach : Reaches (reminding config) (Sys.init (.initial tables)) s)
    (h : Reminding config tables s) (hs : Step (reminding config) s s') :
    Reminding config tables s' := by
  rcases hs.world_cases with hw | ⟨i, body, r, p, k, hi, -, hw⟩ | ⟨j, q, k, t, -, hw⟩ |
    ⟨j, p, -, hfree, duty', -, hw⟩ | henv
  · exact h.quiet hs (by rw [hw]) (by rw [hw])
  · have hdb : s'.world.db = view s.world.db p := by rw [hw]; rfl
    have hlog : s'.world.log = s.world.log ++ [⟨i, body, p, r⟩] := by rw [hw]; rfl
    obtain ⟨made, hreminders, hmessages, hmade⟩ := h.paired
    -- the new pairs, which are those of a scan
    have hnew : ∃ new : List (SplitBillReminder × PaymentOutboxMessage), remindersOf p = new.map (·.1) ∧ overdueOf p = new.map (·.2) ∧
        s'.world.created ⟨i, body, p, r⟩ = new.length ∧
        (∃ duty, s'.world.duties i = some duty) ∧
        ∀ m ∈ new, Reminds config m ∧ SawDue config tables s' i m.1.shareId := by
      rcases commit_cases hreach hi with ⟨command, draw, hduty, hp⟩ |
        ⟨now, limit, draw, ids, new, hduty, rfl, rfl, hnew⟩
      · obtain ⟨hrows, hnone⟩ := remindersOf_payments hp
        have hduty' := duties_step hs hduty
        refine ⟨[], hrows, hnone, ?_, ⟨_, hduty'⟩, fun _ hm => absurd hm List.not_mem_nil⟩
        rw [ReminderWorld.created, hduty']
        rfl
      · obtain ⟨hrows, hnone⟩ := remindersOf_locks ids
        have hduty' := duties_step hs hduty
        refine ⟨new, ?_, ?_, ?_, ⟨_, hduty'⟩, fun m hm => ⟨(hnew m hm).1, (hnew m hm).2.step hs⟩⟩
        · rw [remindersOf_append, hrows, List.nil_append, remindersOf_reminderWrites]
        · rw [overdueOf_append, hnone, List.nil_append,
            overdueOf_reminderWrites fun m hm => (hnew m hm).1]
        · rw [ReminderWorld.created, hduty']
          rfl
    obtain ⟨new, hrows, hnone, hcount, hduty, hpairs⟩ := hnew
    have hreminders' : s'.world.db.reminders = (made ++ new).map (·.1) := by
      rw [hdb, view_reminders, hreminders, hrows, List.map_append]
    constructor
    · refine ⟨made ++ new, hreminders', ?_, fun m hm => ?_⟩
      · rw [hdb, view_overdueMessages, hmessages, hnone, List.map_append]
      · rcases List.mem_append.mp hm with hm | hm
        · exact hmade m hm
        · exact (hpairs m hm).1
    · intro row hrow
      rw [hdb, view_reminders] at hrow
      rcases List.mem_append.mp hrow with hrow | hrow
      · obtain ⟨c, hc, hmem, hsaw⟩ := h.seen row hrow
        exact ⟨c, hlog ▸ List.mem_append_left _ hc, hmem, hsaw.step hs⟩
      · refine ⟨⟨i, body, p, r⟩, hlog ▸ List.mem_append_right _ (List.mem_singleton_self _),
          mem_remindersOf.mp hrow, ?_⟩
        rw [hrows] at hrow
        obtain ⟨m, hm, rfl⟩ := List.mem_map.mp hrow
        exact (hpairs m hm).2
    · rw [hlog, List.map_append, List.sum_append, h.created_step hs, h.counted, hreminders',
        hreminders, List.map_cons, List.map_nil, hcount]
      simp
    · intro c hc
      rw [hlog] at hc
      rcases List.mem_append.mp hc with hc | hc
      · obtain ⟨duty, hduty⟩ := h.duties c hc
        exact ⟨duty, duties_step hs hduty⟩
      · rw [List.mem_singleton.mp hc]
        exact hduty
  · have hsame : s'.world = s.world := hw
    exact h.quiet hs (by rw [hsame]) (by rw [hsame])
  · exact h.quiet hs (by rw [hw]) (by rw [hw])
  · exact henv.elim

end Runs

/-- In every run of scans and of all other programs of the payments service: a share has at most one
reminder and at most one message of being overdue, and these come together, with the same event; a
reminder is made only by a scan that saw the share past its deadline without a transfer, or with a
failed one; and the committed scans have reported as many reminders as there are. -/
theorem one_reminder_per_share (config : Config) (tables : Database)
    (htables : ∀ message ∈ tables.outbox, message.isReminder = false) (s : ReminderSystem)
    (hs : Reaches (reminding config) (Sys.init (.initial tables)) s) :
    (∀ row ∈ s.world.db.reminders, row.kind = "overdue") ∧
    (s.world.db.reminders.map (·.shareId)).Nodup ∧
    (s.world.db.overdueMessages.map (·.event.aggregateId)).Nodup ∧
    s.world.db.reminders.map (fun row => (row.shareId, row.eventId)) =
      s.world.db.overdueMessages.map (fun message => (message.event.aggregateId, message.eventId)) ∧
    (∀ row ∈ s.world.db.reminders, ∃ c ∈ s.world.log,
      ReminderWrite.insertReminder row ∈ c.writes ∧ SawDue config tables s c.thread row.shareId) ∧
    (s.world.log.map s.world.created).sum = s.world.db.reminders.length := by
  have hstarts : ∀ w i p w', (reminding config).starts w i p w' → p.Obeys ReminderChecked := by
    rintro w i p w' ⟨-, duty, rfl, -⟩
    exact duty_checked config duty
  have hinitial : (ReminderWorld.initial tables).db.Unique :=
    ⟨fun _ h => absurd h List.not_mem_nil, List.nodup_nil⟩
  have hunique : s.world.db.Unique :=
    (Sys.constrained (w := ReminderWorld.initial tables) unique_guarded
      (reminding_onlyCommits config _) hstarts hinitial hs).1
  have hreminding : Reminding config tables s := by
    clear hunique
    induction hs with
    | refl =>
      refine ⟨⟨[], rfl, ?_, fun _ h => absurd h List.not_mem_nil⟩,
        fun _ h => absurd h List.not_mem_nil, rfl, fun _ h => absurd h List.not_mem_nil⟩
      exact List.filter_eq_nil_iff.mpr fun message hmessage => by simp [htables message hmessage]
    | tail hreach hstep ih => exact ih.step hreach hstep
  obtain ⟨made, hreminders, hmessages, hmade⟩ := hreminding.paired
  have hpairs : s.world.db.reminders.map (fun row => (row.shareId, row.eventId)) =
      s.world.db.overdueMessages.map
        (fun message => (message.event.aggregateId, message.eventId)) := by
    rw [hreminders, hmessages, List.map_map, List.map_map]
    refine List.map_congr_left fun m hm => ?_
    obtain ⟨bill, share, draw, hmessage, hshare, hevent⟩ := hmade m hm
    simp only [Function.comp_apply, hmessage, hshare, hevent]
    rfl
  refine ⟨hunique.kinds, hunique.shares, ?_, hpairs, hreminding.seen, hreminding.counted⟩
  have hshares := congrArg (List.map Prod.fst) hpairs
  simp only [List.map_map, Function.comp_def] at hshares
  rw [← hshares]
  exact hunique.shares

/-! ### Two scans at once -/

/-- Ben's share of a bill of Ann. -/
def overdueTables : Database :=
  { transfers := [], bills := [⟨"bill", "ann", "ann@example.com", 100, "USD", some 10⟩],
    shares := [⟨"share", "bill", "ben", 100, 0⟩], outbox := [] }

/-- The configuration of the scans. -/
def scanConfig : Config := { fingerprint := fun _ => "" }

/-- A scan at the time 10, whose ids start with `name`. -/
def scanDuty (name : String) (skipLocked : String → Bool) : Duty :=
  .scan 10 100
    { skipLocked, reminderIds := fun n => name ++ "-reminder-" ++ toString n,
      messages := fun n =>
        { eventId := name ++ "-event-" ++ toString n, occurredAt := 10, carrier := {} } }

/-- Two scans have started; the second one skips the share. -/
def scansTwice : ReminderSystem :=
  let w := ReminderWorld.initial overdueTables
  let first := { w with duties := Function.update w.duties 0 (some (scanDuty "first" fun _ => false)) }
  let second :=
    { first with duties := Function.update first.duties 1 (some (scanDuty "second" (· = "share"))) }
  ((Sys.init w).set 0 (.run ((scanDuty "first" fun _ => false).program scanConfig)) first).set 1
    (.run ((scanDuty "second" (· = "share")).program scanConfig)) second

/-- Both scans can start. -/
lemma reaches_scansTwice :
    Reaches (reminding scanConfig) (Sys.init (.initial overdueTables)) scansTwice :=
  .head (.start rfl ⟨rfl, _, rfl, rfl⟩) (.single (.start rfl ⟨rfl, _, rfl, rfl⟩))

/-- The first scan locks the share; the second one looks and ends; the first one goes on. -/
def scansOrder : List Nat := [0, 0, 1, 1, 1, 0, 0, 0, 0]

/-- There is one reminder, and both scans have ended. -/
def remindedOnce (s : ReminderSystem) : Bool :=
  s.world.db.reminders.map (·.shareId) = ["share"] && s.world.log.map s.world.created = [0, 1]

/-- The second scan skips the share that the first one has locked, and the share is reminded of once. -/
theorem one_reminder_per_share_twice :
    ∃ s : ReminderSystem, remindedOnce s = true ∧
      s.world.db.reminders.map (fun row => (row.shareId, row.eventId)) =
        s.world.db.overdueMessages.map
          (fun message => (message.event.aggregateId, message.eventId)) ∧
      (s.world.log.map s.world.created).sum = s.world.db.reminders.length := by
  have hreminded : (scansTwice.ticks (reminding scanConfig) [0, 1] scansOrder).any
      remindedOnce = true := by decide +kernel
  obtain ⟨s, hs, hreminded⟩ := (Option.any_eq_true _ _).mp hreminded
  have hquiet : scansTwice.QuietBut [0, 1] := by
    intro i hi
    obtain ⟨h0, h1⟩ : i ≠ 0 ∧ i ≠ 1 := by simpa using hi
    rw [scansTwice, Sys.set_threads_ne _ h1, Sys.set_threads_ne _ h0]
    rfl
  have hreach := reaches_scansTwice.trans
    (hquiet.ticks (by decide) (fun _ _ _ => trivial) hs)
  obtain ⟨-, -, -, hpairs, -, hcounts⟩ :=
    one_reminder_per_share scanConfig overdueTables (by decide) s hreach
  exact ⟨s, hreminded, hpairs, hcounts⟩

end Payments

end PeerLedger
