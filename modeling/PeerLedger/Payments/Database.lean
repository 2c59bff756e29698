import PeerLedger.Transactions.Program
import PeerLedger.Ledger.Database
import PeerLedger.Payments.Transfer

/-!
# The tables of the payments service

Transfers, split bills with their shares, and the outbox, as the migrations create them.  An update
of a transfer computes the new row from what its transaction sees and occupies the row until the
transaction ends; an insert also occupies the unique index entries of the row.
-/

namespace PeerLedger

namespace Payments

open Transactions

/-- A row of `split_bills`. -/
structure SplitBill where
  id : String
  creatorUserId : String
  creatorReference : String
  totalMinor : Int
  currency : String
  deadline : Option Int
deriving DecidableEq

/-- A row of `split_bill_shares`. -/
structure SplitBillShare where
  id : String
  billId : String
  participantUserId : String
  amountMinor : Int
  position : Nat
deriving DecidableEq

/-- The envelope of an integration event of the payments service. -/
structure PaymentIntegrationEvent where
  eventId : String
  eventType : String
  schemaVersion : Int
  occurredAt : Int
  producer : String
  correlationId : String
  traceId : Option String
  traceparent : Option String
  tracestate : Option String
  aggregateType : String
  aggregateId : String
  aggregateVersion : Int
  payload : Json

/-- A row of `integration_outbox`. -/
structure PaymentOutboxMessage where
  eventId : String
  routingKey : String
  event : PaymentIntegrationEvent
  attempts : Int
  availableAt : Int
  lockedUntil : Option Int
  lockId : Option String
  publishedAt : Option Int
  lastError : Option String

/-- The contents of the payments database; the rows of a table are in order of insertion. -/
structure Database where
  transfers : List Transfer
  bills : List SplitBill
  shares : List SplitBillShare
  outbox : List PaymentOutboxMessage

/-- The database before any request. -/
def Database.initial : Database := { transfers := [], bills := [], shares := [], outbox := [] }

/-- The writes of the payments service's transactions. -/
inductive Write where
  | insertTransfer (row : Transfer)
  | saveTransfer (row : Transfer)
  | insertBill (bill : SplitBill)
  | insertShare (share : SplitBillShare)
  | insertOutbox (message : PaymentOutboxMessage)

/-- What an uncommitted write occupies. -/
inductive Lock where
  | transferId (id : String)
  | senderIdempotency (senderUserId idempotencyKey : String)
  | splitBillShare (shareId : String)
  | billId (id : String)
  | shareId (id : String)
  | participant (billId userId : String)
  | position (billId : String) (position : Nat)
  | outboxId (id : String)
deriving DecidableEq

/-- The rows after an update of one of them. -/
def saveRow (row : Transfer) (rows : List Transfer) : List Transfer :=
  rows.map fun old => if old.id = row.id then row else old

/-- The contents after a write. -/
def Database.apply (db : Database) : Write → Database
  | .insertTransfer row => { db with transfers := db.transfers ++ [row] }
  | .saveTransfer row => { db with transfers := saveRow row db.transfers }
  | .insertBill bill => { db with bills := db.bills ++ [bill] }
  | .insertShare share => { db with shares := db.shares ++ [share] }
  | .insertOutbox message => { db with outbox := db.outbox ++ [message] }

/-- The unique index entries and rows of a write. -/
def Write.locks : Write → List Lock
  | .insertTransfer row =>
    [.transferId row.id, .senderIdempotency row.senderUserId row.idempotencyKey] ++
      row.splitBillShareId.toList.map .splitBillShare
  | .saveTransfer row => [.transferId row.id]
  | .insertBill bill => [.billId bill.id]
  | .insertShare share =>
    [.shareId share.id, .participant share.billId share.participantUserId,
      .position share.billId share.position]
  | .insertOutbox message => [.outboxId message.eventId]

instance : Store Database Write Lock where
  apply := Database.apply
  locks := Write.locks

/-! ### Queries and statements -/

/-- The transfer with an id. -/
def Database.transferById (db : Database) (id : String) : Option Transfer :=
  db.transfers.find? fun row => row.id = id

def IDEMPOTENCY_CONSTRAINT : String := "UQ_transfers_sender_idempotency"
def SPLIT_BILL_SHARE_CONSTRAINT : String := "UQ_transfers_split_bill_share"

/-- `INSERT INTO transfers` of one row. -/
def insertTransfer (row : Transfer) (db : Database) : Except PaymentsError (List Write) :=
  if ¬ (Ledger.fitsBigint row.amountMinor ∧ Ledger.fitsBigint row.destinationAmountMinor) then
    .error (.queryFailed "22003" "value is out of range for type bigint")
  else if row.amountMinor ≤ 0 ∨ row.destinationAmountMinor ≤ 0 ∨ row.fxRateNumerator ≤ 0 ∨
      row.fxRateDenominator ≤ 0 then
    .error (.queryFailed "23514" "new row violates check constraint")
  else if db.transfers.any fun old => old.id = row.id then .error (.uniqueViolation "transfers_pkey")
  else if db.transfers.any fun old =>
      old.senderUserId = row.senderUserId ∧ old.idempotencyKey = row.idempotencyKey then
    .error (.uniqueViolation IDEMPOTENCY_CONSTRAINT)
  else if row.splitBillShareId ≠ none ∧
      db.transfers.any fun old => old.splitBillShareId = row.splitBillShareId then
    .error (.uniqueViolation SPLIT_BILL_SHARE_CONSTRAINT)
  else if row.splitBillShareId.all fun shareId => db.shares.any fun share => share.id = shareId then
    .ok [.insertTransfer row]
  else .error (.queryFailed "23503" "insert violates foreign key constraint")

/-- `INSERT INTO split_bills` of one row. -/
def insertBill (bill : SplitBill) (db : Database) : Except PaymentsError (List Write) :=
  if ¬ Ledger.fitsBigint bill.totalMinor then
    .error (.queryFailed "22003" "value is out of range for type bigint")
  else if bill.totalMinor ≤ 0 then
    .error (.queryFailed "23514" "new row violates check constraint")
  else if db.bills.any fun old => old.id = bill.id then .error (.uniqueViolation "split_bills_pkey")
  else .ok [.insertBill bill]

/-- `INSERT INTO split_bill_shares` of one row. -/
def insertShare (share : SplitBillShare) (db : Database) : Except PaymentsError (List Write) :=
  if ¬ Ledger.fitsBigint share.amountMinor then
    .error (.queryFailed "22003" "value is out of range for type bigint")
  else if share.amountMinor ≤ 0 then
    .error (.queryFailed "23514" "new row violates check constraint")
  else if db.shares.any fun old => old.id = share.id then
    .error (.uniqueViolation "split_bill_shares_pkey")
  else if db.shares.any fun old =>
      old.billId = share.billId ∧ old.participantUserId = share.participantUserId then
    .error (.uniqueViolation "UQ_split_bill_participant")
  else if db.shares.any fun old => old.billId = share.billId ∧ old.position = share.position then
    .error (.uniqueViolation "UQ_split_bill_share_position")
  else if db.bills.any fun bill => bill.id = share.billId then .ok [.insertShare share]
  else .error (.queryFailed "23503" "insert violates foreign key constraint")

/-- `INSERT INTO integration_outbox` of one row. -/
def insertOutbox (message : PaymentOutboxMessage) (db : Database) :
    Except PaymentsError (List Write) :=
  if db.outbox.any fun row => row.eventId = message.eventId then
    .error (.uniqueViolation "integration_outbox_pkey")
  else .ok [.insertOutbox message]

/-- The rows that an update changes, as it leaves them. -/
def updatedRows (matched : Transfer → Bool) (set : Transfer → Transfer) (db : Database) :
    List Transfer :=
  (db.transfers.filter matched).map set

/-- `UPDATE transfers SET … WHERE …`, which returns the ids of the rows it changed. -/
def updateTransfers (matched : Transfer → Bool) (set : Transfer → Transfer) :
    Tx Database Write PaymentsError (List String) :=
  .stmt (fun db => .ok ((updatedRows matched set db).map .saveTransfer))
    fun db => .ret ((updatedRows matched set db).map (·.id))

/-! ### Rows after writes -/

@[simp]
lemma saveRow_ids (row : Transfer) (rows : List Transfer) :
    (saveRow row rows).map (·.id) = rows.map (·.id) := by
  simp only [saveRow, List.map_map]
  refine List.map_congr_left fun old _ => ?_
  by_cases h : old.id = row.id <;> simp [h]

lemma mem_saveRow {row old : Transfer} {rows : List Transfer} :
    old ∈ saveRow row rows ↔
      (old ∈ rows ∧ old.id ≠ row.id) ∨ (old = row ∧ ∃ was ∈ rows, was.id = row.id) := by
  simp only [saveRow, List.mem_map]
  constructor
  · rintro ⟨was, hmem, heq⟩
    by_cases h : was.id = row.id
    · rw [if_pos h] at heq
      exact .inr ⟨heq.symm, was, hmem, h⟩
    · rw [if_neg h] at heq
      exact .inl (heq ▸ ⟨hmem, h⟩)
  · rintro (⟨hmem, h⟩ | ⟨rfl, was, hmem, h⟩)
    · exact ⟨old, hmem, if_neg h⟩
    · exact ⟨was, hmem, if_pos h⟩

/-- With one row for each id, the update of one transfer changes at most that row. -/
lemma updatedRows_eq {matched : Transfer → Bool} (set : Transfer → Transfer) {db : Database}
    (hnodup : (db.transfers.map (·.id)).Nodup) {id : String}
    (hid : ∀ row, matched row = true → row.id = id) :
    updatedRows matched set db = [] ∧ (∀ row ∈ db.transfers, matched row = false) ∨
      ∃ row ∈ db.transfers, matched row = true ∧ updatedRows matched set db = [set row] := by
  have hnd : ((db.transfers.filter matched).map (·.id)).Nodup :=
    hnodup.sublist (List.filter_sublist.map _)
  rcases hf : db.transfers.filter matched with _ | ⟨row, _ | ⟨row', rest⟩⟩
  · refine .inl ⟨by rw [updatedRows, hf]; rfl, fun row hrow => ?_⟩
    simpa using List.filter_eq_nil_iff.mp hf row hrow
  · have hmem : row ∈ db.transfers.filter matched := by simp [hf]
    obtain ⟨hrow, hmatched⟩ := List.mem_filter.mp hmem
    exact .inr ⟨row, hrow, hmatched, by rw [updatedRows, hf]; rfl⟩
  · have h1 : row ∈ db.transfers.filter matched := by simp [hf]
    have h2 : row' ∈ db.transfers.filter matched := by simp [hf]
    rw [hf] at hnd
    simp [hid _ (List.mem_filter.mp h1).2, hid _ (List.mem_filter.mp h2).2] at hnd

/-- With one row for each id, a row is found by its id. -/
lemma transferById_eq {db : Database} (hnodup : (db.transfers.map (·.id)).Nodup) {row : Transfer}
    (hrow : row ∈ db.transfers) : db.transferById row.id = some row := by
  cases h : db.transferById row.id with
  | none =>
    rw [Database.transferById, List.find?_eq_none] at h
    simp at h
    exact absurd rfl (h row hrow)
  | some found =>
    have hid : found.id = row.id := by simpa using List.find?_some h
    have hmem : found ∈ db.transfers := List.mem_of_find?_eq_some h
    rw [List.inj_on_of_nodup_map hnodup hmem hrow hid]

lemma transferById_some {db : Database} {id : String} {row : Transfer}
    (h : db.transferById id = some row) : row ∈ db.transfers ∧ row.id = id :=
  ⟨List.mem_of_find?_eq_some h, by simpa using List.find?_some h⟩

end Payments

end PeerLedger
