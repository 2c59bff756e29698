import PeerLedger.Payments.Database

/-!
# The messages of a completed transfer

`enqueueTransferCompleted` and `enqueueSplitSharePaid` of `outbox.service.ts`: the outbox rows that
the transaction completing a transfer adds, and the status of a split bill
(`split-bill-status.ts`) that they announce.
-/

namespace PeerLedger

namespace Payments

open Transactions

abbrev PaymentsTx := Tx Database Write PaymentsError

/-! ### Split bills -/

inductive SplitBillStatus where
  | pending
  | partiallyPaid
  | settled
deriving DecidableEq

/-- The text of a status. -/
def SplitBillStatus.text : SplitBillStatus → String
  | pending => "Pending"
  | partiallyPaid => "PartiallyPaid"
  | settled => "Settled"

def deriveSplitBillStatus (paidShares totalShares : Nat) : SplitBillStatus :=
  if 0 < totalShares ∧ paidShares = totalShares then .settled
  else if 0 < paidShares then .partiallyPaid
  else .pending

namespace Database

/-- The share with an id, together with its bill. -/
def shareWithBill (db : Database) (shareId : String) : Option (SplitBillShare × SplitBill) := do
  let share ← db.shares.find? fun share => share.id = shareId
  let bill ← db.bills.find? fun bill => bill.id = share.billId
  return (share, bill)

/-- The number of rows of a bill's shares joined with their transfers. -/
def shareRows (db : Database) (billId : String) (counted : Option Transfer → Bool) : Nat :=
  ((db.shares.filter fun share => share.billId = billId).map fun share =>
    match db.transfers.filter fun row => row.splitBillShareId = some share.id with
    | [] => if counted none then 1 else 0
    | rows => rows.countP fun row => counted (some row)).sum

/-- `COUNT(*)` of the shares of a bill. -/
def totalShares (db : Database) (billId : String) : Nat := db.shareRows billId fun _ => true

/-- `COUNT(*)` of the shares of a bill whose transfer is completed. -/
def paidShares (db : Database) (billId : String) : Nat :=
  db.shareRows billId fun row => row.any fun row => row.status = .completed

end Database

/-! ### Messages -/

/-- What a message takes from outside. -/
structure MessageDraw where
  /-- `randomUUID()`. -/
  eventId : String
  /-- `new Date()`. -/
  occurredAt : Int
  carrier : Ledger.TraceCarrier

/-- The outbox row of an event. -/
def outboxMessage (draw : MessageDraw) (eventType routingKey aggregateType aggregateId : String)
    (aggregateVersion : Int) (correlationId : String) (payload : Json) : PaymentOutboxMessage :=
  { eventId := draw.eventId, routingKey,
    event :=
      { eventId := draw.eventId, eventType, schemaVersion := 1, occurredAt := draw.occurredAt,
        producer := "payments-service", correlationId, traceId := draw.carrier.traceId,
        traceparent := draw.carrier.traceparent, tracestate := draw.carrier.tracestate,
        aggregateType, aggregateId, aggregateVersion, payload },
    attempts := 0, availableAt := draw.occurredAt, lockedUntil := none, lockId := none,
    publishedAt := none, lastError := none }

/-- The event of a completed transfer. -/
def transferCompletedMessage (transfer : Transfer) (receiverWalletId : String)
    (draw : MessageDraw) : PaymentOutboxMessage :=
  outboxMessage draw "payments.transfer.Completed" "payments.transfer.completed.v1" "Transfer"
    transfer.id transfer.version transfer.id
    (.obj [("senderUserId", .str transfer.senderUserId),
      ("senderWalletId", .str transfer.senderWalletId),
      ("receiverWalletId", .str receiverWalletId),
      ("amountMinor", .str (toString transfer.amountMinor)), ("currency", .str transfer.currency),
      ("destinationAmountMinor", .str (toString transfer.destinationAmountMinor)),
      ("destinationCurrency", .str transfer.destinationCurrency),
      ("fxRate", .str transfer.fxDisplayRate), ("status", .str "Completed")])

def enqueueTransferCompleted (transfer : Transfer) (draw : MessageDraw) : PaymentsTx Unit :=
  match transfer.receiverWalletId with
  | none => .abort (.error "Completed transfer is missing receiver wallet")
  | some receiverWalletId =>
    Tx.write (insertOutbox (transferCompletedMessage transfer receiverWalletId draw))

/-- What a completing transaction takes from outside for its messages. -/
structure CompletionDraw where
  completed : MessageDraw
  sharePaid : MessageDraw
  statusChanged : MessageDraw

/-- The payload of the messages about a paid share. -/
def sharePaidPayload (transfer : Transfer) (share : SplitBillShare) (bill : SplitBill)
    (status : SplitBillStatus) (ownerId : String) : Json :=
  .obj [("splitBillId", .str share.billId), ("shareId", .str share.id),
    ("transferId", .str transfer.id), ("participantUserId", .str share.participantUserId),
    ("amountMinor", .str (toString share.amountMinor)), ("currency", .str bill.currency),
    ("billStatus", .str status.text), ("ownerId", .str ownerId)]

def sharePaidMessage (transfer : Transfer) (share : SplitBillShare) (bill : SplitBill)
    (status : SplitBillStatus) (draw : MessageDraw) : PaymentOutboxMessage :=
  outboxMessage draw "payments.split-bill.SharePaid" "payments.split-bill.share-paid.v1"
    "SplitBillShare" share.id 1 transfer.id
    (sharePaidPayload transfer share bill status share.participantUserId)

def statusChangedMessage (transfer : Transfer) (share : SplitBillShare) (bill : SplitBill)
    (status : SplitBillStatus) (draw : MessageDraw) : PaymentOutboxMessage :=
  outboxMessage draw "payments.split-bill.StatusChanged" "payments.split-bill.status-changed.v1"
    "SplitBill" share.billId 1 transfer.id
    (sharePaidPayload transfer share bill status bill.creatorUserId)

/-- The message to the participant of a new share. -/
def splitBillCreatedMessage (isoString : Int → String) (bill : SplitBill) (share : SplitBillShare)
    (draw : MessageDraw) : PaymentOutboxMessage :=
  outboxMessage draw "payments.split-bill.Created" "payments.split-bill.created.v1" "SplitBill"
    bill.id 1 bill.id
    (.obj [("ownerId", .str share.participantUserId), ("splitBillId", .str bill.id),
      ("shareId", .str share.id), ("creatorUserId", .str bill.creatorUserId),
      ("amountMinor", .str (toString share.amountMinor)), ("currency", .str bill.currency),
      ("deadline", (bill.deadline.map fun time => Json.str (isoString time)).getD .null)])

def enqueueSplitBillCreated (isoString : Int → String) (bill : SplitBill) (share : SplitBillShare)
    (draw : MessageDraw) : PaymentsTx Unit :=
  Tx.write (insertOutbox (splitBillCreatedMessage isoString bill share draw))

def enqueueSplitSharePaid (transfer : Transfer) (draw : CompletionDraw) : PaymentsTx Unit :=
  match transfer.splitBillShareId with
  | none => .ret ()
  | some shareId => do
    match ← Tx.query fun db => db.shareWithBill shareId with
    | none => .abort (.error "Completed split payment is missing its share")
    | some (share, bill) => do
      let (total, paid) ← Tx.query fun db =>
        (db.totalShares share.billId, db.paidShares share.billId)
      let status := deriveSplitBillStatus paid total
      Tx.write (insertOutbox (sharePaidMessage transfer share bill status draw.sharePaid))
      if bill.creatorUserId ≠ share.participantUserId then
        Tx.write (insertOutbox (statusChangedMessage transfer share bill status draw.statusChanged))

end Payments

end PeerLedger
