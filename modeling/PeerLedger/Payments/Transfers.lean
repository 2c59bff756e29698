import PeerLedger.Payments.Saga

/-!
# Creation of transfers

`transfers.service.ts`: `create` and `createSplitSharePayment` bring a request into its canonical
form, and `createCanonical` creates its transfer.  A request that was made before gets the transfer
that it made, a new one is quoted and inserted, and the loser of a race reads the winner's row.
-/

namespace PeerLedger

namespace Payments

open Transactions

/-- A transfer as the service shows it. -/
structure TransferView where
  id : String
  senderUserId : String
  senderWalletId : String
  receiverReference : String
  receiverWalletId : Option String
  splitBillShareId : Option String
  amount : String
  currency : String
  destinationAmount : String
  destinationCurrency : String
  fxRate : String
  fxQuotedAt : Int
  fxExpiresAt : Int
  status : TransferStatus
  idempotencyKey : String
  failureCode : Option String
  failureMessage : Option String
  retryCount : Nat
  nextRetryAt : Option Int
  createdAt : Int
deriving DecidableEq

/-- Minor units as a decimal amount with two places. -/
def formatMinorUnits (amountMinor : Int) : String :=
  toString (amountMinor.tdiv 100) ++ "." ++
    Ledger.padStart 2 '0' (toString (amountMinor.tmod 100))

def toView (transfer : Transfer) : TransferView :=
  { id := transfer.id, senderUserId := transfer.senderUserId,
    senderWalletId := transfer.senderWalletId, receiverReference := transfer.receiverReference,
    receiverWalletId := transfer.receiverWalletId, splitBillShareId := transfer.splitBillShareId,
    amount := formatMinorUnits transfer.amountMinor, currency := transfer.currency,
    destinationAmount := formatMinorUnits transfer.destinationAmountMinor,
    destinationCurrency := transfer.destinationCurrency, fxRate := transfer.fxDisplayRate,
    fxQuotedAt := transfer.fxQuotedAt, fxExpiresAt := transfer.fxExpiresAt,
    status := transfer.status, idempotencyKey := transfer.idempotencyKey,
    failureCode := transfer.failureCode, failureMessage := transfer.failureMessage,
    retryCount := transfer.retryCount, nextRetryAt := transfer.nextRetryAt,
    createdAt := transfer.createdAt }

def resolveExisting (existing : Transfer) (fingerprint : String) : Except PaymentsError TransferView :=
  if existing.requestFingerprint ≠ fingerprint then
    .error (.conflict "Idempotency-Key was already used with a different request")
  else .ok (toView existing)

def isCreationUniqueViolation : PaymentsError → Bool
  | .uniqueViolation constraint =>
    constraint = IDEMPOTENCY_CONSTRAINT ∨ constraint = SPLIT_BILL_SHARE_CONSTRAINT
  | _ => false

namespace Database

/-- The transfer of a share. -/
def transferOfShare (db : Database) (shareId : String) : Option Transfer :=
  db.transfers.find? fun row => row.splitBillShareId = some shareId

/-- The transfer of a sender with an idempotency key. -/
def transferOfKey (db : Database) (senderUserId idempotencyKey : String) : Option Transfer :=
  db.transfers.find? fun row =>
    row.senderUserId = senderUserId ∧ row.idempotencyKey = idempotencyKey

end Database

/-! ### Requests -/

/-- The body of a request to create a transfer. -/
structure CreateTransferDto where
  fromWalletId : String
  toWalletIdentifier : String
  amount : ℚ
  currency : String
  targetCurrency : Option String
deriving DecidableEq

/-- A payment of a share of a split bill. -/
structure SplitSharePayment where
  shareId : String
  participantUserId : String
  fromWalletId : String
  receiverReference : String
  amountMinor : Int
  currency : String
deriving DecidableEq

def MAX_IDEMPOTENCY_KEY_LENGTH : Nat := 200

def normalizeIdempotencyKey (config : Config) (value : Option String) :
    Except PaymentsError String :=
  match value.map config.trim with
  | none => .error (.badRequest "Idempotency-Key header is required")
  | some key =>
    if key = "" then .error (.badRequest "Idempotency-Key header is required")
    else if MAX_IDEMPOTENCY_KEY_LENGTH < key.length then
      .error (.badRequest ("Idempotency-Key must not exceed " ++
        toString MAX_IDEMPOTENCY_KEY_LENGTH ++ " characters"))
    else .ok key

/-- The minor units of a request's amount, which has at most two decimal places. -/
def amountToMinorUnits (amount : ℚ) : Except PaymentsError Int :=
  let scaled := amount * 100
  let rounded := Ledger.mathRound scaled
  if amount ≤ 0 ∨ ¬ (-Ledger.MAX_SAFE_INTEGER ≤ rounded ∧ rounded ≤ Ledger.MAX_SAFE_INTEGER) ∨
      1 / 10 ^ 8 < |scaled - rounded| then
    .error (.badRequest "Invalid transfer amount")
  else .ok rounded

def canonicalRequest (config : Config) (dto : CreateTransferDto) (senderUserId : String)
    (splitBillShareId : Option String) : Except PaymentsError CanonicalTransferRequest := do
  let amountMinor ← amountToMinorUnits dto.amount
  return {
    senderUserId, senderWalletId := config.toLowerCase dto.fromWalletId,
    receiverReference := config.trim dto.toWalletIdentifier, amountMinor,
    currency := config.toUpperCase (config.trim dto.currency),
    destinationCurrency := config.toUpperCase (config.trim (dto.targetCurrency.getD dto.currency)),
    splitBillShareId }

/-- The canonical request of a share's payment. -/
def SplitSharePayment.canonical (config : Config) (input : SplitSharePayment) :
    CanonicalTransferRequest :=
  { senderUserId := input.participantUserId,
    senderWalletId := config.toLowerCase input.fromWalletId,
    receiverReference := config.toLowerCase (config.trim input.receiverReference),
    amountMinor := input.amountMinor, currency := input.currency,
    destinationCurrency := input.currency, splitBillShareId := some input.shareId }

/-- What a request takes from outside. -/
structure Draw where
  /-- `randomUUID()` for a new transfer. -/
  id : String
  /-- `new Date()` of the quote. -/
  quotedAt : Int
  /-- The start of the inserting transaction. -/
  createdAt : Int
  /-- The draws of the saga's runs. -/
  runs : Nat → RunDraw
  /-- `randomUUID()` for a new split bill. -/
  billId : String
  /-- `randomUUID()` for its shares. -/
  shareIds : Nat → String
  /-- The messages about its shares. -/
  shareMessages : Nat → MessageDraw

/-- The winner of a race: the transfer of the share, or that of the sender's key. -/
def findWinner (canonical : CanonicalTransferRequest) (idempotencyKey : String) :
    PaymentsProg (Option Transfer) :=
  match canonical.splitBillShareId with
  | some shareId => Prog.read fun db => db.transferOfShare shareId
  | none => Prog.read fun db => db.transferOfKey canonical.senderUserId idempotencyKey

/-- The transaction that inserts a transfer. -/
def insertStatement (row : Transfer) : PaymentsTx Reply := do
  Tx.write (insertTransfer row)
  return .affected 1

/-- The insert of a new transfer, and its view. -/
def insertAndRead (row : Transfer) : PaymentsProg TransferView := do
  let _ ← Prog.run (insertStatement row)
  match ← Prog.read fun db => db.transferById row.id with
  | some created => return toView created
  | none => throw (PaymentsError.entityNotFound "Transfer")

/-- The `catch` clause of `createCanonical`: the loser of a race gets the winner's transfer. -/
def afterInsert (config : Config) (canonical : CanonicalTransferRequest) (idempotencyKey : String) :
    Except PaymentsError TransferView → PaymentsProg TransferView
  | .ok view => return view
  | .error e =>
    if isCreationUniqueViolation e then do
      match ← findWinner canonical idempotencyKey with
      | none =>
        throw (PaymentsError.error "Idempotency winner was not visible after unique conflict")
      | some winner => .done (resolveExisting winner (config.fingerprint canonical))
    else throw e

/-- The insert of a new transfer, and what follows it. -/
def insertNew (config : Config) (canonical : CanonicalTransferRequest) (idempotencyKey : String)
    (row : Transfer) : PaymentsProg TransferView :=
  (insertAndRead row).attempt (afterInsert config canonical idempotencyKey)

/-- The part of `createCanonical` after the search by share. -/
def createOrResolve (config : Config) (canonical : CanonicalTransferRequest)
    (idempotencyKey : String) (draw : Draw) : PaymentsProg TransferView := do
  match ← Prog.read fun db => db.transferOfKey canonical.senderUserId idempotencyKey with
  | some existing => .done (resolveExisting existing (config.fingerprint canonical))
  | none => do
    let quote ← .done (quoteTransfer canonical.amountMinor canonical.currency
      canonical.destinationCurrency draw.quotedAt)
    insertNew config canonical idempotencyKey (newTransfer draw.id canonical quote idempotencyKey
      (config.fingerprint canonical) draw.createdAt)

def createCanonical (config : Config) (canonical : CanonicalTransferRequest)
    (idempotencyKey : String) (draw : Draw) : PaymentsProg TransferView := do
  let shareTransfer ← match canonical.splitBillShareId with
    | some shareId => Prog.read fun db => db.transferOfShare shareId
    | none => pure none
  match shareTransfer with
  | some shareTransfer => .done (resolveExisting shareTransfer (config.fingerprint canonical))
  | none => createOrResolve config canonical idempotencyKey draw

def create (config : Config) (dto : CreateTransferDto) (idempotencyKeyHeader : Option String)
    (senderUserId : String) (draw : Draw) : PaymentsProg TransferView := do
  let idempotencyKey ← .done (normalizeIdempotencyKey config idempotencyKeyHeader)
  let canonical ← .done (canonicalRequest config dto senderUserId none)
  createCanonical config canonical idempotencyKey draw

def createSplitSharePayment (config : Config) (input : SplitSharePayment)
    (idempotencyKeyHeader : Option String) (draw : Draw) : PaymentsProg TransferView := do
  let idempotencyKey ← .done (normalizeIdempotencyKey config idempotencyKeyHeader)
  createCanonical config (input.canonical config) idempotencyKey draw

def getStatus (id senderUserId : String) : PaymentsProg TransferView := do
  match ← Prog.read fun db =>
    db.transfers.find? fun row => row.id = id ∧ row.senderUserId = senderUserId with
  | some transfer => return toView transfer
  | none => throw (PaymentsError.notFound "Transfer not found")

end Payments

end PeerLedger
