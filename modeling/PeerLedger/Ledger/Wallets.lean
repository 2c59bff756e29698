import PeerLedger.Formats.LikePattern
import PeerLedger.Ledger.EventStreams

/-!
# The wallet service

The commands of `wallets.service.ts` as programs over the ledger's tables: `getOrCreateForUser`,
the owner's `deposit`, `withdraw`, `placeHold`, `releaseHold` and `consumeHold`, and the transfer
commands `validateTransfer`, `placeTransferHold`, `releaseTransferHold` and `settleTransfer`, each
with its checks, its error mapping and its retry loop.

What a command takes from outside (random ids, the clock, the trace context) is a `Draw`, one for
each attempt.
-/

namespace PeerLedger

namespace Ledger

open Transactions Formats

/-- What an attempt of a command takes from outside. -/
structure Draw where
  /-- `randomUUID()` for an event. -/
  eventId : String
  /-- The second `randomUUID()` of a settlement. -/
  creditEventId : String
  /-- `randomUUID()` for a ledger transaction. -/
  transactionId : String
  /-- The id that the database generates for a new wallet. -/
  walletId : String
  walletId_uuid : uuid walletId = walletId
  /-- The start of the transaction. -/
  now : Int
  /-- `lower` in the locale of the database, with which `ILIKE` compares. -/
  lower : String → String
  carrier : TraceCarrier

/-- A wallet as the service shows it. -/
structure WalletView where
  id : String
  ownerId : String
  currency : String
  balance : String
  held : String
  available : String
deriving DecidableEq

/-- The results of the commands and of the rebuilds. -/
inductive Reply where
  | wallet (view : WalletView)
  | settled (sender receiver : WalletView)
  | released
  | alreadySettled
  | validated (receiverWalletId : String)
  | projection (row : WalletBalanceProjection)
  | rebuilt (rebuiltWallets : Nat)
deriving DecidableEq

abbrev LedgerTx := Tx Database Write LedgerError

abbrev LedgerProg := Prog Database Write LedgerError Reply Empty Empty

def MAX_CONCURRENCY_RETRIES : Nat := 25

/-! ### Outbox -/

/-- A hyphen between a lower case letter or digit and an upper case letter. -/
def hyphenate : List Char → List Char
  | a :: b :: rest =>
    if (a.isLower || a.isDigit) && b.isUpper then a :: '-' :: hyphenate (b :: rest)
    else a :: hyphenate (b :: rest)
  | chars => chars

def walletRoutingKey (eventType : String) (schemaVersion : Int) : String :=
  "ledger.wallet." ++ String.ofList ((hyphenate eventType.toList).map Char.toLower) ++ ".v" ++
    toString schemaVersion

/-- The integration event of a stored wallet event. -/
def walletEnvelope (event : StoredEvent) (wallet : Wallet) (carrier : TraceCarrier) :
    IntegrationEventEnvelope :=
  { eventId := event.eventId, eventType := "ledger.wallet." ++ event.eventType, schemaVersion := 1,
    occurredAt := event.createdAt, producer := "ledger-service",
    correlationId := event.correlationId, traceId := carrier.traceId.or event.traceId,
    traceparent := carrier.traceparent, tracestate := carrier.tracestate,
    aggregateType := event.aggregateType, aggregateId := event.streamId,
    aggregateVersion := event.streamVersion,
    payload := .obj [("ownerId", .str wallet.ownerId), ("currency", .str wallet.currency),
      ("domainEventType", .str event.eventType), ("domainSchemaVersion", .num event.schemaVersion),
      ("data", event.payload)] }

/-- The outbox row of a stored wallet event. -/
def outboxMessage (event : StoredEvent) (wallet : Wallet) (carrier : TraceCarrier) :
    OutboxMessage :=
  { eventId := event.eventId, routingKey := walletRoutingKey event.eventType 1,
    event := walletEnvelope event wallet carrier, attempts := 0, availableAt := event.createdAt,
    lockedUntil := none, lockId := none, publishedAt := none, lastError := none }

def enqueueWalletEvents (wallet : Wallet) (carrier : TraceCarrier) : List StoredEvent → LedgerTx Unit
  | [] => .ret ()
  | event :: events => do
    Tx.write (insertOutbox (outboxMessage event wallet carrier))
    enqueueWalletEvents wallet carrier events

/-! ### Views, projections and errors -/

def toView (wallet : Wallet) (projection : WalletBalanceProjection) : WalletView :=
  { id := wallet.id, ownerId := wallet.ownerId, currency := wallet.currency,
    balance := formatMinorUnits projection.balanceMinor,
    held := formatMinorUnits projection.heldMinor,
    available := formatMinorUnits projection.availableMinor }

def projectionFromAggregate (a : WalletAggregate) : WalletBalanceProjection :=
  { walletId := a.id, balanceMinor := a.balanceMinor, heldMinor := a.heldMinor,
    availableMinor := a.availableMinor, streamVersion := a.version }

def project (a : WalletAggregate) : LedgerTx WalletBalanceProjection := do
  Tx.write (saveProjection (projectionFromAggregate a))
  return projectionFromAggregate a

def isExpectedStreamVersionError : LedgerError → Bool
  | .expectedStreamVersion .. => true
  | _ => false

def isUniqueViolation : LedgerError → Bool
  | .uniqueViolation _ => true
  | _ => false

def throwHoldDomainError (message : String) : LedgerError :=
  if message = "INSUFFICIENT_FUNDS" then .badRequest "Недостатньо доступних коштів"
  else if message = "HOLD_NOT_FOUND" then .notFound "Hold не знайдено"
  else if "HOLD_".toList.isPrefixOf message.toList then .badRequest message
  else .error message

/-- The error of `findOneByOrFail`. -/
def entityNotFound (entity : String) : LedgerError :=
  .error ("Could not find any entity of type \"" ++ entity ++ "\"")

/-- The positive minor units of a request's amount. -/
def toMinorUnits (notPositive : String) (amount : ℚ) : Except LedgerError Int :=
  match amountToMinorUnits amount with
  | .error message => .error (.badRequest message)
  | .ok amountMinor => if amountMinor ≤ 0 then .error (.badRequest notPositive) else .ok amountMinor

def toPositiveMinorUnits (amount : ℚ) : Except LedgerError Int :=
  toMinorUnits "Amount must be positive" amount

def assertAggregateIdentity (wallet : Wallet) (a : WalletAggregate) : Except LedgerError Unit :=
  if a.ownerId ≠ some wallet.ownerId ∨ a.currency ≠ some wallet.currency then
    .error (.error ("Wallet stream identity mismatch for " ++ wallet.id))
  else .ok ()

/-- `WalletAggregate.rehydrate` of the wallet's stream. -/
def rehydrateStream (walletId : String) (streamId : String := walletId) :
    LedgerTx WalletAggregate := do
  let history ← Tx.query fun db => db.loadStream streamId
  Tx.ofExcept ((WalletAggregate.rehydrate walletId history).mapError .error)

/-- The append of one event of a wallet, and the stored event. -/
def appendEvent (streamId : String) (expectedVersion : Int) (event : EventData) (now : Int) :
    LedgerTx StoredEvent := do
  let stored ← appendWithinTransaction
    { streamId, aggregateType := "Wallet", expectedVersion, events := [event] } now
  match stored with
  | stored :: _ => return stored
  | [] => .abort (.typeError "Cannot read properties of undefined")

/-- `aggregate.apply(stored)` and its projection. -/
def projectApplied (a : WalletAggregate) (stored : StoredEvent) :
    LedgerTx WalletBalanceProjection := do
  let updated ← Tx.ofExcept ((a.apply stored).mapError .error)
  project updated

/-! ### Retry loops -/

/-- A transaction that is attempted again after an error that `again` accepts, at most `left` times
in all. -/
def retrying (again : LedgerError → Bool) (unreachable : String) (body : Nat → LedgerTx Reply) :
    Nat → Nat → LedgerProg Reply
  | _, 0 => .done (.error (.error unreachable))
  | attempt, left + 1 => .transaction (body attempt) fun
    | .ok reply => .done (.ok reply)
    | .error e =>
      if again e ∧ left ≠ 0 then retrying again unreachable body (attempt + 1) left
      else .done (.error e)

/-! ### Deposits and withdrawals -/

inductive MoneyOperation where
  | deposit
  | withdraw
deriving DecidableEq

/-- The domain event of a money command. -/
def decideMoney (operation : MoneyOperation) (a : WalletAggregate) (amountMinor : Int)
    (eventId transactionId : String) : Except LedgerError EventData :=
  let decided :=
    match operation with
    | .deposit => a.deposit amountMinor eventId transactionId
    | .withdraw => a.withdraw amountMinor eventId transactionId
  decided.mapError fun message =>
    if message = "INSUFFICIENT_FUNDS" then .badRequest "Недостатньо коштів" else .error message

/-- A wallet of an owner; an id in any spelling names it. -/
def Database.walletOf (db : Database) (walletId ownerId : String) : Option Wallet :=
  db.wallets.find? fun wallet => wallet.id = uuid walletId ∧ wallet.ownerId = ownerId

/-- `findOne`, or the error when there is no row. -/
def findOrThrow {α : Type} (e : LedgerError) (f : Database → Option α) : LedgerTx α := do
  match ← Tx.query f with
  | some a => return a
  | none => .abort e

def executeMoneyCommandAttempt (walletId ownerId : String) (amountMinor : Int)
    (operation : MoneyOperation) (eventId transactionId : String) (draw : Draw) :
    LedgerTx Reply := do
  let wallet ← findOrThrow (.notFound "Гаманець не знайдено") fun db => db.walletOf walletId ownerId
  let aggregate ← rehydrateStream walletId (uuid walletId)
  Tx.ofExcept (assertAggregateIdentity wallet aggregate)
  let domainEvent ← Tx.ofExcept (decideMoney operation aggregate amountMinor eventId transactionId)
  let stored ← appendEvent wallet.id aggregate.version domainEvent draw.now
  enqueueWalletEvents wallet draw.carrier [stored]
  let projection ← projectApplied aggregate stored
  return .wallet (toView wallet projection)

def executeMoneyCommand (walletId ownerId : String) (amount : ℚ) (operation : MoneyOperation)
    (draw : Nat → Draw) : LedgerProg Reply :=
  match toMinorUnits "Сума повинна бути додатною" amount with
  | .error e => .done (.error e)
  | .ok amountMinor =>
    retrying isExpectedStreamVersionError "Unreachable concurrency retry state"
      (fun attempt => executeMoneyCommandAttempt walletId ownerId amountMinor operation
        (draw 0).eventId (draw 0).transactionId (draw attempt))
      1 MAX_CONCURRENCY_RETRIES

/-! ### Holds -/

inductive HoldOperation where
  | place
  | release
  | consume
deriving DecidableEq

/-- The domain event of a hold command, if it has anything left to do. -/
def decideHold (operation : HoldOperation) (amountMinor : Option Int) (allowMissingRelease : Bool)
    (a : WalletAggregate) (holdId eventId transactionId : String) :
    Except LedgerError (Option EventData) :=
  let decided : Except String (Option EventData) :=
    match operation with
    | .place =>
      match amountMinor with
      | none => .error "Hold amount is required"
      | some amountMinor => a.placeHold holdId amountMinor eventId
    | .release =>
      if allowMissingRelease ∧ holdId ∉ a.holds then .ok none else a.releaseHold holdId eventId
    | .consume => a.consumeHold holdId eventId transactionId
  decided.mapError throwHoldDomainError

def executeHoldCommandAttempt (walletId ownerId holdId : String) (operation : HoldOperation)
    (amountMinor : Option Int) (allowMissingRelease : Bool) (eventId transactionId : String)
    (draw : Draw) : LedgerTx Reply := do
  let wallet ← findOrThrow (.notFound "Гаманець не знайдено") fun db => db.walletOf walletId ownerId
  let aggregate ← rehydrateStream walletId (uuid walletId)
  Tx.ofExcept (assertAggregateIdentity wallet aggregate)
  match ← Tx.ofExcept (decideHold operation amountMinor allowMissingRelease aggregate holdId eventId
      transactionId) with
  | none => return .wallet (toView wallet (projectionFromAggregate aggregate))
  | some domainEvent => do
    let stored ← appendEvent (uuid walletId) aggregate.version domainEvent draw.now
    enqueueWalletEvents wallet draw.carrier [stored]
    let projection ← projectApplied aggregate stored
    return .wallet (toView wallet projection)

def executeHoldCommand (walletId ownerId holdId : String) (operation : HoldOperation)
    (amountMinor : Option Int) (allowMissingRelease : Bool) (draw : Nat → Draw) : LedgerProg Reply :=
  retrying isExpectedStreamVersionError "Unreachable hold concurrency retry state"
    (fun attempt => executeHoldCommandAttempt walletId ownerId holdId operation amountMinor
      allowMissingRelease (draw 0).eventId (draw 0).transactionId (draw attempt))
    1 MAX_CONCURRENCY_RETRIES

def placeHold (walletId ownerId holdId : String) (amount : ℚ) (draw : Nat → Draw) :
    LedgerProg Reply :=
  match toMinorUnits "Сума повинна бути додатною" amount with
  | .error e => .done (.error e)
  | .ok amountMinor => executeHoldCommand walletId ownerId holdId .place (some amountMinor) false draw

def releaseHold (walletId ownerId holdId : String) (draw : Nat → Draw) : LedgerProg Reply :=
  executeHoldCommand walletId ownerId holdId .release none false draw

def consumeHold (walletId ownerId holdId : String) (draw : Nat → Draw) : LedgerProg Reply :=
  executeHoldCommand walletId ownerId holdId .consume none false draw

/-! ### Wallet creation -/

/-- The wallet of an owner in a currency. -/
def Database.walletIn (db : Database) (ownerId currency : String) : Option Wallet :=
  db.wallets.find? fun wallet => wallet.ownerId = ownerId ∧ wallet.currency = currency

/-- The transaction that creates a wallet with its first event and its projection. -/
def createWallet (userId currency : String) (draw : Draw) : LedgerTx Reply := do
  match ← Tx.query fun db => db.walletIn userId currency with
  | some raced => do
    let projection ← findOrThrow (entityNotFound "WalletBalanceProjection") fun db =>
      db.projectionOf raced.id
    return .wallet (toView raced projection)
  | none => do
    let wallet : Wallet := { id := draw.walletId, ownerId := userId, currency }
    Tx.write (insertWallet wallet)
    let created ← appendEvent wallet.id 0
      (WalletAggregate.createdEvent draw.eventId userId currency) draw.now
    enqueueWalletEvents wallet draw.carrier [created]
    let projection : WalletBalanceProjection :=
      { walletId := wallet.id, balanceMinor := 0, heldMinor := 0, availableMinor := 0,
        streamVersion := created.streamVersion }
    Tx.write (saveProjection projection)
    return .wallet (toView wallet projection)

/-- The view of a wallet with its projection, read outside a transaction. -/
def readView (wallet : Wallet) : LedgerProg Reply := do
  match ← Prog.read fun db => db.projectionOf wallet.id with
  | some projection => return .wallet (toView wallet projection)
  | none => throw (.error ("Missing balance projection for wallet " ++ wallet.id))

def getOrCreateForUser (userId currency : String) (draw : Draw) : LedgerProg Reply := do
  match ← Prog.read fun db => db.walletIn userId currency with
  | some existing => readView existing
  | none =>
    .transaction (createWallet userId currency draw) fun
      | .ok reply => .done (.ok reply)
      | .error e =>
        if isUniqueViolation e then do
          match ← Prog.read fun db => db.walletIn userId currency with
          | some wallet => readView wallet
          | none => throw (.error "Wallet creation did not produce a persistent wallet")
        else .done (.error e)

/-! ### Transfers -/

structure ValidateInternalTransferDto where
  transferId : String
  senderUserId : String
  senderWalletId : String
  receiverReference : String
  amount : ℚ
  currency : String
  targetCurrency : Option String
  destinationAmount : Option ℚ

structure HoldInternalTransferDto where
  senderUserId : String
  senderWalletId : String
  amount : ℚ

structure ReleaseInternalTransferDto where
  senderUserId : String
  senderWalletId : String

structure SettleInternalTransferDto where
  senderUserId : String
  senderWalletId : String
  receiverWalletId : String
  amount : ℚ
  currency : String
  targetCurrency : Option String
  destinationAmount : Option ℚ

/-- A hexadecimal digit of either case. -/
def isHex (c : Char) : Bool := c.isDigit || c.toLower ∈ ['a', 'b', 'c', 'd', 'e', 'f']

/-- `/^[0-9a-f]{8}-[0-9a-f]{4}-[1-5][0-9a-f]{3}-[89ab][0-9a-f]{3}-[0-9a-f]{12}$/i`. -/
def isUuid (value : String) : Bool :=
  let chars := value.toList
  chars.length = 36 ∧ chars.zipIdx.all fun (c, index) =>
    if index ∈ [8, 13, 18, 23] then c = '-'
    else if index = 14 then c ∈ ['1', '2', '3', '4', '5']
    else if index = 19 then c.toLower ∈ ['8', '9', 'a', 'b']
    else isHex c

/-- `text ILIKE pattern`. -/
def iLike (lower : String → String) (text pattern : String) : LikePattern.Outcome :=
  LikePattern.compare (lower pattern).toList false (lower text).toList

/-- The first of the users whose e-mail is like the reference. -/
def firstLike (lower : String → String) (reference : String) :
    List User → Except LedgerError (Option User)
  | [] => .ok none
  | user :: users =>
    match iLike lower user.email reference with
    | .matched => .ok (some user)
    | .invalid => .error (.queryFailed "22025")
    | _ => firstLike lower reference users

/-- The user that `ILIKE` finds for a reference. -/
def Database.userLike (db : Database) (lower : String → String) (reference : String) :
    Except LedgerError (Option User) :=
  firstLike lower reference db.users

/-- The receiver's wallet by the owner's e-mail, created when the user has none in the target
currency. -/
def findReceiverByEmail (receiverReference targetCurrency : String) (draw : Draw) :
    LedgerProg Wallet := do
  match ← Prog.read fun db => db.userLike draw.lower receiverReference with
  | .error e => throw e
  | .ok none => throw (.notFound "Receiver not found")
  | .ok (some receiverUser) =>
    match ← Prog.read fun db => db.walletIn receiverUser.id targetCurrency with
    | some receiver => return receiver
    | none =>
      match ← getOrCreateForUser receiverUser.id targetCurrency draw with
      | .wallet created =>
        match ← Prog.read fun db => db.walletById created.id with
        | some receiver => return receiver
        | none => throw (entityNotFound "Wallet")
      | _ => throw (.typeError "Cannot read properties of undefined")

/-- The receiver's wallet: by its id, or by the owner's e-mail. -/
def findReceiver (receiverReference targetCurrency : String) (draw : Draw) : LedgerProg Wallet := do
  let byId ← if isUuid receiverReference then
      Prog.read fun db => db.wallets.find? fun wallet =>
        wallet.id = uuid receiverReference ∧ wallet.currency = targetCurrency
    else pure none
  match byId with
  | some receiver => return receiver
  | none => findReceiverByEmail receiverReference targetCurrency draw

/-- The part of `validateTransfer` after the amounts. -/
def validateWallets (command : ValidateInternalTransferDto) (draw : Draw) : LedgerProg Reply := do
  match ← Prog.read fun db => db.wallets.find? fun wallet => wallet.id = uuid command.senderWalletId ∧
      wallet.ownerId = command.senderUserId ∧ wallet.currency = command.currency with
  | none => throw (.notFound "Sender wallet not found")
  | some sender =>
    let receiver ← findReceiver command.receiverReference
      (command.targetCurrency.getD command.currency) draw
    if receiver.id = sender.id then throw (.badRequest "Sender and receiver wallets must differ")
    else return .validated receiver.id

def validateTransfer (command : ValidateInternalTransferDto) (draw : Draw) : LedgerProg Reply := do
  let _ ← .done (toPositiveMinorUnits command.amount)
  match command.destinationAmount with
  | some destinationAmount =>
    let _ ← .done (toPositiveMinorUnits destinationAmount)
  | none => pure ()
  validateWallets command draw

def placeTransferHold (transferId : String) (command : HoldInternalTransferDto)
    (draw : Nat → Draw) : LedgerProg Reply :=
  placeHold command.senderWalletId command.senderUserId transferId command.amount draw

/-- The receipt exists. -/
def settlementExists (transferId : String) : LedgerProg Bool :=
  Prog.read fun db => db.settlements.any fun row => row.transferId = transferId

def releaseTransferHold (transferId : String) (command : ReleaseInternalTransferDto)
    (draw : Nat → Draw) : LedgerProg Reply := do
  if ← settlementExists transferId then return .alreadySettled
  else
    (executeHoldCommand command.senderWalletId command.senderUserId transferId .release none true
      draw).attempt fun
      | .ok _ => return .released
      | .error e => do
        if ← settlementExists transferId then return .alreadySettled else throw e

def assertSettlementMatches (settlement : LedgerTransferSettlement)
    (command : SettleInternalTransferDto) (amountMinor destinationAmountMinor : Int)
    (destinationCurrency : String) : Except LedgerError Unit :=
  if settlement.senderWalletId ≠ command.senderWalletId ∨
      settlement.receiverWalletId ≠ command.receiverWalletId ∨
      settlement.amountMinor ≠ amountMinor ∨ settlement.currency ≠ command.currency ∨
      settlement.destinationAmountMinor ≠ destinationAmountMinor ∨
      settlement.destinationCurrency ≠ destinationCurrency then
    .error (.conflict "Transfer ID was already settled with different parameters")
  else .ok ()

/-- `findOneByOrFail` outside a transaction. -/
def readOrThrow {α : Type} (e : LedgerError) (f : Database → Option α) : LedgerProg α := do
  match ← Prog.read f with
  | some a => return a
  | none => throw e

/-- `readSettlementWallets` on the pool's connections. -/
def readSettlementWallets (settlement : LedgerTransferSettlement) : LedgerProg Reply := do
  let sender ← readOrThrow (entityNotFound "Wallet") fun db => db.walletById settlement.senderWalletId
  let receiver ← readOrThrow (entityNotFound "Wallet") fun db =>
    db.walletById settlement.receiverWalletId
  let senderProjection ← readOrThrow (entityNotFound "WalletBalanceProjection") fun db =>
    db.projectionOf settlement.senderWalletId
  let receiverProjection ← readOrThrow (entityNotFound "WalletBalanceProjection") fun db =>
    db.projectionOf settlement.receiverWalletId
  return .settled (toView sender senderProjection) (toView receiver receiverProjection)

/-- `readSettlementWallets` with the manager of a transaction. -/
def findSettlementWallets (settlement : LedgerTransferSettlement) : LedgerTx Reply := do
  let sender ← findOrThrow (entityNotFound "Wallet") fun db => db.walletById settlement.senderWalletId
  let receiver ← findOrThrow (entityNotFound "Wallet") fun db =>
    db.walletById settlement.receiverWalletId
  let senderProjection ← findOrThrow (entityNotFound "WalletBalanceProjection") fun db =>
    db.projectionOf settlement.senderWalletId
  let receiverProjection ← findOrThrow (entityNotFound "WalletBalanceProjection") fun db =>
    db.projectionOf settlement.receiverWalletId
  return .settled (toView sender senderProjection) (toView receiver receiverProjection)

/-- The debit event of a settlement: the hold of the transfer, for exactly its amount. -/
def decideDebit (transferId : String) (amountMinor : Int) (sender : WalletAggregate)
    (eventId : String) : Except LedgerError EventData :=
  match sender.holds.lookup transferId with
  | none => .error (.notFound "Transfer hold not found")
  | some hold =>
    if hold.amountMinor ≠ amountMinor then
      .error (.conflict "Transfer hold amount does not match")
    else
      match sender.consumeHold transferId eventId transferId with
      | .error message => .error (throwHoldDomainError message)
      | .ok none => .error (.conflict "Transfer was consumed without a receipt")
      | .ok (some debitEvent) => .ok debitEvent

/-- The body of the settlement transaction.  Its wallet ids are taken to be spelled as the databases
print them: the payments service reads them from `uuid` columns. -/
def settleTransferAttempt (transferId : String) (command : SettleInternalTransferDto)
    (amountMinor destinationAmountMinor : Int) (destinationCurrency : String) (draw : Draw) :
    LedgerTx Reply := do
  match ← Tx.query fun db => db.settlementOf transferId with
  | some raced => do
    Tx.ofExcept (assertSettlementMatches raced command amountMinor destinationAmountMinor
      destinationCurrency)
    findSettlementWallets raced
  | none => do
    let sender ← Tx.query fun db => db.wallets.find? fun wallet =>
      wallet.id = command.senderWalletId ∧ wallet.ownerId = command.senderUserId ∧
        wallet.currency = command.currency
    let receiver ← Tx.query fun db => db.wallets.find? fun wallet =>
      wallet.id = command.receiverWalletId ∧ wallet.currency = destinationCurrency
    match sender, receiver with
    | some sender, some receiver =>
      if sender.id = receiver.id then .abort (.badRequest "Sender and receiver wallets must differ")
      else do
        let senderAggregate ← rehydrateStream sender.id
        let receiverAggregate ← rehydrateStream receiver.id
        Tx.ofExcept (assertAggregateIdentity sender senderAggregate)
        Tx.ofExcept (assertAggregateIdentity receiver receiverAggregate)
        let debitEvent ← Tx.ofExcept
          (decideDebit transferId amountMinor senderAggregate draw.eventId)
        let creditEvent ← Tx.ofExcept
          ((receiverAggregate.deposit destinationAmountMinor draw.creditEventId
            transferId).mapError .error)
        let storedDebit ← appendEvent sender.id senderAggregate.version debitEvent draw.now
        let storedCredit ← appendEvent receiver.id receiverAggregate.version creditEvent draw.now
        enqueueWalletEvents sender draw.carrier [storedDebit]
        enqueueWalletEvents receiver draw.carrier [storedCredit]
        let senderProjection ← projectApplied senderAggregate storedDebit
        let receiverProjection ← projectApplied receiverAggregate storedCredit
        Tx.write (insertSettlement
          { transferId, senderWalletId := sender.id, receiverWalletId := receiver.id, amountMinor,
            currency := command.currency, destinationAmountMinor, destinationCurrency })
        return .settled (toView sender senderProjection) (toView receiver receiverProjection)
    | _, _ => .abort (.notFound "Transfer wallet not found")

/-- The attempts of a settlement, each after a look for the receipt. -/
def settleTransferLoop (transferId : String) (command : SettleInternalTransferDto)
    (amountMinor destinationAmountMinor : Int) (destinationCurrency : String) (draw : Nat → Draw) :
    Nat → Nat → LedgerProg Reply
  | _, 0 => .done (.error (.error "Unreachable transfer settlement concurrency retry state"))
  | attempt, left + 1 => do
    match ← Prog.read fun db => db.settlementOf transferId with
    | some completed => do
      .done (assertSettlementMatches completed command amountMinor destinationAmountMinor
        destinationCurrency)
      readSettlementWallets completed
    | none =>
      .transaction (settleTransferAttempt transferId command amountMinor destinationAmountMinor
        destinationCurrency (draw attempt)) fun
        | .ok reply => .done (.ok reply)
        | .error e =>
          if (isExpectedStreamVersionError e ∨ isUniqueViolation e) ∧ left ≠ 0 then
            settleTransferLoop transferId command amountMinor destinationAmountMinor
              destinationCurrency draw (attempt + 1) left
          else .done (.error e)

def settleTransfer (transferId : String) (command : SettleInternalTransferDto)
    (draw : Nat → Draw) : LedgerProg Reply := do
  let amountMinor ← .done (toPositiveMinorUnits command.amount)
  let destinationAmountMinor ← .done
    (toPositiveMinorUnits (command.destinationAmount.getD command.amount))
  settleTransferLoop transferId command amountMinor destinationAmountMinor
    (command.targetCurrency.getD command.currency) draw 1 MAX_CONCURRENCY_RETRIES

/-! ### All commands -/

/-- The commands of the two controllers. -/
inductive Command where
  | getOrCreateForUser (userId currency : String)
  | deposit (walletId ownerId : String) (amount : ℚ)
  | withdraw (walletId ownerId : String) (amount : ℚ)
  | placeHold (walletId ownerId holdId : String) (amount : ℚ)
  | releaseHold (walletId ownerId holdId : String)
  | consumeHold (walletId ownerId holdId : String)
  | validateTransfer (dto : ValidateInternalTransferDto)
  | placeTransferHold (transferId : String) (dto : HoldInternalTransferDto)
  | releaseTransferHold (transferId : String) (dto : ReleaseInternalTransferDto)
  | settleTransfer (transferId : String) (dto : SettleInternalTransferDto)

/-- The program of a command. -/
def Command.program (draw : Nat → Draw) : Command → LedgerProg Reply
  | .getOrCreateForUser userId currency => Ledger.getOrCreateForUser userId currency (draw 0)
  | .deposit walletId ownerId amount => executeMoneyCommand walletId ownerId amount .deposit draw
  | .withdraw walletId ownerId amount => executeMoneyCommand walletId ownerId amount .withdraw draw
  | .placeHold walletId ownerId holdId amount => Ledger.placeHold walletId ownerId holdId amount draw
  | .releaseHold walletId ownerId holdId => Ledger.releaseHold walletId ownerId holdId draw
  | .consumeHold walletId ownerId holdId => Ledger.consumeHold walletId ownerId holdId draw
  | .validateTransfer dto => Ledger.validateTransfer dto (draw 0)
  | .placeTransferHold transferId dto => Ledger.placeTransferHold transferId dto draw
  | .releaseTransferHold transferId dto => Ledger.releaseTransferHold transferId dto draw
  | .settleTransfer transferId dto => Ledger.settleTransfer transferId dto draw

end Ledger

end PeerLedger
