import PeerLedger.Ledger.Balances

/-!
# Transfers

The state machine of a transfer (`transfer-status.ts`), its FX quote (`fx-quote.ts`), its row
(`transfer.entity.ts`), and the checks that the policy makes before money is held
(`transfer-policy.service.ts`).

The `bigint` columns and the `BigInt` values that the service computes from them are integers, and
times are milliseconds.
-/

namespace PeerLedger

namespace Payments

/-! ### Status -/

inductive TransferStatus where
  | pending
  | validating
  | fundsHeld
  | processing
  | completed
  | compensating
  | failed
deriving DecidableEq

namespace TransferStatus

/-- The text of a status in the database. -/
def text : TransferStatus → String
  | pending => "Pending"
  | validating => "Validating"
  | fundsHeld => "FundsHeld"
  | processing => "Processing"
  | completed => "Completed"
  | compensating => "Compensating"
  | failed => "Failed"

/-- `ALLOWED_TRANSITIONS`. -/
def allowedTransitions : TransferStatus → List TransferStatus
  | pending => [validating, failed]
  | validating => [fundsHeld, compensating, failed]
  | fundsHeld => [processing, compensating]
  | processing => [completed, compensating]
  | compensating => [completed, failed]
  | completed => []
  | failed => []

/-- `TERMINAL_STATUSES`. -/
def isTerminal (status : TransferStatus) : Bool := status ∈ [completed, failed]

end TransferStatus

/-! ### Errors -/

inductive LedgerFailureKind where
  | retryable
  | terminal
deriving DecidableEq

structure LedgerCommandError where
  message : String
  kind : LedgerFailureKind
  code : String
  /-- The command may have taken effect. -/
  ambiguous : Bool
deriving DecidableEq

/-- The errors that the payments service throws. -/
inductive PaymentsError where
  | sagaLeaseLost
  | ledgerCommand (e : LedgerCommandError)
  | invalidTransferTransition (current next : TransferStatus)
  | badRequest (message : String)
  | conflict (message : String)
  | notFound (message : String)
  /-- `EntityNotFoundError` of `findOneByOrFail`. -/
  | entityNotFound (entity : String)
  /-- A database error `23505`, with the name of the violated constraint. -/
  | uniqueViolation (constraint : String)
  /-- Any other database error, with its code. -/
  | queryFailed (code message : String)
  /-- A plain `Error`. -/
  | error (message : String)
deriving DecidableEq

/-- `error.message`. -/
def PaymentsError.message : PaymentsError → String
  | sagaLeaseLost => "Saga lease was lost"
  | ledgerCommand e => e.message
  | invalidTransferTransition current next =>
    "Invalid transfer transition: " ++ current.text ++ " -> " ++ next.text
  | badRequest message => message
  | conflict message => message
  | notFound message => message
  | entityNotFound entity => "Could not find any entity of type \"" ++ entity ++ "\""
  | uniqueViolation constraint =>
    "duplicate key value violates unique constraint \"" ++ constraint ++ "\""
  | queryFailed _ message => message
  | error message => message

def assertTransferTransition (current next : TransferStatus) : Except PaymentsError Unit :=
  if next ∈ current.allowedTransitions then .ok ()
  else .error (.invalidTransferTransition current next)

/-! ### FX quotes -/

def SUPPORTED_CURRENCIES : List String := ["USD", "EUR", "UAH"]

def isSupportedCurrency (value : String) : Bool := value ∈ SUPPORTED_CURRENCIES

/-- The value of one major unit in micro-USD; only read at supported currencies. -/
def MICRO_USD_VALUE (currency : String) : Int :=
  if currency = "USD" then 1000000
  else if currency = "EUR" then 1087000
  else if currency = "UAH" then 24390
  else 0

structure FxQuote where
  destinationAmountMinor : Int
  rateNumerator : Int
  rateDenominator : Int
  displayRate : String
  quotedAt : Int
  expiresAt : Int
deriving DecidableEq

/-- The rate with eight decimal places. -/
def formatRate (numerator denominator : Int) : String :=
  let scale : Int := 100000000
  let scaled := (numerator * scale + denominator.tdiv 2).tdiv denominator
  toString (scaled.tdiv scale) ++ "." ++ Ledger.padStart 8 '0' (toString (scaled.tmod scale))

def quoteTransfer (source : Int) (sourceCurrency destinationCurrency : String) (quotedAt : Int) :
    Except PaymentsError FxQuote :=
  if !isSupportedCurrency sourceCurrency || !isSupportedCurrency destinationCurrency then
    .error (.badRequest "Unsupported currency")
  else if source ≤ 0 then .error (.badRequest "Invalid transfer amount")
  else
    let numerator := MICRO_USD_VALUE sourceCurrency
    let denominator := MICRO_USD_VALUE destinationCurrency
    let destination := (source * numerator + denominator.tdiv 2).tdiv denominator
    if destination ≤ 0 then .error (.badRequest "FX result is below one minor unit")
    else .ok
      { destinationAmountMinor := destination, rateNumerator := numerator,
        rateDenominator := denominator, displayRate := formatRate numerator denominator, quotedAt,
        expiresAt := quotedAt + 15 * 60000 }

/-! ### Rows -/

/-- A row of `transfers`. -/
structure Transfer where
  id : String
  senderUserId : String
  senderWalletId : String
  receiverReference : String
  receiverWalletId : Option String
  splitBillShareId : Option String
  amountMinor : Int
  currency : String
  destinationCurrency : String
  destinationAmountMinor : Int
  fxRateNumerator : Int
  fxRateDenominator : Int
  fxDisplayRate : String
  fxQuotedAt : Int
  fxExpiresAt : Int
  status : TransferStatus
  idempotencyKey : String
  requestFingerprint : String
  failureCode : Option String
  failureMessage : Option String
  retryCount : Nat
  nextRetryAt : Option Int
  holdMayExist : Bool
  leaseOwner : Option String
  leaseUntil : Option Int
  version : Int
  createdAt : Int
deriving DecidableEq

/-- What a transfer request comes down to. -/
structure CanonicalTransferRequest where
  senderUserId : String
  senderWalletId : String
  receiverReference : String
  amountMinor : Int
  currency : String
  destinationCurrency : String
  splitBillShareId : Option String
deriving DecidableEq

/-- The row of a new transfer. -/
def newTransfer (id : String) (canonical : CanonicalTransferRequest) (quote : FxQuote)
    (idempotencyKey requestFingerprint : String) (createdAt : Int) : Transfer :=
  { id, senderUserId := canonical.senderUserId, senderWalletId := canonical.senderWalletId,
    receiverReference := canonical.receiverReference, receiverWalletId := none,
    splitBillShareId := canonical.splitBillShareId, amountMinor := canonical.amountMinor,
    currency := canonical.currency, destinationCurrency := canonical.destinationCurrency,
    destinationAmountMinor := quote.destinationAmountMinor, fxRateNumerator := quote.rateNumerator,
    fxRateDenominator := quote.rateDenominator, fxDisplayRate := quote.displayRate,
    fxQuotedAt := quote.quotedAt, fxExpiresAt := quote.expiresAt, status := .pending,
    idempotencyKey, requestFingerprint, failureCode := none, failureMessage := none,
    retryCount := 0, nextRetryAt := none, holdMayExist := false, leaseOwner := none,
    leaseUntil := none, version := 1, createdAt }

/-- The row with another lease. -/
def Transfer.lease (row : Transfer) (owner : Option String) (until_ : Option Int) : Transfer :=
  { row with leaseOwner := owner, leaseUntil := until_ }

/-- The row without its lease: what the version of a row stands for. -/
def Transfer.unleased (row : Transfer) : Transfer := row.lease none none

/-! ### Policy -/

/-- The settings of the payments service. -/
structure Config where
  /-- `SAGA_MAX_STEP_ATTEMPTS`. -/
  sagaMaxStepAttempts : Nat := 3
  /-- `SAGA_RETRY_BASE_MS`. -/
  sagaRetryBaseMs : Int := 1000
  /-- `SAGA_LEASE_MS`. -/
  sagaLeaseMs : Int := 30000
  /-- `LEDGER_HTTP_MAX_ATTEMPTS`. -/
  ledgerHttpMaxAttempts : Nat := 3
  /-- `PAYMENTS_SERVICE_TOKEN` is set. -/
  serviceToken : Bool := true
  /-- `MAX_TRANSFER_AMOUNT` in minor units. -/
  maximumMinor : Int := 1000000
  /-- The trimmed, lower case entries of `BLOCKED_RECEIVER_REFERENCES`. -/
  blocked : List String := []
  /-- `String.prototype.trim`. -/
  trim : String → String := id
  /-- `String.prototype.toLowerCase`. -/
  toLowerCase : String → String := id
  /-- `String.prototype.toUpperCase`. -/
  toUpperCase : String → String := id
  /-- `Date.prototype.toISOString`. -/
  isoString : Int → String := toString
  /-- The SHA-256 digest of the JSON text of a request. -/
  fingerprint : CanonicalTransferRequest → String

/-- The error of a rejected transfer. -/
def reject (code message : String) : PaymentsError :=
  .ledgerCommand { message, kind := .terminal, code, ambiguous := false }

/-- `TransferPolicyService.validate`. -/
def Config.validate (config : Config) (transfer : Transfer) (now : Int) :
    Except PaymentsError Unit :=
  if !isSupportedCurrency transfer.currency || !isSupportedCurrency transfer.destinationCurrency then
    .error (reject "UNSUPPORTED_CURRENCY" "Currency is not supported")
  else if config.maximumMinor < transfer.amountMinor then
    .error (reject "TRANSFER_LIMIT_EXCEEDED" "Transfer amount exceeds the configured limit")
  else if config.toLowerCase transfer.receiverReference ∈ config.blocked then
    .error (reject "RECEIVER_BLOCKED" "Receiver is blocked by transfer policy")
  else if transfer.fxExpiresAt ≤ now then
    .error (reject "FX_QUOTE_EXPIRED" "Persisted FX quote has expired")
  else .ok ()

end Payments

end PeerLedger
