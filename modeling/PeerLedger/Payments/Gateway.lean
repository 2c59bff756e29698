import PeerLedger.Ledger.Wallets
import PeerLedger.Payments.Outbox

/-!
# The HTTP client of the ledger

`LedgerHttpClient` of `ledger.gateway.ts`: the requests that it builds from a transfer, and `request`
with its bounded attempts.  What a fetch comes back with is the answer to a question that the program
asks (`Ask`), and so is the state of the circuit breaker, which lives in the memory of the process.
-/

namespace PeerLedger

namespace Payments

open Transactions

/-- An item of the array that the driver's `query()` resolves to. -/
inductive RawItem where
  | rows (ids : List String)
  | affected (count : Nat)

/-- The results of the transactions. -/
inductive Reply where
  /-- The raw result of the statement of `claim`. -/
  | claimed (raw : List RawItem)
  /-- The row that `claim` returns. -/
  | found (row : Transfer)
  /-- The number of rows that an update changed. -/
  | affected (count : Nat)
  /-- A row as its transaction sees it. -/
  | transfer (row : Transfer)

/-- The body of a response, as `response.json().catch(() => ({}))` leaves it: `none` and `none` is
the empty object. -/
structure Body where
  reply : Option Ledger.Reply := none
  message : Option String := none

/-- How a fetch ends. -/
inductive FetchOutcome where
  /-- The timeout aborted it. -/
  | aborted
  /-- It was rejected with another error. -/
  | rejected (message : String)
  | response (status : Nat) (body : Body)

/-- What the client asks of its surroundings. -/
inductive Ask where
  /-- Is `Date.now() < this.openUntil`? -/
  | circuitOpen
  /-- The request of a ledger command is sent. -/
  | fetch (command : Ledger.Command)
  /-- `this.consecutiveFailures = 0; this.openUntil = 0`. -/
  | recordSuccess
  /-- `this.recordFailure()`; then, is `Date.now() >= this.openUntil`? -/
  | recordFailure

inductive Answer where
  | flag (b : Bool)
  | fetched (outcome : FetchOutcome)

/-- The answer to a question about the circuit breaker. -/
def Answer.isTrue : Answer → Bool
  | flag b => b
  | fetched _ => false

/-- The answer to a request. -/
def Answer.outcome : Answer → FetchOutcome
  | fetched outcome => outcome
  | flag _ => .rejected ""

abbrev PaymentsProg := Prog Database Write PaymentsError Reply Ask Answer

/-! ### Responses -/

/-- `response.ok`. -/
def isOk (status : Nat) : Bool := 200 ≤ status ∧ status ≤ 299

/-- The statuses after which a request is tried again. -/
def isRetryable (status : Nat) : Bool := status = 408 ∨ status = 429 ∨ 500 ≤ status

/-- The body or the error that a fetch ends with. -/
def FetchOutcome.result : FetchOutcome → Except PaymentsError Body
  | .aborted => .error (.ledgerCommand
      { message := "Ledger request timed out", kind := .retryable, code := "LEDGER_TIMEOUT",
        ambiguous := true })
  | .rejected message => .error (.ledgerCommand
      { message, kind := .retryable, code := "LEDGER_UNAVAILABLE", ambiguous := true })
  | .response status body =>
    if isOk status then .ok body
    else .error (.ledgerCommand
      { message := body.message.getD ("Ledger returned HTTP " ++ toString status),
        kind := if isRetryable status then .retryable else .terminal,
        code := "LEDGER_HTTP_" ++ toString status, ambiguous := isRetryable status })

/-- `payload.receiverWalletId`. -/
def Body.receiverWalletId (body : Body) : Option String :=
  match body.reply with
  | some (.validated receiverWalletId) => some receiverWalletId
  | _ => none

inductive ReleaseOutcome where
  | released
  | alreadySettled
deriving DecidableEq

/-- `payload.outcome`. -/
def Body.outcome (body : Body) : Option ReleaseOutcome :=
  match body.reply with
  | some .released => some .released
  | some .alreadySettled => some .alreadySettled
  | _ => none

/-! ### Requests -/

def fetchOnce (config : Config) (command : Ledger.Command) : PaymentsProg Body :=
  if config.serviceToken then .call (.fetch command) fun answer => .done answer.outcome.result
  else throw (.ledgerCommand
    { message := "Payments service credential is not configured", kind := .terminal,
      code := "LEDGER_CLIENT_NOT_CONFIGURED", ambiguous := false })

def classify : PaymentsError → LedgerCommandError
  | .ledgerCommand e => e
  | e => { message := e.message, kind := .retryable, code := "LEDGER_UNAVAILABLE", ambiguous := true }

/-- The attempts of a request that are left. -/
def requestAttempts (config : Config) (command : Ledger.Command) :
    Nat → LedgerCommandError → PaymentsProg Body
  | 0, lastError => throw (.ledgerCommand lastError)
  | left + 1, _ => (fetchOnce config command).attempt fun
    | .ok body => .call .recordSuccess fun _ => .done (.ok body)
    | .error e =>
      if (classify e).kind = .terminal then throw (.ledgerCommand (classify e))
      else .call .recordFailure fun closed =>
        if left ≠ 0 ∧ closed.isTrue then requestAttempts config command left (classify e)
        else throw (.ledgerCommand (classify e))

def request (config : Config) (command : Ledger.Command) : PaymentsProg Body :=
  .call .circuitOpen fun opened =>
    if opened.isTrue then throw (.ledgerCommand
      { message := "Ledger circuit breaker is open", kind := .retryable,
        code := "LEDGER_CIRCUIT_OPEN", ambiguous := true })
    else requestAttempts config command config.ledgerHttpMaxAttempts
      { message := "Ledger request failed", kind := .retryable, code := "LEDGER_UNAVAILABLE",
        ambiguous := true }

/-- Minor units as an amount. -/
def amount (amountMinor : Int) : ℚ := amountMinor / 100

/-- The command that `validate` requests. -/
def validateCommand (transfer : Transfer) : Ledger.Command :=
  .validateTransfer
    { transferId := transfer.id, senderUserId := transfer.senderUserId,
      senderWalletId := transfer.senderWalletId, receiverReference := transfer.receiverReference,
      amount := amount transfer.amountMinor, currency := transfer.currency,
      targetCurrency := some transfer.destinationCurrency,
      destinationAmount := some (amount transfer.destinationAmountMinor) }

/-- The command that `placeHold` requests. -/
def placeHoldCommand (transfer : Transfer) : Ledger.Command :=
  .placeTransferHold transfer.id
    { senderUserId := transfer.senderUserId, senderWalletId := transfer.senderWalletId,
      amount := amount transfer.amountMinor }

/-- The body of the request of `settle`. -/
def settleDto (transfer : Transfer) (receiverWalletId : String) :
    Ledger.SettleInternalTransferDto :=
  { senderUserId := transfer.senderUserId, senderWalletId := transfer.senderWalletId,
    receiverWalletId, amount := amount transfer.amountMinor, currency := transfer.currency,
    targetCurrency := some transfer.destinationCurrency,
    destinationAmount := some (amount transfer.destinationAmountMinor) }

/-- The command that `release` requests. -/
def releaseCommand (transfer : Transfer) : Ledger.Command :=
  .releaseTransferHold transfer.id
    { senderUserId := transfer.senderUserId, senderWalletId := transfer.senderWalletId }

def validate (config : Config) (transfer : Transfer) : PaymentsProg (Option String) := do
  let body ← request config (validateCommand transfer)
  return body.receiverWalletId

def placeHold (config : Config) (transfer : Transfer) : PaymentsProg Unit := do
  let _ ← request config (placeHoldCommand transfer)

def settle (config : Config) (transfer : Transfer) : PaymentsProg Unit :=
  match transfer.receiverWalletId with
  | none => throw (.ledgerCommand
      { message := "Receiver wallet was not resolved", kind := .terminal,
        code := "RECEIVER_NOT_RESOLVED", ambiguous := false })
  | some receiverWalletId => do
    let _ ← request config (.settleTransfer transfer.id (settleDto transfer receiverWalletId))

def release (config : Config) (transfer : Transfer) : PaymentsProg (Option ReleaseOutcome) := do
  let body ← request config (releaseCommand transfer)
  return body.outcome

end Payments

end PeerLedger
