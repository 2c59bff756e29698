import PeerLedger.Payments.Gateway
import Mathlib.Data.List.Sort

/-!
# The transfer saga

`TransferSagaService` of `transfer-saga.service.ts` as a program: `run` claims the lease of a
transfer and takes it through its statuses, at most eight steps at a time, with every ledger request,
row update and error path; `recoverDue` runs the transfers that are due.

Every update of a row is fenced: it matches the row only while the version, and the lease owner, are
those that the worker has.
-/

namespace PeerLedger

namespace Payments

open Transactions

/-- What one `run` takes from outside. -/
structure RunDraw where
  /-- `randomUUID()` for the lease. -/
  leaseOwner : String
  /-- The row is locked by another transaction when `claim` looks for it. -/
  skipLocked : Bool
  /-- The messages of a completion, by the number of steps that are left. -/
  completion : Nat → CompletionDraw

/-! ### Row updates -/

/-- `findOneByOrFail({ id })`. -/
def findTransfer (id : String) : PaymentsTx Transfer := do
  match ← Tx.query fun db => db.transferById id with
  | some row => return row
  | none => .abort (.entityNotFound "Transfer")

/-- The row that a transaction returns. -/
def rowOf : Reply → PaymentsProg Transfer
  | .found row => return row
  | .transfer row => return row
  | _ => throw (.entityNotFound "Transfer")

def transitionUsingManager (transfer : Transfer) (leaseOwner : String) (next : TransferStatus)
    (patch : Transfer → Transfer) : PaymentsTx Transfer := do
  Tx.ofExcept (assertTransferTransition transfer.status next)
  let ids ← updateTransfers
    (fun row => row.id = transfer.id ∧ row.status = transfer.status ∧
      row.version = transfer.version ∧ row.leaseOwner = some leaseOwner)
    (fun row => { patch row with status := next, version := row.version + 1 })
  if ids.length ≠ 1 then .abort .sagaLeaseLost else findTransfer transfer.id

/-- The transaction of `transitionClaimed`. -/
def transitionTransaction (transfer : Transfer) (leaseOwner : String) (next : TransferStatus)
    (patch : Transfer → Transfer) : PaymentsTx Reply := do
  return .transfer (← transitionUsingManager transfer leaseOwner next patch)

def transitionClaimed (transfer : Transfer) (leaseOwner : String) (next : TransferStatus)
    (patch : Transfer → Transfer) : PaymentsProg Transfer := do
  let reply ← Prog.run (transitionTransaction transfer leaseOwner next patch)
  rowOf reply

/-- The statement of `updateClaimed`. -/
def updateStatement (transfer : Transfer) (leaseOwner : String) (patch : Transfer → Transfer) :
    PaymentsTx Reply := do
  let ids ← updateTransfers
    (fun row => row.id = transfer.id ∧ row.version = transfer.version ∧
      row.leaseOwner = some leaseOwner)
    (fun row => { patch row with version := row.version + 1 })
  return .affected ids.length

def updateClaimed (transfer : Transfer) (leaseOwner : String) (patch : Transfer → Transfer) :
    PaymentsProg Transfer := do
  match ← Prog.run (updateStatement transfer leaseOwner patch) with
  | .affected 1 => do
    let reply ← Prog.run do return .transfer (← findTransfer transfer.id)
    rowOf reply
  | _ => throw .sagaLeaseLost

/-! ### Claiming the lease -/

/-- The rows that `claim` can take at a time. -/
def claimable (now : Int) (row : Transfer) : Bool :=
  !row.status.isTerminal && row.nextRetryAt.all (· ≤ now) && row.leaseUntil.all (· < now)

/-- What the driver's `query()` resolves to for an `UPDATE … RETURNING`: the rows and their count. -/
def updateResult (ids : List String) : List RawItem := [.rows ids, .affected ids.length]

/-- The statement of `claim`. -/
def claimStatement (config : Config) (transferId : String) (draw : RunDraw) (now : Int) :
    PaymentsTx Reply := do
  let ids ← updateTransfers
    (fun row => row.id = transferId && claimable now row && !draw.skipLocked)
    (fun row => row.lease (some draw.leaseOwner) (some (now + config.sagaLeaseMs)))
  return .claimed (updateResult ids)

/-- The row that `claim` reads after its statement. -/
def findClaimed (transferId : String) : PaymentsTx Reply := do
  return .found (← findTransfer transferId)

def claim (config : Config) (transferId : String) (draw : RunDraw) (now : Int) :
    PaymentsProg (Option Transfer) := do
  match ← Prog.run (claimStatement config transferId draw now) with
  -- The array holds the rows and their count, so that its length is never zero.
  | .claimed [] => return none
  | _ => do
    let reply ← Prog.run (findClaimed transferId)
    return some (← rowOf reply)

/-! ### Failures -/

def asLedgerError : PaymentsError → LedgerCommandError
  | .ledgerCommand e => e
  | e =>
    { message := String.ofList (e.message.toList.take 2000), kind := .retryable,
      code := "UNEXPECTED_SAGA_ERROR", ambiguous := true }

def scheduleRetry (config : Config) (transfer : Transfer) (leaseOwner : String)
    (failure : LedgerCommandError) (now : Int) : PaymentsProg Unit := do
  let retryCount := transfer.retryCount + 1
  let delay := min (config.sagaRetryBaseMs * 2 ^ (retryCount - 1)) 60000
  let _ ← updateClaimed transfer leaseOwner fun row =>
    { row with
      retryCount, nextRetryAt := some (now + delay), failureCode := some failure.code,
      failureMessage := some failure.message, leaseOwner := none, leaseUntil := none }

/-- `fail`: the failure is that of this step, or the one that led to the compensation. -/
def fail (transfer : Transfer) (leaseOwner : String) (failure : Option LedgerCommandError) :
    PaymentsProg Unit := do
  let _ ← transitionClaimed transfer leaseOwner .failed fun row =>
    { row with
      nextRetryAt := none, failureCode := (failure.map (·.code)).or transfer.failureCode,
      failureMessage := (failure.map (·.message)).or transfer.failureMessage, leaseOwner := none,
      leaseUntil := none }

/-- `handleFailure`: `none` is `'stop'`. -/
def handleFailure (config : Config) (transfer : Transfer) (leaseOwner : String)
    (error : PaymentsError) (now : Int) : PaymentsProg (Option Transfer) :=
  let failure := asLedgerError error
  if transfer.status = .compensating then do
    scheduleRetry config transfer leaseOwner failure now
    return none
  else if failure.kind = .retryable ∧ transfer.retryCount + 1 < config.sagaMaxStepAttempts then do
    scheduleRetry config transfer leaseOwner failure now
    return none
  else if transfer.holdMayExist then do
    let compensating ← transitionClaimed transfer leaseOwner .compensating fun row =>
      { row with
        retryCount := 0, nextRetryAt := none, failureCode := some failure.code,
        failureMessage := some failure.message }
    return some compensating
  else do
    fail transfer leaseOwner (some failure)
    return none

/-! ### Steps -/

/-- The patch of a completed row. -/
def finish (row : Transfer) : Transfer :=
  { row with
    retryCount := 0, nextRetryAt := none, failureCode := none, failureMessage := none,
    leaseOwner := none, leaseUntil := none }

/-- The transaction of `complete`. -/
def completeTransaction (transfer : Transfer) (leaseOwner : String) (draw : CompletionDraw) :
    PaymentsTx Reply := do
  let completed ← transitionUsingManager transfer leaseOwner .completed finish
  enqueueTransferCompleted completed draw.completed
  enqueueSplitSharePaid completed draw
  return .transfer completed

def complete (transfer : Transfer) (leaseOwner : String) (draw : CompletionDraw) :
    PaymentsProg Unit := do
  let _ ← Prog.run (completeTransaction transfer leaseOwner draw)

/-- The patch of a transition that starts the attempts of the next step. -/
def resetRetry (row : Transfer) : Transfer := { row with retryCount := 0, nextRetryAt := none }

/-- The receiver's wallet is asked for, unless it is known. -/
def resolveReceiver (config : Config) (leaseOwner : String) (transfer : Transfer) :
    PaymentsProg Transfer :=
  if transfer.receiverWalletId = none then do
    let receiverWalletId ← validate config transfer
    -- A missing `receiverWalletId` is `undefined`, which an update leaves out.
    updateClaimed transfer leaseOwner fun row =>
      { row with
        receiverWalletId := receiverWalletId.or row.receiverWalletId, retryCount := 0,
        nextRetryAt := none, failureCode := none, failureMessage := none }
  else return transfer

/-- The intent to hold is written before the hold is requested. -/
def markHold (leaseOwner : String) (transfer : Transfer) : PaymentsProg Transfer :=
  if transfer.holdMayExist then return transfer
  else updateClaimed transfer leaseOwner fun row => { row with holdMayExist := true }

/-- The hold is requested, and the transfer moves on. -/
def holdFunds (config : Config) (leaseOwner : String) (transfer : Transfer) :
    PaymentsProg Transfer := do
  placeHold config transfer
  transitionClaimed transfer leaseOwner .fundsHeld resetRetry

/-- The transfer is settled and completed. -/
def settleAndComplete (config : Config) (leaseOwner : String) (transfer : Transfer)
    (draw : CompletionDraw) : PaymentsProg Unit := do
  settle config transfer
  complete transfer leaseOwner draw

/-- The hold is released, and the transfer fails unless it had been settled. -/
def compensate (config : Config) (leaseOwner : String) (transfer : Transfer)
    (draw : CompletionDraw) : PaymentsProg Unit := do
  let outcome ← release config transfer
  if outcome = some .alreadySettled then complete transfer leaseOwner draw
  else fail transfer leaseOwner none

/-- The catch block of a step of `run`; `next` is the rest of the loop. -/
def caught (config : Config) (leaseOwner : String) (now : Int)
    (next : Transfer → PaymentsProg Unit) (transfer : Transfer) (error : PaymentsError) :
    PaymentsProg Unit :=
  if error = .sagaLeaseLost then return ()
  else do
    match ← handleFailure config transfer leaseOwner error now with
    | none => return ()
    | some transfer => next transfer

/-- One step of `run`; `next` is the rest of the loop. -/
def sagaStep (config : Config) (leaseOwner : String) (now : Int) (draw : CompletionDraw)
    (next : Transfer → PaymentsProg Unit) (transfer : Transfer) : PaymentsProg Unit :=
  let caught := caught config leaseOwner now next
  match transfer.status with
  | .completed => return ()
  | .failed => return ()
  | .pending =>
    (transitionClaimed transfer leaseOwner .validating resetRetry).attempt fun
      | .ok transfer => next transfer
      | .error e => caught transfer e
  | .validating =>
    match config.validate transfer now with
    | .error e => caught transfer e
    | .ok () => (resolveReceiver config leaseOwner transfer).attempt fun
      | .error e => caught transfer e
      | .ok transfer => (markHold leaseOwner transfer).attempt fun
        | .error e => caught transfer e
        | .ok transfer => (holdFunds config leaseOwner transfer).attempt fun
          | .error e => caught transfer e
          | .ok transfer => next transfer
  | .fundsHeld =>
    (transitionClaimed transfer leaseOwner .processing resetRetry).attempt fun
      | .ok transfer => next transfer
      | .error e => caught transfer e
  | .processing =>
    (settleAndComplete config leaseOwner transfer draw).attempt fun
      | .ok () => return ()
      | .error e => caught transfer e
  | .compensating =>
    (compensate config leaseOwner transfer draw).attempt fun
      | .ok () => return ()
      | .error e => caught transfer e

/-- The loop of `run`, with the steps that are left. -/
def sagaLoop (config : Config) (draw : RunDraw) (now : Int) : Nat → Transfer → PaymentsProg Unit
  | 0, transfer =>
    scheduleRetry config transfer draw.leaseOwner
      { message := "Saga step budget exhausted", kind := .retryable,
        code := "SAGA_STEP_BUDGET_EXHAUSTED", ambiguous := true } now
  | left + 1, transfer =>
    sagaStep config draw.leaseOwner now (draw.completion left) (sagaLoop config draw now left)
      transfer

def run (config : Config) (transferId : String) (draw : RunDraw) (now : Int) :
    PaymentsProg Unit := do
  match ← claim config transferId draw now with
  | none => return ()
  | some transfer => sagaLoop config draw now 8 transfer

/-! ### Recovery -/

/-- `COALESCE(next_retry_at, created_at)`. -/
def Transfer.dueAt (row : Transfer) : Int := row.nextRetryAt.getD row.createdAt

/-- The transfers that `recoverDue` selects. -/
def Database.due (db : Database) (now : Int) (limit : Nat) : List String :=
  (((db.transfers.filter (claimable now)).insertionSort fun a b =>
    a.dueAt < b.dueAt ∨ (a.dueAt = b.dueAt ∧ a.createdAt ≤ b.createdAt)).take limit).map (·.id)

/-- The runs of the selected transfers, one after the other. -/
def runEach (config : Config) (draw : Nat → RunDraw) (now : Int) :
    Nat → List String → PaymentsProg Unit
  | _, [] => return ()
  | n, id :: ids => do
    run config id (draw n) now
    runEach config draw now (n + 1) ids

def recoverDue (config : Config) (now : Int) (limit : Nat) (draw : Nat → RunDraw) :
    PaymentsProg Nat := do
  let ids ← Prog.read fun db => db.due now limit
  runEach config draw now 0 ids
  return ids.length

end Payments

end PeerLedger
