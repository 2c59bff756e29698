import PeerLedger.Transactions.RelyGuarantee
import PeerLedger.Payments.Outbox
import PeerLedger.Ledger.Wallets
import Mathlib.Data.List.Sort

/-!
# The outbox relay

`publishBatch` and `claim` of `outbox.service.ts`.  The two services run the same code over their own
`integration_outbox`, so the relay is stated once for rows that carry events of any type.

A worker claims a batch of rows by writing its lock id on them, gives each message to the broker, and
then marks the row or puts it back, in an update that names the lock id.  Any number of workers run
at the same time, each with its own clock; between any two steps a worker may crash, and its lock may
expire while it still runs.
-/

namespace PeerLedger

namespace Messaging

open Transactions

variable {η : Type}

/-- A row of `integration_outbox` with an event of type `η`. -/
structure OutboxRow (η : Type) where
  eventId : String
  routingKey : String
  event : η
  attempts : Int
  availableAt : Int
  lockedUntil : Option Int
  lockId : Option String
  publishedAt : Option Int
  lastError : Option String
  createdAt : Int

/-- A row as the services insert it. -/
structure OutboxRow.Enqueued (row : OutboxRow η) : Prop where
  attempts : row.attempts = 0
  lockedUntil : row.lockedUntil = none
  lockId : row.lockId = none
  publishedAt : row.publishedAt = none

/-- The rows of `integration_outbox`, in order of insertion. -/
structure Outbox (η : Type) where
  rows : List (OutboxRow η)

/-- The writes of the relay. -/
inductive OutboxWrite (η : Type) where
  | save (row : OutboxRow η)

/-- The rows after one row was replaced by its new version. -/
def Outbox.apply (outbox : Outbox η) : OutboxWrite η → Outbox η
  | .save row => ⟨outbox.rows.map fun old => if old.eventId = row.eventId then row else old⟩

/-- A transaction that has changed a row occupies it until it ends. -/
def OutboxWrite.locks : OutboxWrite η → List String
  | .save row => [row.eventId]

instance : Store (Outbox η) (OutboxWrite η) String where
  apply := Outbox.apply
  locks := OutboxWrite.locks

/-! ### Statements -/

def LOCK_DURATION_MS : Int := 30000
def MAX_BACKOFF_MS : Int := 60000

/-- What one run of `publishBatch` takes from outside. -/
structure BatchDraw (η : Type) where
  /-- `new Date()` at the start. -/
  now : Int
  batchSize : Nat
  /-- `randomUUID()`. -/
  lockId : String
  /-- The rows that `SKIP LOCKED` passes over. -/
  skipped : String → Bool
  /-- The order in which `RETURNING` lists the rows. -/
  returning : List (OutboxRow η) → List (OutboxRow η)
  /-- `new Date()` when a message is marked. -/
  publishedAt : String → Int

/-- The `WHERE` of the candidates. -/
def OutboxRow.isClaimable (row : OutboxRow η) (now : Int) : Bool :=
  row.publishedAt = none && decide (row.availableAt ≤ now) &&
    row.lockedUntil.all fun lockedUntil => decide (lockedUntil < now)

/-- `ORDER BY created_at, event_id`. -/
def OutboxRow.Before (a b : OutboxRow η) : Prop :=
  a.createdAt < b.createdAt ∨ a.createdAt = b.createdAt ∧ a.eventId ≤ b.eventId

instance : DecidableRel (OutboxRow.Before (η := η)) := fun a b =>
  inferInstanceAs (Decidable (a.createdAt < b.createdAt ∨
    a.createdAt = b.createdAt ∧ a.eventId ≤ b.eventId))

/-- The rows that a claim may take. -/
def Outbox.candidates (outbox : Outbox η) (draw : BatchDraw η) : List (OutboxRow η) :=
  (outbox.rows.filter fun row =>
    row.isClaimable draw.now && !draw.skipped row.eventId).insertionSort OutboxRow.Before

/-- The row after it was claimed. -/
def OutboxRow.locked (row : OutboxRow η) (draw : BatchDraw η) : OutboxRow η :=
  { row with lockId := some draw.lockId, lockedUntil := some (draw.now + LOCK_DURATION_MS) }

/-- The new versions of the rows that a claim takes. -/
def Outbox.claimed (outbox : Outbox η) (draw : BatchDraw η) : List (OutboxRow η) :=
  ((outbox.candidates draw).take draw.batchSize).map (·.locked draw)

abbrev RelayTx (η : Type) := Tx (Outbox η) (OutboxWrite η) String

def claim (draw : BatchDraw η) : RelayTx η (List (OutboxRow η)) :=
  .stmt (fun outbox => .ok ((outbox.claimed draw).map .save))
    fun outbox => .ret (draw.returning (outbox.claimed draw))

/-- The row after its message was published. -/
def OutboxRow.published (row : OutboxRow η) (publishedAt : Int) : OutboxRow η :=
  { row with publishedAt := some publishedAt, lockedUntil := none, lockId := none,
             lastError := none }

/-- `errorMessage`: the first 2000 characters. -/
def errorMessage (error : String) : String := String.ofList (error.toList.take 2000)

/-- The delay before the next attempt. -/
def backoff (attempts : Int) : Int := min (2 ^ (attempts - 1).toNat * 1000) MAX_BACKOFF_MS

/-- The row after a failed attempt, where `claimedAttempts` are those that the worker has read. -/
def OutboxRow.failed (row : OutboxRow η) (claimedAttempts now : Int) (error : String) :
    OutboxRow η :=
  { row with attempts := claimedAttempts + 1, availableAt := now + backoff (claimedAttempts + 1),
             lockedUntil := none, lockId := none, lastError := some (errorMessage error) }

/-! ### The worker -/

/-- The programs of the relay; a message is given to the broker, which confirms it or not. -/
abbrev RelayProg (η : Type) :=
  Prog (Outbox η) (OutboxWrite η) String (List (OutboxRow η)) (OutboxRow η) (Except String Unit)

/-- The differences between the two services: the text of an impossible error. -/
structure Relay (η : Type) where
  missingLock : OutboxRow η → String

/-- `UPDATE` of the row with an event id, while it has the lock id. -/
def update (eventId lockId : String) (change : OutboxRow η → OutboxRow η) : RelayProg η Unit :=
  .transaction
    (.stmt (fun outbox => .ok ((outbox.rows.filter fun row =>
        row.eventId = eventId && row.lockId = some lockId).map fun row => .save (change row)))
      fun _ => .ret [])
    fun r => .done (r.map fun _ => ())

/-- `publisher.publish`. -/
def publish (message : OutboxRow η) : RelayProg η Unit :=
  .call message .done

/-- The body of the loop of `publishBatch`. -/
def publishMessage (relay : Relay η) (draw : BatchDraw η) (message : OutboxRow η) :
    RelayProg η Unit :=
  match message.lockId with
  | none => throw (relay.missingLock message)
  | some lockId =>
    tryCatch (do
        publish message
        update message.eventId lockId (·.published (draw.publishedAt message.eventId)))
      fun error =>
        update message.eventId lockId (·.failed message.attempts draw.now error)

/-- The loop of `publishBatch`. -/
def publishAll (relay : Relay η) (draw : BatchDraw η) : List (OutboxRow η) → RelayProg η Unit
  | [] => pure ()
  | message :: messages => do
    publishMessage relay draw message
    publishAll relay draw messages

def publishBatch (relay : Relay η) (draw : BatchDraw η) : RelayProg η Nat := do
  let claimed ← .run (claim draw)
  publishAll relay draw claimed
  return claimed.length

/-! ### The system -/

/-- The outbox with its workers and the broker. -/
structure RelayWorld (η : Type) where
  outbox : Outbox η
  /-- The lock ids that the workers have drawn. -/
  lockIds : Nat → Option String
  /-- The messages given to the broker, in order. -/
  given : List (OutboxRow η)
  /-- The calls of `publish` that have resolved. -/
  resolved : List Nat

def RelayWorld.initial : RelayWorld η :=
  { outbox := ⟨[]⟩, lockIds := fun _ => none, given := [], resolved := [] }

/-- Some call of `publish` with the message of the row has resolved. -/
def RelayWorld.Resolved (w : RelayWorld η) (row : OutboxRow η) : Prop :=
  ∃ ticket ∈ w.resolved, ∃ message, w.given[ticket]? = some message ∧
    message.eventId = row.eventId ∧ message.routingKey = row.routingKey ∧ message.event = row.event

/-- The steps of the surroundings: a service enqueues a message, or a call of `publish` resolves. -/
inductive RelayWorld.Env (w : RelayWorld η) : RelayWorld η → Prop
  | enqueue (row : OutboxRow η) : row.Enqueued → row.eventId ∉ w.outbox.rows.map (·.eventId) →
      w.Env { w with outbox := ⟨w.outbox.rows ++ [row]⟩ }
  | resolve (ticket : Nat) : ticket < w.given.length →
      w.Env { w with resolved := ticket :: w.resolved }

/-- The workers of a service.  Every statement may fail; `publish` may reject although its message
was confirmed; each run of `publishBatch` has its own clock and a new lock id. -/
def Relay.service (relay : Relay η) :
    Service Nat (RelayWorld η) (Outbox η) (OutboxWrite η) String (List (OutboxRow η)) (OutboxRow η)
      (Except String Unit) Nat Nat where
  db w := w.outbox
  commit w c := { w with outbox := view w.outbox c.writes }
  admits _ _ _ := True
  fails _ := True
  issue w _ message ticket w' :=
    ticket = w.given.length ∧ w' = { w with given := w.given ++ [message] }
  answer w _ _ ticket answer := answer = .ok () → ticket ∈ w.resolved
  starts w i program w' := ∃ draw : BatchDraw η,
    (∀ j, w.lockIds j ≠ some draw.lockId) ∧ (∀ rows, (draw.returning rows).Perm rows) ∧
    program = publishBatch relay draw ∧
    w' = { w with lockIds := Function.update w.lockIds i (some draw.lockId) }
  env := RelayWorld.Env

/-- The states of the relay. -/
abbrev RelaySystem (η : Type) :=
  Sys Nat (RelayWorld η) (Outbox η) (OutboxWrite η) String (List (OutboxRow η)) (OutboxRow η)
    (Except String Unit) Nat Nat

end Messaging

/-! ### The two services -/

namespace Payments

/-- The row of a message of the payments service. -/
def PaymentOutboxMessage.row (message : PaymentOutboxMessage) (createdAt : Int) :
    Messaging.OutboxRow PaymentIntegrationEvent :=
  { message with createdAt }

/-- The relay of the payments service. -/
def relay : Messaging.Relay PaymentIntegrationEvent where
  missingLock _ := "Claimed outbox message has no lock"

/-- Every message of the payments service is inserted ready for the relay. -/
lemma enqueued_outboxMessage (draw : MessageDraw)
    (eventType routingKey aggregateType aggregateId : String) (aggregateVersion : Int)
    (correlationId : String) (payload : Json) (createdAt : Int) :
    ((outboxMessage draw eventType routingKey aggregateType aggregateId aggregateVersion
      correlationId payload).row createdAt).Enqueued :=
  ⟨rfl, rfl, rfl, rfl⟩

end Payments

namespace Ledger

/-- The row of a message of the ledger. -/
def OutboxMessage.row (message : OutboxMessage) (createdAt : Int) :
    Messaging.OutboxRow IntegrationEventEnvelope :=
  { message with createdAt }

/-- The relay of the ledger. -/
def relay : Messaging.Relay IntegrationEventEnvelope where
  missingLock message := s!"Claimed outbox message {message.eventId} has no lock"

/-- Every message of the ledger is inserted ready for the relay. -/
lemma enqueued_outboxMessage (event : StoredEvent) (wallet : Wallet) (carrier : TraceCarrier)
    (createdAt : Int) : ((outboxMessage event wallet carrier).row createdAt).Enqueued :=
  ⟨rfl, rfl, rfl, rfl⟩

end Ledger

end PeerLedger
