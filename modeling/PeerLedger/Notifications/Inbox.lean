import PeerLedger.Transactions.RelyGuarantee
import PeerLedger.Notifications.IntegrationEvent

/-!
# The inbox of the notifications service

`InboxService.process` inserts a marker into `processed_messages` and runs the handler in the same
transaction; the handler `ActivityFeedService.record` inserts a row into `activity_feed`.
`RabbitMqConsumerService.consume` decodes a delivery, processes it, tells the user about a new row,
and acknowledges the message or gives it back to the broker.

Any number of deliveries are consumed at the same time, of the same message or of others.  Every
statement, the handler, the emit and the acknowledgement may fail, and a consumer may crash between
any two steps.
-/

namespace PeerLedger

namespace Notifications

open Transactions

/-! ### The database -/

/-- A row of `processed_messages`. -/
structure ProcessedMessage where
  eventId : String
  consumer : String

/-- A row of `activity_feed`. -/
structure ActivityFeedItem where
  id : String
  eventId : String
  userId : Option String
  eventType : String
  aggregateId : String
  payload : Json

/-- The contents of the database. -/
structure Database where
  processed : List ProcessedMessage
  feed : List ActivityFeedItem

/-- The writes of the service. -/
inductive Write where
  | insertProcessed (row : ProcessedMessage)
  | insertActivity (row : ActivityFeedItem)

/-- The entries of the unique indexes. -/
inductive Lock where
  | processed (eventId : String)
  | activityId (id : String)
  | activityEvent (eventId : String)
deriving DecidableEq

def Database.apply (db : Database) : Write → Database
  | .insertProcessed row => { db with processed := db.processed ++ [row] }
  | .insertActivity row => { db with feed := db.feed ++ [row] }

def Write.locks : Write → List Lock
  | .insertProcessed row => [.processed row.eventId]
  | .insertActivity row => [.activityId row.id, .activityEvent row.eventId]

instance : Store Database Write Lock where
  apply := Database.apply
  locks := Write.locks

/-- A marker for the event exists. -/
def Database.isProcessed (db : Database) (eventId : String) : Bool :=
  db.processed.any fun row => row.eventId = eventId

/-- `INSERT INTO processed_messages … ON CONFLICT (event_id) DO NOTHING`. -/
def insertProcessed (row : ProcessedMessage) (db : Database) : Except String (List Write) :=
  if db.isProcessed row.eventId then .ok [] else .ok [.insertProcessed row]

/-- `INSERT INTO activity_feed`, with its unique indexes. -/
def insertActivity (row : ActivityFeedItem) (db : Database) : Except String (List Write) :=
  if db.feed.any fun old => old.id = row.id ∨ old.eventId = row.eventId then
    .error "duplicate key value violates unique constraint"
  else .ok [.insertActivity row]

/-! ### Processing -/

abbrev InboxTx := Tx Database Write String

/-- An event id as a value of type `uuid`, whose text has small letters. -/
def IntegrationEventEnvelope.key (event : IntegrationEventEnvelope) : String :=
  String.ofList (event.eventId.toList.map Char.toLower)

/-- `payload.ownerId ?? payload.senderUserId`, when it is a string. -/
def userIdFor (event : IntegrationEventEnvelope) : Option String :=
  let candidate := match property event.payload "ownerId" with
    | none | some .null => property event.payload "senderUserId"
    | some value => some value
  match candidate with
  | some (.str userId) => some userId
  | _ => none

/-- The activity row of an event; its id is a default of the column. -/
def activityItem (id : String) (event : IntegrationEventEnvelope) : ActivityFeedItem :=
  { id, eventId := event.key, userId := userIdFor event, eventType := event.eventType,
    aggregateId := event.aggregateId, payload := event.value }

/-- `ActivityFeedService.record`. -/
def record (id : String) (event : IntegrationEventEnvelope) : InboxTx Unit :=
  Tx.write (insertActivity (activityItem id event))

/-- The body of the transaction of `InboxService.process`. -/
def processBody (consumer : String) (event : IntegrationEventEnvelope)
    (handler : IntegrationEventEnvelope → InboxTx Unit) : InboxTx Bool :=
  .stmt (insertProcessed { eventId := event.key, consumer })
    fun db =>
      if db.isProcessed event.key then .ret false
      else do
        handler event
        return true

/-! ### Consuming -/

/-- A broker message. -/
structure ConsumeMessage where
  content : String
  routingKey : String
deriving DecidableEq

/-- What a consumer asks of the broker and of the open connections of the users. -/
inductive Request where
  | ack (message : ConsumeMessage)
  | nack (message : ConsumeMessage) (requeue : Bool)
  | emitToUser (userId : String) (event : IntegrationEventEnvelope)

abbrev InboxProg := Prog Database Write String Bool Request (Except String Unit)

/-- The event of a message, when it is well formed and trusted. -/
def decode (platform : Platform) (message : ConsumeMessage) :
    Except String IntegrationEventEnvelope := do
  let value ← match platform.parseJson message.content with
    | some value => .ok value
    | none => .error "Unexpected token in JSON"
  let event ← parseIntegrationEvent platform value
  assertTrustedIntegrationEvent event message.routingKey
  return event

/-- A request; it throws when its answer is an error. -/
def request (q : Request) : InboxProg Unit := .call q .done

def process (consumer : String) (event : IntegrationEventEnvelope)
    (handler : IntegrationEventEnvelope → InboxTx Unit) : InboxProg Bool :=
  .run (processBody consumer event handler)

/-- The user of a new activity row is told about the event. -/
def tellUser (processed : Bool) (event : IntegrationEventEnvelope) : InboxProg Unit :=
  if processed then
    match userIdFor event with
    | some userId => if userId ≠ "" then request (.emitToUser userId event) else pure ()
    | none => pure ()
  else pure ()

/-- What happens to a decoded message. -/
def deliver (itemId : String) (message : ConsumeMessage) (event : IntegrationEventEnvelope) :
    InboxProg Unit :=
  tryCatch (do
      let processed ← process "notifications.activity-feed.v1" event (record itemId)
      tellUser processed event
      request (.ack message))
    fun _ => request (.nack message true)

/-- `RabbitMqConsumerService.consume`; a cancelled consumer gets no message, and without a channel
nothing happens. -/
def consume (platform : Platform) (itemId : String) (connected : Bool)
    (message : Option ConsumeMessage) : InboxProg Unit :=
  match message, connected with
  | some message, true =>
    match decode platform message with
    | .error _ => request (.nack message false)
    | .ok event => deliver itemId message event
  | _, _ => pure ()

/-! ### The system -/

/-- The database with what its surroundings have seen. -/
structure InboxWorld where
  db : Database
  /-- The deliveries that have been started. -/
  started : Nat → Bool
  /-- The deliveries that have committed a marker, with its event. -/
  markedBy : List (Nat × String)
  /-- The messages acknowledged. -/
  acked : List ConsumeMessage
  /-- The messages given back, with the flag `requeue`. -/
  rejected : List (ConsumeMessage × Bool)
  /-- The events told to users, with the delivery that did it. -/
  emitted : List (Nat × String × IntegrationEventEnvelope)

def InboxWorld.initial : InboxWorld :=
  { db := ⟨[], []⟩, started := fun _ => false, markedBy := [], acked := [], rejected := [],
    emitted := [] }

/-- The events whose markers some writes insert. -/
def markers (ws : List Write) : List String :=
  ws.filterMap fun
    | .insertProcessed row => some row.eventId
    | .insertActivity _ => none

/-- The world after a request. -/
def InboxWorld.asked (w : InboxWorld) (i : Nat) : Request → InboxWorld
  | .ack message => { w with acked := w.acked ++ [message] }
  | .nack message requeue => { w with rejected := w.rejected ++ [(message, requeue)] }
  | .emitToUser userId event => { w with emitted := w.emitted ++ [(i, userId, event)] }

/-- The notifications service: any delivery can be started, of any message. -/
def inbox (platform : Platform) :
    Service Nat InboxWorld Database Write String Bool Request (Except String Unit) Unit Unit where
  db w := w.db
  commit w c :=
    { w with db := view w.db c.writes,
             markedBy := w.markedBy ++ (markers c.writes).map fun eventId => (c.thread, eventId) }
  admits _ _ _ := True
  fails _ := True
  issue w i q _ w' := w' = w.asked i q
  answer _ _ _ _ _ := True
  starts w i program w' := w.started i = false ∧
    w' = { w with started := Function.update w.started i true } ∧
    ∃ itemId connected message, program = consume platform itemId connected message
  env _ _ := False

/-- The states of the notifications service. -/
abbrev InboxSystem :=
  Sys Nat InboxWorld Database Write String Bool Request (Except String Unit) Unit Unit

end Notifications

end PeerLedger
