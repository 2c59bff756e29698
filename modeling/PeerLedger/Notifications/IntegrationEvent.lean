import PeerLedger.Ledger.Wallets

/-!
# Integration events

`integration-event.ts` of the notifications service: reading an event out of the JSON of a broker
message, and the combinations of producer, event type and routing key that the service trusts.
-/

namespace PeerLedger

namespace Notifications

/-- What the service takes from the JavaScript platform. -/
structure Platform where
  /-- `JSON.parse`; `none` where it throws. -/
  parseJson : String → Option Json
  /-- Whether `Date.parse` yields a number. -/
  parsesAsDate : String → Bool

/-- The envelope of an event, with the object that it was read from. -/
structure IntegrationEventEnvelope where
  eventId : String
  eventType : String
  schemaVersion : Int
  occurredAt : String
  producer : String
  aggregateType : String
  aggregateId : String
  aggregateVersion : Int
  payload : Json
  /-- The whole object. -/
  value : Json

/-- `typeof j === 'object' && j !== null`. -/
def isObject : Json → Bool
  | .arr _ | .obj _ => true
  | _ => false

/-- The property of an object; `none` is `undefined`. -/
def property (j : Json) (key : String) : Option Json :=
  match j with
  | .obj fields => fields.lookup key
  | _ => none

/-- The property, when it is a string. -/
def stringProperty (j : Json) (key : String) : Option String :=
  match property j key with
  | some (.str s) => some s
  | _ => none

/-- The property, when it is an object. -/
def objectProperty (j : Json) (key : String) : Option Json :=
  (property j key).filter isObject

/-- The property, when it is an integer from 1 on. -/
def versionProperty (j : Json) (key : String) : Option Int :=
  match property j key with
  | some (.num q) => if q.den = 1 ∧ 1 ≤ q.num then some q.num else none
  | _ => none

/-- The checks of `parseIntegrationEvent`; `none` is the error `Invalid event envelope`. -/
def readEnvelope (platform : Platform) (value : Json) : Option IntegrationEventEnvelope := do
  guard (isObject value)
  let eventId ← (stringProperty value "eventId").filter Ledger.isUuid
  let eventType ← stringProperty value "eventType"
  let schemaVersion ← versionProperty value "schemaVersion"
  let occurredAt ← (stringProperty value "occurredAt").filter platform.parsesAsDate
  let producer ← stringProperty value "producer"
  let aggregate ← objectProperty value "aggregate"
  let aggregateType ← stringProperty aggregate "type"
  let aggregateId ← stringProperty aggregate "id"
  let aggregateVersion ← versionProperty aggregate "version"
  let payload ← objectProperty value "payload"
  return { eventId, eventType, schemaVersion, occurredAt, producer, aggregateType, aggregateId,
           aggregateVersion, payload, value }

def parseIntegrationEvent (platform : Platform) (value : Json) :
    Except String IntegrationEventEnvelope :=
  match readEnvelope platform value with
  | some event => .ok event
  | none => .error "Invalid event envelope"

/-- `s.startsWith(start)`. -/
def startsWith (s start : String) : Bool := start.toList.isPrefixOf s.toList

def assertTrustedIntegrationEvent (event : IntegrationEventEnvelope) (routingKey : String) :
    Except String Unit :=
  let ledger := event.producer = "ledger-service" ∧ startsWith event.eventType "ledger.wallet." ∧
    startsWith routingKey "ledger."
  let payments := event.producer = "payments-service" ∧ startsWith event.eventType "payments." ∧
    startsWith routingKey "payments."
  if ¬ ledger ∧ ¬ payments then
    .error "Untrusted producer, event type or routing key combination"
  else .ok ()

end Notifications

end PeerLedger
