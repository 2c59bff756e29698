import PeerLedger.Formats.IsoDate
import PeerLedger.Formats.JsonNumbers
import PeerLedger.Payments.Outbox
import PeerLedger.Ledger.Wallets

/-!
# Events as JSON text

An event is published as the JSON text of its envelope.  `Json.parse` reads what `Json.stringify`
writes of any value that JavaScript has (`Json.parse_stringify`).
-/

namespace PeerLedger

open Formats

/-! ### Values and their text -/

mutual

/-- A value with the literals of its numbers. -/
def Json.toValue : Json → JsonText.Value
  | .null => .null
  | .bool b => .bool b
  | .num q => .number (JsonText.literal q)
  | .str s => .string s.toList
  | .arr xs => .array (toValues xs)
  | .obj fields => .object (toMembers fields)

def Json.toValues : List Json → List JsonText.Value
  | [] => []
  | x :: xs => x.toValue :: toValues xs

def Json.toMembers : List (String × Json) → List (List Char × JsonText.Value)
  | [] => []
  | (key, value) :: fields => (key.toList, value.toValue) :: toMembers fields

end

/-- A property is set: a new one comes last, and an old one keeps its place. -/
def setProperty (fields : List (String × Json)) (field : String × Json) : List (String × Json) :=
  if fields.any fun old => old.1 = field.1 then
    fields.map fun old => if old.1 = field.1 then field else old
  else fields ++ [field]

mutual

/-- The value of a text that has been parsed; the last member with a key is its property. -/
def Json.ofValue : JsonText.Value → Json
  | .null => .null
  | .bool b => .bool b
  | .number literal => .num (JsonText.readLiteral literal)
  | .string text => .str (String.ofList text)
  | .array elements => .arr (ofValues elements)
  | .object members => .obj ((ofMembers members).foldl setProperty [])

def Json.ofValues : List JsonText.Value → List Json
  | [] => []
  | v :: vs => ofValue v :: ofValues vs

def Json.ofMembers : List (List Char × JsonText.Value) → List (String × Json)
  | [] => []
  | (key, v) :: members => (String.ofList key, ofValue v) :: ofMembers members

end

/-- `JSON.stringify`. -/
def Json.stringify (j : Json) : String := String.ofList (JsonText.stringify j.toValue)

/-- `JSON.parse`; `none` where it throws. -/
def Json.parse (text : String) : Option Json := (JsonText.parse text.toList).map Json.ofValue

/-- The values of JavaScript: a number is decimal, and an object has a property once. -/
inductive Json.Representable : Json → Prop
  | null : Representable .null
  | bool (b : Bool) : Representable (.bool b)
  | num {q : ℚ} (h : JsonText.IsDecimal q) : Representable (.num q)
  | str (s : String) : Representable (.str s)
  | arr {xs : List Json} (h : ∀ x ∈ xs, Representable x) : Representable (.arr xs)
  | obj {fields : List (String × Json)} (hkeys : (fields.map Prod.fst).Nodup)
      (h : ∀ field ∈ fields, Representable field.2) : Representable (.obj fields)

/-! ### Values are read again -/

lemma Json.toValues_eq (xs : List Json) : Json.toValues xs = xs.map Json.toValue := by
  induction xs with
  | nil => rfl
  | cons x xs ih => rw [toValues, ih, List.map_cons]

lemma Json.toMembers_eq (fields : List (String × Json)) :
    Json.toMembers fields = fields.map fun field => (field.1.toList, field.2.toValue) := by
  induction fields with
  | nil => rfl
  | cons field fields ih => rw [toMembers, ih, List.map_cons]

lemma Json.ofValues_eq (vs : List JsonText.Value) : Json.ofValues vs = vs.map Json.ofValue := by
  induction vs with
  | nil => rfl
  | cons v vs ih => rw [ofValues, ih, List.map_cons]

lemma Json.ofMembers_eq (members : List (List Char × JsonText.Value)) :
    Json.ofMembers members = members.map fun m => (String.ofList m.1, Json.ofValue m.2) := by
  induction members with
  | nil => rfl
  | cons m members ih => rw [ofMembers, ih, List.map_cons]

/-- Properties that are all different are set one after the other. -/
lemma foldl_setProperty {fields set : List (String × Json)}
    (h : ((set ++ fields).map Prod.fst).Nodup) : fields.foldl setProperty set = set ++ fields := by
  induction fields generalizing set with
  | nil => rw [List.foldl_nil, List.append_nil]
  | cons field fields ih =>
    have hnew : ¬ set.any (fun old => old.1 = field.1) = true := by
      rw [List.any_eq_true]
      rintro ⟨old, hold, hkey⟩
      rw [List.map_append, List.map_cons, List.nodup_middle, List.nodup_cons] at h
      exact h.1 (List.mem_append_left _
        (of_decide_eq_true hkey ▸ List.mem_map_of_mem (f := Prod.fst) hold))
    have hset : setProperty set field = set ++ [field] := if_neg hnew
    rw [List.foldl_cons, hset, ih (by rwa [List.append_assoc]), List.append_assoc]
    rfl

lemma Json.Representable.wellFormed {j : Json} (h : j.Representable) :
    JsonText.WellFormed j.toValue := by
  induction h with
  | null =>
    rw [toValue]
    exact .null
  | bool b =>
    rw [toValue]
    exact .bool b
  | num _ =>
    rw [toValue]
    exact .number (JsonText.isLiteral_literal _)
  | str s =>
    rw [toValue]
    exact .string _
  | arr _ ih =>
    rw [toValue, toValues_eq]
    refine .array fun v hv => ?_
    obtain ⟨x, hx, rfl⟩ := List.mem_map.mp hv
    exact ih x hx
  | obj _ _ ih =>
    rw [toValue, toMembers_eq]
    refine .object fun m hm => ?_
    obtain ⟨field, hfield, rfl⟩ := List.mem_map.mp hm
    exact ih field hfield

lemma Json.Representable.ofValue_toValue {j : Json} (h : j.Representable) :
    Json.ofValue j.toValue = j := by
  induction h with
  | null => rw [toValue, ofValue]
  | bool b => rw [toValue, ofValue]
  | num h => rw [toValue, ofValue, JsonText.readLiteral_literal h]
  | str s => rw [toValue, ofValue, String.ofList_toList]
  | @arr xs _ ih =>
    have hall : xs.map (fun x => Json.ofValue x.toValue) = xs :=
      (List.map_congr_left ih).trans (List.map_id' xs)
    rw [toValue, ofValue, toValues_eq, ofValues_eq, List.map_map]
    exact congrArg Json.arr hall
  | @obj fields hkeys _ ih =>
    have hall : fields.map (fun field => (String.ofList field.1.toList,
        Json.ofValue field.2.toValue)) = fields := by
      refine (List.map_congr_left fun field hfield => ?_).trans (List.map_id fields)
      rw [ih field hfield, String.ofList_toList]
      rfl
    rw [toValue, ofValue, toMembers_eq, ofMembers_eq, List.map_map]
    change Json.obj ((fields.map fun field => (String.ofList field.1.toList,
      Json.ofValue field.2.toValue)).foldl setProperty []) = _
    have hnodup : (([] ++ fields).map Prod.fst).Nodup := hkeys
    rw [hall, foldl_setProperty hnodup]
    rfl

/-- `JSON.parse` reads what `JSON.stringify` writes. -/
theorem Json.parse_stringify {j : Json} (h : j.Representable) :
    Json.parse j.stringify = some j := by
  rw [parse, stringify, String.toList_ofList, JsonText.parse_stringify h.wellFormed,
    Option.map_some, h.ofValue_toValue]

/-! ### Envelopes -/

/-- A property that is left out when it is `undefined`. -/
def optionalProperty (key : String) : Option String → List (String × Json)
  | some s => [(key, .str s)]
  | none => []

/-- A text or `null`. -/
def nullableText : Option String → Json
  | some s => .str s
  | none => .null

/-- `toISOString` of a time. -/
def isoString (time : Int) : String := String.ofList (IsoDate.toISOString time)

/-- The envelope of an event of the ledger. -/
def Ledger.IntegrationEventEnvelope.toJson (e : Ledger.IntegrationEventEnvelope) : Json :=
  .obj ([("eventId", .str e.eventId), ("eventType", .str e.eventType),
      ("schemaVersion", .num e.schemaVersion), ("occurredAt", .str (isoString e.occurredAt)),
      ("producer", .str e.producer), ("correlationId", nullableText e.correlationId),
      ("traceId", nullableText e.traceId)] ++
    optionalProperty "traceparent" e.traceparent ++ optionalProperty "tracestate" e.tracestate ++
    [("aggregate", .obj [("type", .str e.aggregateType), ("id", .str e.aggregateId),
        ("version", .num e.aggregateVersion)]),
      ("payload", e.payload)])

/-- An event of the payments service in the type of the ledger's envelopes; its correlation id is
always there. -/
def Payments.PaymentIntegrationEvent.envelope (e : Payments.PaymentIntegrationEvent) :
    Ledger.IntegrationEventEnvelope :=
  { eventId := e.eventId, eventType := e.eventType, schemaVersion := e.schemaVersion,
    occurredAt := e.occurredAt, producer := e.producer, correlationId := some e.correlationId,
    traceId := e.traceId, traceparent := e.traceparent, tracestate := e.tracestate,
    aggregateType := e.aggregateType, aggregateId := e.aggregateId,
    aggregateVersion := e.aggregateVersion, payload := e.payload }

/-- The envelope of an event of the payments service. -/
def Payments.PaymentIntegrationEvent.toJson (e : Payments.PaymentIntegrationEvent) : Json :=
  e.envelope.toJson

end PeerLedger
