import PeerLedger.Formats.JsonSchema
import PeerLedger.Notifications.Producers

/-!
# The contracts of integration events

The schemas of `contracts/integration-events/v1`, and which of the published events they accept.
The two schemas of the payments service have ids under `/contracts/v1/`, where no envelope schema
is, so that their references name none of the files (`find_envelope_none`) and no event is valid
under them (`validates_iff`).  Where the envelope is taken for what they name
(`accepted_iff`), the events are valid as long as their times are written with years of four digits
and their `tracestate` is not too long, but for completed transfers: their payload has got
properties for the destination amount that its closed schema does not know.
-/

namespace PeerLedger

open Formats JsonSchema

/-- A JSON value with its direct parts. -/
def Json.shape : Json → Shape Json
  | .null => .null
  | .bool b => .bool b
  | .num q => .number q
  | .str s => .string s.toList
  | .arr xs => .array xs
  | .obj fields => .object fields

instance : Node Json := ⟨Json.shape⟩

namespace Messaging

/-! ### The schemas -/

def lowerHex : List Char := charRange '0' '9' ++ charRange 'a' 'f'

/-- `^00-[0-9a-f]{32}-[0-9a-f]{16}-[0-9a-f]{2}$`. -/
def traceparentPattern : RegularExpression Char :=
  literal "00-" * (oneOf lowerHex ^ 32 * (literal "-" * (oneOf lowerHex ^ 16 * (literal "-" *
    oneOf lowerHex ^ 2))))

/-- `^[1-9][0-9]*$`. -/
def amountPattern : RegularExpression Char :=
  oneOf (charRange '1' '9') * (oneOf (charRange '0' '9')).star

/-- `^[A-Z]{3}$`. -/
def currencyPattern : RegularExpression Char := oneOf (charRange 'A' 'Z') ^ 3

def alphanumerics : List Char := charRange 'A' 'Z' ++ charRange 'a' 'z' ++ charRange '0' '9'

/-- `^ledger\.wallet\.[A-Za-z0-9]+$`. -/
def walletEventPattern : RegularExpression Char :=
  literal "ledger.wallet." * oneOrMore (oneOf alphanumerics)

/-- The keywords of the envelope. -/
def envelopeKeywords : Schema Json :=
  allOf [type [.object],
    noAdditional ["eventId", "eventType", "schemaVersion", "occurredAt", "producer",
      "correlationId", "traceId", "traceparent", "tracestate", "aggregate", "payload"],
    required ["eventId", "eventType", "schemaVersion", "occurredAt", "producer", "correlationId",
      "traceId", "aggregate", "payload"],
    properties [("eventId", allOf [type [.string], uuid]),
      ("eventType", allOf [type [.string], minLength 1]),
      ("schemaVersion", constNumber 1),
      ("occurredAt", allOf [type [.string], dateTime]),
      ("producer", allOf [type [.string], minLength 1]),
      ("correlationId", type [.string, .null]),
      ("traceId", type [.string, .null]),
      ("traceparent", allOf [type [.string], pattern traceparentPattern]),
      ("tracestate", allOf [type [.string], maxLength 512]),
      ("aggregate", allOf [type [.object],
        noAdditional ["type", "id", "version"],
        required ["type", "id", "version"],
        properties [("type", allOf [type [.string], minLength 1]),
          ("id", allOf [type [.string], minLength 1]),
          ("version", allOf [type [.integer], minimum 1])]]),
      ("payload", type [.object])]]

/-- The keywords of the events of wallets. -/
def walletEventKeywords : Schema Json :=
  allOf [type [.object],
    properties [("eventType", pattern walletEventPattern),
      ("producer", constText "ledger-service"),
      ("aggregate", allOf [type [.object], properties [("type", constText "Wallet")]]),
      ("payload", allOf [type [.object],
        required ["ownerId", "currency", "domainEventType", "domainSchemaVersion", "data"],
        properties [("ownerId", allOf [type [.string], uuid]),
          ("currency", allOf [type [.string], minLength 3, maxLength 3]),
          ("domainEventType", allOf [type [.string], minLength 1]),
          ("domainSchemaVersion", allOf [type [.integer], minimum 1]),
          ("data", type [.object])]])]]

/-- The keywords of an event of the payments service whose payload has these properties and no
other ones. -/
def paymentsKeywords (eventType aggregateType : String) (payload : List (String × Schema Json)) :
    Schema Json :=
  allOf [type [.object],
    properties [("eventType", constText eventType),
      ("schemaVersion", constNumber 1),
      ("producer", constText "payments-service"),
      ("aggregate", allOf [type [.object], properties [("type", constText aggregateType)]]),
      ("payload", allOf [type [.object],
        noAdditional (payload.map Prod.fst),
        required (payload.map Prod.fst),
        properties payload])]]

/-- The keywords of the reminder of an overdue share. -/
def shareOverdueKeywords : Schema Json :=
  paymentsKeywords "payments.split-bill.ShareOverdue" "SplitBillShare"
    [("ownerId", allOf [type [.string], uuid]),
      ("splitBillId", allOf [type [.string], uuid]),
      ("shareId", allOf [type [.string], uuid]),
      ("amountMinor", allOf [type [.string], pattern amountPattern]),
      ("currency", allOf [type [.string], pattern currencyPattern]),
      ("deadline", allOf [type [.string], dateTime])]

/-- The keywords of a completed transfer. -/
def transferCompletedKeywords : Schema Json :=
  paymentsKeywords "payments.transfer.Completed" "Transfer"
    [("senderUserId", allOf [type [.string], uuid]),
      ("senderWalletId", allOf [type [.string], uuid]),
      ("receiverWalletId", allOf [type [.string], uuid]),
      ("amountMinor", allOf [type [.string], pattern amountPattern]),
      ("currency", allOf [type [.string], pattern currencyPattern]),
      ("status", constText "Completed")]

/-- `envelope.schema.json`. -/
def envelopeSchema : Document Json where
  id := "https://p2p-ledger.local/contracts/integration-events/v1/envelope.schema.json"
  parts := [.keywords envelopeKeywords]

/-- `ledger-wallet-event.schema.json`. -/
def ledgerWalletEventSchema : Document Json where
  id := "https://p2p-ledger.local/contracts/integration-events/v1/ledger-wallet-event.schema.json"
  parts := [.ref "./envelope.schema.json", .keywords walletEventKeywords]

/-- `payments-split-bill-share-overdue.schema.json`. -/
def shareOverdueSchema : Document Json where
  id := "https://p2p-ledger.local/contracts/v1/payments-split-bill-share-overdue.schema.json"
  parts := [.ref "./envelope.schema.json", .keywords shareOverdueKeywords]

/-- `payments-transfer-completed.schema.json`. -/
def transferCompletedSchema : Document Json where
  id := "https://p2p-ledger.local/contracts/v1/payments-transfer-completed.schema.json"
  parts := [.ref "./envelope.schema.json", .keywords transferCompletedKeywords]

/-- The files of the folder. -/
def contracts : List (Document Json) :=
  [envelopeSchema, ledgerWalletEventSchema, shareOverdueSchema, transferCompletedSchema]

/-! ### Events under a contract -/

/-- An event that has a schema, by what its producer is given. -/
inductive ContractedEvent where
  | transferCompleted (transfer : Payments.Transfer) (receiverWalletId : String)
      (draw : Payments.MessageDraw)
  | walletEvent (event : Ledger.StoredEvent) (wallet : Ledger.Wallet) (carrier : Ledger.TraceCarrier)
  | shareOverdue (bill : Payments.SplitBill) (share : Payments.SplitBillShare)
      (draw : Payments.MessageDraw)

namespace ContractedEvent

/-- The envelope in the outbox. -/
def envelope : ContractedEvent → Ledger.IntegrationEventEnvelope
  | transferCompleted transfer receiverWalletId draw =>
    (Payments.transferCompletedMessage transfer receiverWalletId draw).event.envelope
  | walletEvent event wallet carrier => (Ledger.outboxMessage event wallet carrier).event
  | shareOverdue bill share draw =>
    (Payments.overdueReminderMessage isoString bill share draw).event.envelope

/-- The schema of the event type. -/
def contract : ContractedEvent → Document Json
  | transferCompleted _ _ _ => transferCompletedSchema
  | walletEvent _ _ _ => ledgerWalletEventSchema
  | shareOverdue _ _ _ => shareOverdueSchema

/-- What the schema of the event type says besides its reference. -/
def keywords : ContractedEvent → Schema Json
  | transferCompleted _ _ _ => transferCompletedKeywords
  | walletEvent _ _ _ => walletEventKeywords
  | shareOverdue _ _ _ => shareOverdueKeywords

/-- The schema, as it resolves among the files, accepts the event after it has been written as text
and read. -/
def Validates (e : ContractedEvent) : Prop :=
  ∃ schema ∈ e.contract.resolve contracts contracts.length,
    ∃ j, Json.parse e.envelope.toJson.stringify = some j ∧ schema j = true

/-- The same where the envelope is taken for what the schema refers to. -/
def Accepted (e : ContractedEvent) : Prop :=
  ∃ j, Json.parse e.envelope.toJson.stringify = some j ∧
    allOf [allOf [envelopeKeywords], e.keywords] j = true

end ContractedEvent

/-- The time is written with a year of four digits. -/
def FourDigitYear (time : Int) : Prop := 0 ≤ IsoDate.yearOf time ∧ IsoDate.yearOf time ≤ 9999

instance (time : Int) : Decidable (FourDigitYear time) :=
  inferInstanceAs (Decidable (0 ≤ IsoDate.yearOf time ∧ IsoDate.yearOf time ≤ 9999))

/-- `traceparent` of the trace headers: version, trace, parent and flags. -/
def IsTraceparent (text : String) : Prop :=
  ∃ traceId parentId flags : List Char,
    text.toList = "00-".toList ++ (traceId ++ ("-".toList ++ (parentId ++ ("-".toList ++ flags)))) ∧
      traceId.length = 32 ∧ parentId.length = 16 ∧ flags.length = 2 ∧
      (traceId ++ parentId ++ flags).all (fun c => c.isDigit || 'a' ≤ c && c ≤ 'f') = true

/-- A stored event of the stream of a wallet. -/
structure IsWalletEvent (event : Ledger.StoredEvent) : Prop where
  eventId : isUuid event.eventId.toList = true
  streamId : isUuid event.streamId.toList = true
  aggregateType : event.aggregateType = "Wallet"
  eventType : event.eventType ∈ [Ledger.WALLET_CREATED, Ledger.MONEY_DEPOSITED,
    Ledger.WITHDRAWAL_COMPLETED, Ledger.FUNDS_HELD, Ledger.HOLD_RELEASED, Ledger.HOLD_CONSUMED]
  schemaVersion : 1 ≤ event.schemaVersion
  streamVersion : 1 ≤ event.streamVersion
  payload : event.payload.Representable ∧ ∃ fields, event.payload = .obj fields

/-- A share of a bill that was past its deadline when a scan looked. -/
structure IsOverdueShare (bill : Payments.SplitBill) (share : Payments.SplitBillShare) : Prop where
  billId : isUuid bill.id.toList = true
  shareId : isUuid share.id.toList = true
  participantUserId : isUuid share.participantUserId.toList = true
  amountMinor : 0 < share.amountMinor
  currency : bill.currency.toList.length = 3 ∧ ∀ c ∈ bill.currency.toList, c.isUpper = true
  overdue : ∃ now, bill.isOverdue now = true

namespace ContractedEvent

/-- What the tables and the platform promise the producers. -/
def Promised : ContractedEvent → Prop
  | transferCompleted transfer _ _ => 1 ≤ transfer.version
  | walletEvent event wallet carrier =>
    IsWalletEvent event ∧ isUuid wallet.ownerId.toList = true ∧
      wallet.currency.toList.length = 3 ∧ ∀ text ∈ carrier.traceparent, IsTraceparent text
  | shareOverdue bill share draw =>
    IsOverdueShare bill share ∧ isUuid draw.eventId.toList = true ∧
      ∀ text ∈ draw.carrier.traceparent, IsTraceparent text

/-- When the schema accepts the event: a completed transfer and the reminder of a share never. -/
def HoldsWhen : ContractedEvent → Prop
  | transferCompleted _ _ _ => False
  | walletEvent event _ carrier =>
    FourDigitYear event.createdAt ∧ ∀ text ∈ carrier.tracestate, text.toList.length ≤ 512
  | shareOverdue _ _ _ => False

/-- When the event is accepted with the envelope in the place of the reference. -/
def AcceptedWhen : ContractedEvent → Prop
  | transferCompleted _ _ _ => False
  | walletEvent event _ carrier =>
    FourDigitYear event.createdAt ∧ ∀ text ∈ carrier.tracestate, text.toList.length ≤ 512
  | shareOverdue bill _ draw =>
    FourDigitYear draw.occurredAt ∧ (∀ time ∈ bill.deadline, FourDigitYear time) ∧
      ∀ text ∈ draw.carrier.tracestate, text.toList.length ≤ 512

end ContractedEvent

/-! ### Evaluation -/

@[simp] lemma allOf_nil (j : Json) : allOf [] j = true := rfl

@[simp] lemma allOf_cons (schema : Schema Json) (schemas : List (Schema Json)) (j : Json) :
    allOf (schema :: schemas) j = (schema j && allOf schemas j) := rfl

@[simp] lemma type_str (s : String) : type [.string] (Json.str s) = true := rfl

@[simp] lemma type_obj (fields : List (String × Json)) :
    type [.object] (Json.obj fields) = true := rfl

@[simp] lemma type_int (n : Int) : type [.integer] (Json.num n) = true :=
  (Bool.or_false _).trans (decide_eq_true (Rat.den_intCast n))

@[simp] lemma type_nullableText (text : Option String) :
    type [.string, .null] (nullableText text) = true := by
  cases text with
  | none => rfl
  | some s => rfl

@[simp] lemma constText_str (text s : String) :
    constText text (Json.str s) = decide (s.toList = text.toList) := rfl

@[simp] lemma constNumber_num (n q : ℚ) : constNumber n (Json.num q) = decide (q = n) := rfl

@[simp] lemma minimum_num (bound q : ℚ) : minimum bound (Json.num q) = decide (bound ≤ q) := rfl

@[simp] lemma onText_str (holds : List Char → Bool) (s : String) :
    onText holds (Json.str s) = holds s.toList := rfl

@[simp] lemma required_obj (names : List String) (fields : List (String × Json)) :
    required names (Json.obj fields) = names.all fun name => (fields.lookup name).isSome := rfl

@[simp] lemma properties_obj (schemas : List (String × Schema Json))
    (fields : List (String × Json)) :
    properties schemas (Json.obj fields) = schemas.all fun p => (fields.lookup p.1).all p.2 := rfl

@[simp] lemma noAdditional_obj (names : List String) (fields : List (String × Json)) :
    noAdditional names (Json.obj fields) = fields.all fun m => m.1 ∈ names := rfl

/-! ### Patterns -/

lemma mem_lowerHex {c : Char} (h : (c.isDigit || 'a' ≤ c && c ≤ 'f') = true) :
    c ∈ lowerHex := by
  unfold lowerHex
  rw [List.mem_append]
  rw [Bool.or_eq_true, Bool.and_eq_true, decide_eq_true_eq, decide_eq_true_eq] at h
  rcases h with hdigit | hletter
  · rw [Char.isDigit, Bool.and_eq_true, decide_eq_true_eq, decide_eq_true_eq] at hdigit
    exact .inl (mem_charRange hdigit.1 hdigit.2)
  · exact .inr (mem_charRange hletter.1 hletter.2)

lemma mem_traceparentPattern {text : String} (h : IsTraceparent text) :
    text.toList ∈ traceparentPattern.matches' := by
  obtain ⟨traceId, parentId, flags, htext, htrace, hparent, hflags, hall⟩ := h
  rw [htext]
  have hmem : ∀ {part : List Char} {n : ℕ}, part.length = n →
      (part.all (fun c => c.isDigit || 'a' ≤ c && c ≤ 'f') = true) →
      part ∈ (oneOf lowerHex ^ n).matches' := by
    rintro part n rfl h
    exact mem_oneOf_pow fun c hc => mem_lowerHex (List.all_eq_true.mp h c hc)
  rw [List.all_append, List.all_append, Bool.and_eq_true, Bool.and_eq_true] at hall
  have hdash : "-".toList ∈ (literal "-").matches' := mem_literal.mpr rfl
  refine Language.append_mem_mul (mem_literal.mpr rfl)
    (Language.append_mem_mul (hmem htrace hall.1.1) ?_)
  refine Language.append_mem_mul hdash (Language.append_mem_mul (hmem hparent hall.1.2) ?_)
  exact Language.append_mem_mul hdash (hmem hflags hall.2)

lemma mem_currencyPattern {text : List Char} (hlength : text.length = 3)
    (hupper : ∀ c ∈ text, c.isUpper = true) : text ∈ currencyPattern.matches' := by
  unfold currencyPattern
  rw [← hlength]
  refine mem_oneOf_pow fun c hc => ?_
  have h := of_decide_eq_true (hupper c hc)
  exact mem_charRange h.1 h.2

/-- A positive amount is written without a leading zero. -/
lemma mem_amountPattern {n : Int} (h : 0 < n) :
    (toString n).toList ∈ amountPattern.matches' := by
  obtain ⟨m, rfl⟩ := Int.eq_ofNat_of_zero_le h.le
  have htext : (toString (m : Int)).toList = Nat.toDigits 10 m := Nat.toList_repr
  have hplain := FixedPoint.plain_toDigits m
  rw [htext]
  obtain ⟨c, rest, hdigits⟩ := List.exists_cons_of_ne_nil hplain.ne_nil
  rw [hdigits] at hplain ⊢
  have hdigit : ∀ d ∈ c :: rest, '0'.toNat ≤ d.toNat ∧ d.toNat ≤ '9'.toNat := by
    intro d hd
    have := hplain.allDigits d hd
    rwa [Char.isDigit, Bool.and_eq_true, decide_eq_true_eq, decide_eq_true_eq] at this
  have hne : c ≠ '0' := by
    rintro rfl
    have hzero := Nat.ofDigitChars_ten_toDigits (n := m)
    rw [hdigits, hplain.head rest rfl] at hzero
    exact h.ne (congrArg Nat.cast hzero)
  have hfirst : '1'.toNat ≤ c.toNat :=
    Nat.lt_of_le_of_ne (hdigit c List.mem_cons_self).1 fun hc => hne (Char.toNat_inj.mp hc.symm)
  have happ : c :: rest = [c] ++ rest := rfl
  rw [happ]
  refine Language.append_mem_mul (mem_oneOf.mpr ⟨c, ?_, rfl⟩) (mem_star_oneOf.mpr fun d hd => ?_)
  · exact mem_charRange hfirst (hdigit c List.mem_cons_self).2
  · have hd := hdigit d (List.mem_cons_of_mem c hd)
    exact mem_charRange hd.1 hd.2

lemma mem_alphanumerics {c : Char} (h : c.isAlphanum = true) : c ∈ alphanumerics := by
  unfold alphanumerics
  rw [List.mem_append, List.mem_append]
  change (c.isUpper || c.isLower || c.isDigit) = true at h
  rw [Bool.or_eq_true, Bool.or_eq_true] at h
  rcases h with (hupper | hlower) | hdigit
  · have h := of_decide_eq_true hupper
    exact .inl (.inl (mem_charRange h.1 h.2))
  · have h := Bool.and_eq_true_iff.mp hlower
    exact .inl (.inr (mem_charRange (of_decide_eq_true h.1) (of_decide_eq_true h.2)))
  · rw [Char.isDigit, Bool.and_eq_true, decide_eq_true_eq, decide_eq_true_eq] at hdigit
    exact .inr (mem_charRange hdigit.1 hdigit.2)

/-- The types of wallet events are alphanumeric. -/
lemma mem_walletEventPattern {eventType : String}
    (h : eventType ∈ [Ledger.WALLET_CREATED, Ledger.MONEY_DEPOSITED, Ledger.WITHDRAWAL_COMPLETED,
      Ledger.FUNDS_HELD, Ledger.HOLD_RELEASED, Ledger.HOLD_CONSUMED]) :
    1 ≤ eventType.toList.length ∧
      ("ledger.wallet." ++ eventType).toList ∈ walletEventPattern.matches' := by
  have hall : ([Ledger.WALLET_CREATED, Ledger.MONEY_DEPOSITED, Ledger.WITHDRAWAL_COMPLETED,
      Ledger.FUNDS_HELD, Ledger.HOLD_RELEASED, Ledger.HOLD_CONSUMED].all fun name =>
        decide (1 ≤ name.toList.length) && name.toList.all Char.isAlphanum) = true := by decide
  have hname := List.all_eq_true.mp hall eventType h
  rw [Bool.and_eq_true, decide_eq_true_eq, List.all_eq_true] at hname
  obtain ⟨hlength, hchars⟩ := hname
  refine ⟨hlength, ?_⟩
  obtain ⟨c, rest, htext⟩ := List.exists_cons_of_length_pos hlength
  rw [htext, List.forall_mem_cons] at hchars
  rw [String.toList_append, htext, ← RegularExpression.rmatch_iff_matches']
  exact rmatch_literal_oneOrMore (mem_alphanumerics hchars.1) fun d hd =>
    mem_alphanumerics (hchars.2 d hd)

/-! ### Envelopes -/

lemma length_pos_of_isUuid {text : List Char} (h : isUuid text = true) : 1 ≤ text.length := by
  unfold isUuid at h
  rw [(of_decide_eq_true h).1]
  decide

/-- What all envelopes of contracted events have. -/
structure ProperEnvelope (e : Ledger.IntegrationEventEnvelope) : Prop where
  eventId : isUuid e.eventId.toList = true
  eventType : 1 ≤ e.eventType.toList.length
  schemaVersion : e.schemaVersion = 1
  producer : 1 ≤ e.producer.toList.length
  traceparent : ∀ text ∈ e.traceparent, IsTraceparent text
  aggregateType : 1 ≤ e.aggregateType.toList.length
  aggregateId : 1 ≤ e.aggregateId.toList.length
  aggregateVersion : 1 ≤ e.aggregateVersion
  payload : ∃ fields, e.payload = .obj fields

lemma dateTime_isoString (time : Int) :
    IsoDate.isDateTime (isoString time).toList = true ↔ FourDigitYear time := by
  rw [isoString, String.toList_ofList, IsoDate.isDateTime_toISOString]
  rfl

/-- The schema of the envelope looks at the time and at the trace state. -/
lemma envelopeKeywords_toJson {e : Ledger.IntegrationEventEnvelope} (h : ProperEnvelope e) :
    envelopeKeywords e.toJson = true ↔
      FourDigitYear e.occurredAt ∧ ∀ text ∈ e.tracestate, text.toList.length ≤ 512 := by
  obtain ⟨fields, hpayload⟩ := h.payload
  have hversion : (1 : ℚ) ≤ e.aggregateVersion := by exact_mod_cast h.aggregateVersion
  have hparent : ∀ text ∈ e.traceparent, text.toList ∈ traceparentPattern.matches' :=
    fun text htext => mem_traceparentPattern (h.traceparent text htext)
  rw [← dateTime_isoString]
  unfold envelopeKeywords Ledger.IntegrationEventEnvelope.toJson
  cases hp : e.traceparent <;> cases hs : e.tracestate <;> rw [hp] at hparent <;>
    simp_all [optionalProperty, minLength, maxLength, uuid, dateTime, pattern, List.lookup_cons,
      h.eventId, h.eventType, h.schemaVersion, h.producer, h.aggregateType, h.aggregateId]

/-! ### Payloads -/

/-- The keywords of an event of the payments service look at the payload. -/
lemma paymentsKeywords_toJson {draw : Payments.MessageDraw} {eventType routingKey aggregateType
    aggregateId correlationId : String} {version : Int} {fields : List (String × Json)}
    {payload : List (String × Schema Json)} :
    paymentsKeywords eventType aggregateType payload (Payments.outboxMessage draw eventType
        routingKey aggregateType aggregateId version correlationId (.obj fields)).event.toJson =
          true ↔
      noAdditional (payload.map Prod.fst) (Json.obj fields) = true ∧
        required (payload.map Prod.fst) (Json.obj fields) = true ∧
        properties payload (Json.obj fields) = true := by
  unfold paymentsKeywords Payments.outboxMessage Payments.PaymentIntegrationEvent.toJson
    Payments.PaymentIntegrationEvent.envelope Ledger.IntegrationEventEnvelope.toJson
  cases draw.carrier.traceparent <;> cases draw.carrier.tracestate <;>
    simp [optionalProperty, List.lookup_cons, -noAdditional_obj, -required_obj]

/-- No completed transfer is accepted: the payload has properties for the destination. -/
lemma transferCompletedKeywords_toJson (transfer : Payments.Transfer) (receiverWalletId : String)
    (draw : Payments.MessageDraw) :
    transferCompletedKeywords
      (Payments.transferCompletedMessage transfer receiverWalletId draw).event.toJson = false := by
  rw [Bool.eq_false_iff]
  intro hvalid
  rw [transferCompletedKeywords, Payments.transferCompletedMessage, paymentsKeywords_toJson]
    at hvalid
  exact absurd hvalid.1 (by simp)

/-- The payload of a reminder is accepted up to the deadline. -/
lemma shareOverdueKeywords_toJson {bill : Payments.SplitBill} {share : Payments.SplitBillShare}
    {draw : Payments.MessageDraw} (h : IsOverdueShare bill share) :
    shareOverdueKeywords (Payments.overdueReminderMessage isoString bill share draw).event.toJson =
        true ↔
      ∀ time ∈ bill.deadline, FourDigitYear time := by
  obtain ⟨now, hnow⟩ := h.overdue
  obtain ⟨deadline, hdeadline, -⟩ := (Option.any_eq_true _ _).mp hnow
  have hcurrency := mem_currencyPattern h.currency.1 h.currency.2
  have hamount : share.amountMinor.repr.toList ∈ amountPattern.matches' :=
    mem_amountPattern h.amountMinor
  rw [shareOverdueKeywords, Payments.overdueReminderMessage, paymentsKeywords_toJson]
  simp [uuid, dateTime, pattern, List.lookup_cons, hdeadline, h.billId, h.shareId, h.participantUserId,
    hcurrency, hamount, dateTime_isoString]

/-- A reminder is written into a proper envelope. -/
lemma properEnvelope_shareOverdue {bill : Payments.SplitBill} {share : Payments.SplitBillShare}
    {draw : Payments.MessageDraw} (h : IsOverdueShare bill share)
    (hid : isUuid draw.eventId.toList = true)
    (hparent : ∀ text ∈ draw.carrier.traceparent, IsTraceparent text) :
    ProperEnvelope (Payments.overdueReminderMessage isoString bill share draw).event.envelope := by
  have htype : 1 ≤ "payments.split-bill.ShareOverdue".toList.length := by decide
  have hproducer : 1 ≤ "payments-service".toList.length := by decide
  have haggregate : 1 ≤ "SplitBillShare".toList.length := by decide
  exact
    { eventId := hid, eventType := htype, schemaVersion := rfl, producer := hproducer,
      traceparent := hparent, aggregateType := haggregate,
      aggregateId := length_pos_of_isUuid h.shareId, aggregateVersion := le_rfl,
      payload := ⟨_, rfl⟩ }

/-- The keywords of wallets accept the events of wallets. -/
lemma walletEventKeywords_toJson {event : Ledger.StoredEvent} {wallet : Ledger.Wallet}
    {carrier : Ledger.TraceCarrier} (h : IsWalletEvent event)
    (howner : isUuid wallet.ownerId.toList = true)
    (hcurrency : wallet.currency.toList.length = 3) :
    walletEventKeywords (Ledger.outboxMessage event wallet carrier).event.toJson = true := by
  obtain ⟨fields, hpayload⟩ := h.payload.2
  obtain ⟨htype, hpattern⟩ := mem_walletEventPattern h.eventType
  have hschema : (1 : ℚ) ≤ event.schemaVersion := by exact_mod_cast h.schemaVersion
  unfold walletEventKeywords Ledger.outboxMessage Ledger.walletEnvelope
    Ledger.IntegrationEventEnvelope.toJson
  generalize "ledger.wallet." ++ event.eventType = name at hpattern ⊢
  cases carrier.traceparent <;> cases carrier.tracestate <;>
    simp [optionalProperty, List.lookup_cons, hpayload, uuid, pattern, minLength, maxLength, howner,
      hcurrency, hschema, h.aggregateType, hpattern, htype]

/-- The event of a wallet is written into a proper envelope. -/
lemma properEnvelope_wallet {event : Ledger.StoredEvent} {carrier : Ledger.TraceCarrier}
    (wallet : Ledger.Wallet) (h : IsWalletEvent event)
    (hparent : ∀ text ∈ carrier.traceparent, IsTraceparent text) :
    ProperEnvelope (Ledger.outboxMessage event wallet carrier).event := by
  have hprefix : 1 ≤ "ledger.wallet.".toList.length := by decide
  have hname : 1 ≤ ("ledger.wallet." ++ event.eventType).toList.length := by
    rw [String.toList_append, List.length_append]
    omega
  have hproducer : 1 ≤ "ledger-service".toList.length := by decide
  have haggregate : 1 ≤ event.aggregateType.toList.length := by
    rw [h.aggregateType]
    decide
  exact
    { eventId := h.eventId, eventType := hname, schemaVersion := rfl, producer := hproducer,
      traceparent := hparent, aggregateType := haggregate,
      aggregateId := length_pos_of_isUuid h.streamId, aggregateVersion := h.streamVersion,
      payload := ⟨_, rfl⟩ }

/-! ### The events that wallets append -/

section WalletEvents

open Ledger

variable {streamId eventId : String} {version now : Int}

/-- The first event of a wallet. -/
lemma isWalletEvent_created {ownerId currency : String} (hstream : isUuid streamId.toList = true)
    (hid : isUuid eventId.toList = true) (hversion : 0 ≤ version) :
    IsWalletEvent (nextEvent streamId version
      (WalletAggregate.createdEvent eventId ownerId currency) now) where
  eventId := hid
  streamId := hstream
  aggregateType := rfl
  eventType := List.mem_cons_self
  schemaVersion := Int.le_add_one le_rfl
  streamVersion := by
    change 1 ≤ version + ((0 : ℕ) : Int) + 1
    omega
  payload := by
    have hkeys : ["ownerId", "currencyCode"].Nodup := by decide
    refine ⟨.obj hkeys ?_, _, rfl⟩
    simp only [List.forall_mem_cons, List.not_mem_nil, false_implies, implies_true, and_true]
    exact ⟨.str _, .str _⟩

lemma representable_movement (walletId : String) (n : Int) (transactionId : String) :
    (Ledger.Change.movementFields walletId n transactionId).map Prod.fst = ["transactionId", "postings"] ∧
      ∀ field ∈ Ledger.Change.movementFields walletId n transactionId, field.2.Representable := by
  refine ⟨rfl, ?_⟩
  unfold Ledger.Change.movementFields LedgerTransactionPayload.fields
  simp only [List.forall_mem_cons, List.not_mem_nil, false_implies, implies_true, and_true]
  refine ⟨.str _, .arr fun x hx => ?_⟩
  obtain ⟨posting, -, rfl⟩ := List.mem_map.mp hx
  have hkeys : ["accountId", "amountMinor"].Nodup := by decide
  refine .obj hkeys ?_
  simp only [List.forall_mem_cons, List.not_mem_nil, false_implies, implies_true, and_true]
  exact ⟨.str _, .str _⟩

/-- The payload of a change. -/
lemma representable_change (c : Ledger.Change) (walletId : String) :
    (c.event walletId eventId).payload.Representable ∧
      ∃ fields, (c.event walletId eventId).payload = .obj fields := by
  have hmovement : ["transactionId", "postings"].Nodup := by decide
  have hhold : ["holdId", "amountMinor"].Nodup := by decide
  have hconsumed : ["holdId", "transactionId", "postings"].Nodup := by decide
  refine ⟨?_, by cases c <;> exact ⟨_, rfl⟩⟩
  cases c with
  | deposited n transactionId => exact .obj hmovement (representable_movement _ _ _).2
  | withdrawn n transactionId => exact .obj hmovement (representable_movement _ _ _).2
  | held holdId n =>
    refine .obj hhold ?_
    simp only [List.forall_mem_cons, List.not_mem_nil, false_implies, implies_true, and_true]
    exact ⟨.str _, .str _⟩
  | released holdId n =>
    refine .obj (List.nodup_singleton "holdId") ?_
    simp only [List.forall_mem_cons, List.not_mem_nil, false_implies, implies_true, and_true]
    exact .str _
  | consumed holdId n transactionId =>
    refine .obj hconsumed (List.forall_mem_cons.mpr ⟨.str _, (representable_movement _ _ _).2⟩)

/-- The event of a change to a wallet. -/
lemma isWalletEvent_change (c : Ledger.Change) (hstream : isUuid streamId.toList = true)
    (hid : isUuid eventId.toList = true) (hversion : 0 ≤ version) :
    IsWalletEvent (nextEvent streamId version (c.event streamId eventId) now) where
  eventId := by cases c <;> exact hid
  streamId := hstream
  aggregateType := rfl
  eventType := by
    rw [Ledger.Change.nextEvent_eventType]
    cases c <;> simp [Ledger.Change.eventType]
  schemaVersion := by cases c <;> exact le_rfl
  streamVersion := by
    change 1 ≤ version + ((0 : ℕ) : Int) + 1
    omega
  payload := representable_change c streamId

end WalletEvents

/-! ### Validity -/

lemma ContractedEvent.representable {e : ContractedEvent} (h : e.Promised) :
    e.envelope.toJson.Representable := by
  cases e with
  | transferCompleted transfer receiverWalletId draw =>
    exact Notifications.representable_toJson
      (Notifications.Enqueued.transferCompleted transfer receiverWalletId draw h
        : Notifications.Enqueued isoString _ _ _).proper.representable
  | walletEvent event wallet carrier =>
    exact Notifications.representable_toJson
      (Notifications.proper_wallet event wallet carrier h.1.streamVersion h.1.payload.1).representable
  | shareOverdue bill share draw =>
    exact Notifications.representable_toJson
      (Notifications.Enqueued.shareOverdue bill share draw
        : Notifications.Enqueued isoString _ _ _).proper.representable

/-- What is accepted of the text of an event is what is accepted of the event. -/
lemma ContractedEvent.parse_iff {e : ContractedEvent} (h : e.Promised) (schema : Schema Json) :
    (∃ j, Json.parse e.envelope.toJson.stringify = some j ∧ schema j = true) ↔
      schema e.envelope.toJson = true := by
  rw [Json.parse_stringify (representable h)]
  constructor
  · rintro ⟨j, hj, hvalid⟩
    rwa [Option.some.inj hj]
  · intro hvalid
    exact ⟨_, rfl, hvalid⟩

/-- Which events of the outboxes the keywords of the files accept. -/
theorem accepted_iff (e : ContractedEvent) (h : e.Promised) : e.Accepted ↔ e.AcceptedWhen := by
  rw [ContractedEvent.Accepted, ContractedEvent.parse_iff h]
  simp only [allOf_cons, allOf_nil, Bool.and_true, Bool.and_eq_true]
  cases e with
  | transferCompleted transfer receiverWalletId draw =>
    have hinvalid := transferCompletedKeywords_toJson transfer receiverWalletId draw
    exact iff_of_false (fun hvalid => ne_true_of_eq_false hinvalid hvalid.2) id
  | walletEvent event wallet carrier =>
    have henvelope := envelopeKeywords_toJson (properEnvelope_wallet wallet h.1 h.2.2.2)
    exact (and_iff_left (walletEventKeywords_toJson h.1 h.2.1 h.2.2.1)).trans henvelope
  | shareOverdue bill share draw =>
    have henvelope := envelopeKeywords_toJson (properEnvelope_shareOverdue h.1 h.2.1 h.2.2)
    refine (and_congr henvelope (shareOverdueKeywords_toJson h.1)).trans ?_
    rw [and_assoc]
    exact and_congr_right fun _ => and_comm

/-! ### References between the files -/

/-- The envelope is beside the schema of the events of wallets. -/
lemma find_envelope : contracts.find? (fun d =>
    d.id = resolveReference ledgerWalletEventSchema.id "./envelope.schema.json") =
      some envelopeSchema :=
  List.find?_cons_of_pos (by decide +kernel)

/-- Nothing is beside the schemas of the payments service, by their ids. -/
lemma find_envelope_none {id : String} (h : id ∈ [shareOverdueSchema.id, transferCompletedSchema.id]) :
    contracts.find? (fun d => d.id = resolveReference id "./envelope.schema.json") = none := by
  rw [List.find?_eq_none]
  have hnone : ∀ id ∈ [shareOverdueSchema.id, transferCompletedSchema.id],
      ∀ file ∈ contracts.map Document.id, file ≠ resolveReference id "./envelope.schema.json" := by
    decide +kernel
  intro d hd
  exact mt of_decide_eq_true (hnone id h d.id (List.mem_map_of_mem hd))

/-- The schema of the events of wallets resolves. -/
lemma ledgerWalletEventSchema_resolve :
    ledgerWalletEventSchema.resolve contracts contracts.length =
      some (allOf [allOf [envelopeKeywords], walletEventKeywords]) :=
  Document.resolve_ref find_envelope Document.resolve_keywords

/-- The schemas of the payments service do not. -/
lemma transferCompletedSchema_resolve :
    transferCompletedSchema.resolve contracts contracts.length = none :=
  Document.resolve_ref_none (find_envelope_none (List.mem_cons_of_mem _ List.mem_cons_self))

lemma shareOverdueSchema_resolve :
    shareOverdueSchema.resolve contracts contracts.length = none :=
  Document.resolve_ref_none (find_envelope_none List.mem_cons_self)

/-- No event is valid under a schema that does not resolve. -/
lemma ContractedEvent.not_validates (e : ContractedEvent)
    (h : e.contract.resolve contracts contracts.length = none) : ¬ e.Validates := by
  rintro ⟨schema, hschema, -⟩
  exact absurd (h.symm.trans hschema) (Option.some_ne_none schema).symm

/-- Which events of the outboxes are valid. -/
theorem validates_iff (e : ContractedEvent) (h : e.Promised) : e.Validates ↔ e.HoldsWhen := by
  cases e with
  | transferCompleted transfer receiverWalletId draw =>
    exact iff_of_false (ContractedEvent.not_validates _ transferCompletedSchema_resolve) id
  | walletEvent event wallet carrier =>
    refine Iff.trans ⟨?_, fun hvalid => ⟨_, ledgerWalletEventSchema_resolve, hvalid⟩⟩
      (accepted_iff (.walletEvent event wallet carrier) h)
    rintro ⟨schema, hschema, hvalid⟩
    obtain rfl := Option.some.inj (ledgerWalletEventSchema_resolve.symm.trans hschema)
    exact hvalid
  | shareOverdue bill share draw =>
    exact iff_of_false (ContractedEvent.not_validates _ shareOverdueSchema_resolve) id

/-- A deposit to a wallet in 2025. -/
def depositEvent : ContractedEvent :=
  .walletEvent
    (Ledger.nextEvent "a1b2c3d4-0000-4000-8000-000000000001" 1
      (Ledger.Change.event "a1b2c3d4-0000-4000-8000-000000000001"
        "a1b2c3d4-0000-4000-8000-000000000002"
        (.deposited 700 "a1b2c3d4-0000-4000-8000-000000000003")) 1760000000000)
    { id := "a1b2c3d4-0000-4000-8000-000000000001"
      ownerId := "a1b2c3d4-0000-4000-8000-000000000004", currency := "USD" }
    { traceparent := some "00-0af7651916cd43dd8448eb211c80319c-b7ad6b7169203331-01" }

theorem validates_iff_deposit : depositEvent.Validates := by
  refine (validates_iff depositEvent ⟨isWalletEvent_change _ ?_ ?_ ?_, ?_, ?_, ?_⟩).mpr ⟨?_, ?_⟩
  · decide +kernel
  · decide +kernel
  · decide
  · decide +kernel
  · decide
  · intro text htext
    obtain rfl := Option.some.inj htext
    exact ⟨"0af7651916cd43dd8448eb211c80319c".toList, "b7ad6b7169203331".toList, "01".toList,
      by decide +kernel⟩
  · decide +kernel
  · exact fun _ h => absurd h (Option.not_mem_none _)

/-- A completed transfer of four dollars. -/
def completedTransfer : ContractedEvent :=
  .transferCompleted
    (Payments.newTransfer "a1b2c3d4-0000-4000-8000-000000000001"
      { senderUserId := "a1b2c3d4-0000-4000-8000-000000000002"
        senderWalletId := "a1b2c3d4-0000-4000-8000-000000000003"
        receiverReference := "bob@example.com", amountMinor := 400, currency := "USD"
        destinationCurrency := "USD", splitBillShareId := none }
      { destinationAmountMinor := 400, rateNumerator := 1000000, rateDenominator := 1000000,
        displayRate := "1.00000000", quotedAt := 0, expiresAt := 900000 } "key" "fingerprint" 0)
    "a1b2c3d4-0000-4000-8000-000000000004"
    { eventId := "a1b2c3d4-0000-4000-8000-000000000005", occurredAt := 1760000000000, carrier := {} }

/-- Its schema does not accept its event, whichever way its reference is read. -/
theorem completedTransfer_not_valid :
    (¬ ∀ e : ContractedEvent, e.Promised → e.Validates) ∧
      ¬ ∀ e : ContractedEvent, e.Promised → e.Accepted := by
  have hpromised : completedTransfer.Promised := le_rfl
  refine ⟨fun hall => ?_, fun hall => ?_⟩
  · exact completedTransfer.not_validates transferCompletedSchema_resolve
      (hall completedTransfer hpromised)
  · exact (accepted_iff completedTransfer hpromised).mp (hall completedTransfer hpromised)

end Messaging

end PeerLedger
