import PeerLedger.Messaging.Encoding
import PeerLedger.Payments.Reminders
import PeerLedger.Notifications.Inbox

/-!
# The consumer understands every producer

What the ledger and the payments service put into their outboxes is published as JSON text under the
routing key of the row.  The notifications service reads the text as the envelope that was written,
trusts it, and finds the user whom the event is about (`consumer_understands`).
-/

namespace PeerLedger

namespace Notifications

open Formats

/-! ### What is produced -/

/-- An envelope that an outbox row carries, with the routing key of the row and the user whom the
event is about. -/
inductive Enqueued (iso : Int → String) :
    Ledger.IntegrationEventEnvelope → String → String → Prop
  | wallet (event : Ledger.StoredEvent) (wallet : Ledger.Wallet) (carrier : Ledger.TraceCarrier)
      (hversion : 1 ≤ event.streamVersion) (hpayload : event.payload.Representable) :
      Enqueued iso (Ledger.outboxMessage event wallet carrier).event
        (Ledger.outboxMessage event wallet carrier).routingKey wallet.ownerId
  | transferCompleted (transfer : Payments.Transfer) (receiverWalletId : String)
      (draw : Payments.MessageDraw) (hversion : 1 ≤ transfer.version) :
      Enqueued iso (Payments.transferCompletedMessage transfer receiverWalletId draw).event.envelope
        (Payments.transferCompletedMessage transfer receiverWalletId draw).routingKey
        transfer.senderUserId
  | splitBillCreated (bill : Payments.SplitBill) (share : Payments.SplitBillShare)
      (draw : Payments.MessageDraw) :
      Enqueued iso (Payments.splitBillCreatedMessage iso bill share draw).event.envelope
        (Payments.splitBillCreatedMessage iso bill share draw).routingKey share.participantUserId
  | sharePaid (transfer : Payments.Transfer) (share : Payments.SplitBillShare)
      (bill : Payments.SplitBill) (status : Payments.SplitBillStatus) (draw : Payments.MessageDraw) :
      Enqueued iso (Payments.sharePaidMessage transfer share bill status draw).event.envelope
        (Payments.sharePaidMessage transfer share bill status draw).routingKey
        share.participantUserId
  | statusChanged (transfer : Payments.Transfer) (share : Payments.SplitBillShare)
      (bill : Payments.SplitBill) (status : Payments.SplitBillStatus) (draw : Payments.MessageDraw) :
      Enqueued iso (Payments.statusChangedMessage transfer share bill status draw).event.envelope
        (Payments.statusChangedMessage transfer share bill status draw).routingKey bill.creatorUserId
  | shareOverdue (bill : Payments.SplitBill) (share : Payments.SplitBillShare)
      (draw : Payments.MessageDraw) :
      Enqueued iso (Payments.overdueReminderMessage iso bill share draw).event.envelope
        (Payments.overdueReminderMessage iso bill share draw).routingKey share.participantUserId

/-! ### What is consumed -/

/-- `JSON.parse` and `Date.parse`, as far as the language fixes them. -/
structure Platform.Standard (platform : Platform) : Prop where
  parseJson : ∀ text, platform.parseJson text = Json.parse text
  parsesAsDate : ∀ time, -IsoDate.maxTime ≤ time ∧ time ≤ IsoDate.maxTime →
    platform.parsesAsDate (isoString time) = true

/-- What the consumer reads of an envelope. -/
def received (event : Ledger.IntegrationEventEnvelope) : IntegrationEventEnvelope :=
  { eventId := event.eventId, eventType := event.eventType, schemaVersion := event.schemaVersion,
    occurredAt := isoString event.occurredAt, producer := event.producer,
    aggregateType := event.aggregateType, aggregateId := event.aggregateId,
    aggregateVersion := event.aggregateVersion, payload := event.payload, value := event.toJson }

/-- What the envelopes of both services have in common. -/
structure Proper (event : Ledger.IntegrationEventEnvelope) (routingKey userId : String) : Prop where
  schemaVersion : event.schemaVersion = 1
  aggregateVersion : 1 ≤ event.aggregateVersion
  payload : isObject event.payload = true
  representable : event.payload.Representable
  trusted : assertTrustedIntegrationEvent (received event) routingKey = .ok ()
  user : userIdFor (received event) = some userId

lemma versionProperty_num {j : Json} {key : String} {n : Int}
    (h : property j key = some (.num n)) (hn : 1 ≤ n) : versionProperty j key = some n := by
  rw [versionProperty, h]
  exact if_pos ⟨Rat.den_intCast n, hn⟩

/-- The aggregate and the payload come after the properties that can be left out. -/
lemma property_toJson (event : Ledger.IntegrationEventEnvelope) :
    property event.toJson "aggregate" = some (.obj [("type", .str event.aggregateType),
        ("id", .str event.aggregateId), ("version", .num event.aggregateVersion)]) ∧
      property event.toJson "payload" = some event.payload := by
  unfold property Ledger.IntegrationEventEnvelope.toJson
  cases event.traceparent <;> cases event.tracestate <;> exact ⟨rfl, rfl⟩

/-- The consumer accepts a proper envelope. -/
lemma parseIntegrationEvent_toJson {platform : Platform} {event : Ledger.IntegrationEventEnvelope}
    {routingKey userId : String} (h : Proper event routingKey userId)
    (hid : Ledger.isUuid event.eventId = true)
    (htime : platform.parsesAsDate (isoString event.occurredAt) = true) :
    parseIntegrationEvent platform event.toJson = .ok (received event) := by
  have haggregate : objectProperty event.toJson "aggregate" =
      some (.obj [("type", .str event.aggregateType), ("id", .str event.aggregateId),
        ("version", .num event.aggregateVersion)]) := by
    rw [objectProperty, (property_toJson event).1]
    rfl
  have hpayload : objectProperty event.toJson "payload" = some event.payload := by
    rw [objectProperty, (property_toJson event).2, Option.filter_some, if_pos h.payload]
  have hobject : isObject event.toJson = true := rfl
  have heventId : stringProperty event.toJson "eventId" = some event.eventId := rfl
  have heventType : stringProperty event.toJson "eventType" = some event.eventType := rfl
  have hoccurredAt : stringProperty event.toJson "occurredAt" = some (isoString event.occurredAt) :=
    rfl
  have hproducer : stringProperty event.toJson "producer" = some event.producer := rfl
  have hschema : versionProperty event.toJson "schemaVersion" = some event.schemaVersion :=
    versionProperty_num rfl h.schemaVersion.ge
  have hversion : versionProperty (.obj [("type", .str event.aggregateType),
      ("id", .str event.aggregateId), ("version", .num event.aggregateVersion)]) "version" =
      some event.aggregateVersion := versionProperty_num rfl h.aggregateVersion
  have hread : readEnvelope platform event.toJson = some (received event) := by
    rw [readEnvelope, hobject, heventId, heventType, hschema, hoccurredAt, hproducer, haggregate,
      hpayload]
    simp only [Option.filter_some, hid, htime, if_true, Option.bind_eq_bind, Option.bind_some,
      hversion]
    rfl
  rw [parseIntegrationEvent, hread]

/-! ### Representable envelopes -/

lemma representable_int (n : Int) : (Json.num n).Representable :=
  .num ⟨0, by rw [Rat.den_intCast, Nat.pow_zero]⟩

lemma representable_nullableText (text : Option String) : (nullableText text).Representable := by
  cases text with
  | none => exact .null
  | some s => exact .str s

lemma representable_optionalProperty (key : String) (text : Option String) :
    ∀ field ∈ optionalProperty key text, field.2.Representable := by
  cases text with
  | none => exact fun _ h => absurd h List.not_mem_nil
  | some s =>
    intro field h
    rw [List.mem_singleton.mp h]
    exact .str s

lemma representable_toJson {event : Ledger.IntegrationEventEnvelope}
    (h : event.payload.Representable) : event.toJson.Representable := by
  have haggregate : (Json.obj [("type", .str event.aggregateType), ("id", .str event.aggregateId),
      ("version", .num event.aggregateVersion)]).Representable := by
    have hkeys : ["type", "id", "version"].Nodup := by decide
    refine .obj hkeys ?_
    simp only [List.forall_mem_cons, List.not_mem_nil, false_implies, implies_true, and_true]
    exact ⟨.str _, .str _, representable_int _⟩
  refine .obj ?_ ?_
  · have hkeys : ["eventId", "eventType", "schemaVersion", "occurredAt", "producer",
        "correlationId", "traceId", "traceparent", "tracestate", "aggregate", "payload"].Nodup := by
      decide
    refine hkeys.sublist ?_
    cases event.traceparent <;> cases event.tracestate <;> exact List.isSublist_iff_sublist.mp rfl
  · simp only [List.forall_mem_append, List.forall_mem_cons, List.not_mem_nil, false_implies,
      implies_true, and_true]
    exact ⟨⟨⟨⟨.str _, .str _, representable_int _, .str _, .str _, representable_nullableText _,
      representable_nullableText _⟩, representable_optionalProperty _ _⟩,
      representable_optionalProperty _ _⟩, haggregate, h⟩

/-! ### Each producer -/

lemma startsWith_append {s start : String} (h : startsWith s start = true) (rest : String) :
    startsWith (s ++ rest) start = true := by
  unfold startsWith at h ⊢
  rw [String.toList_append]
  rw [List.isPrefixOf_iff_prefix] at h ⊢
  exact h.trans (List.prefix_append _ _)

/-- The envelope of a wallet event. -/
lemma proper_wallet (event : Ledger.StoredEvent) (wallet : Ledger.Wallet)
    (carrier : Ledger.TraceCarrier) (hversion : 1 ≤ event.streamVersion)
    (hpayload : event.payload.Representable) :
    Proper (Ledger.outboxMessage event wallet carrier).event
      (Ledger.outboxMessage event wallet carrier).routingKey wallet.ownerId where
  schemaVersion := rfl
  aggregateVersion := hversion
  payload := rfl
  representable := by
    have hkeys : ["ownerId", "currency", "domainEventType", "domainSchemaVersion", "data"].Nodup := by
      decide
    refine .obj hkeys ?_
    simp only [List.forall_mem_cons, List.not_mem_nil, false_implies, implies_true, and_true]
    exact ⟨.str _, .str _, .str _, representable_int _, hpayload⟩
  trusted := by
    have htype : startsWith ("ledger.wallet." ++ event.eventType) "ledger.wallet." = true :=
      startsWith_append (by decide) _
    have hkey : startsWith (Ledger.walletRoutingKey event.eventType 1) "ledger." = true := by
      unfold Ledger.walletRoutingKey
      rw [String.append_assoc, String.append_assoc]
      exact startsWith_append (by decide) _
    exact if_neg fun h => h.1 ⟨rfl, htype, hkey⟩
  user := rfl

/-- The envelope of an event of the payments service. -/
lemma proper_payments {draw : Payments.MessageDraw} {eventType routingKey aggregateType
    aggregateId correlationId userId : String} {version : Int} {fields : List (String × Json)}
    (hversion : 1 ≤ version) (hfields : (Json.obj fields).Representable)
    (htype : startsWith eventType "payments." = true)
    (hkey : startsWith routingKey "payments." = true)
    (huser : userIdFor (received (Payments.outboxMessage draw eventType routingKey aggregateType
      aggregateId version correlationId (.obj fields)).event.envelope) = some userId) :
    Proper (Payments.outboxMessage draw eventType routingKey aggregateType aggregateId version
      correlationId (.obj fields)).event.envelope routingKey userId where
  schemaVersion := rfl
  aggregateVersion := hversion
  payload := rfl
  representable := hfields
  trusted := if_neg fun h => h.2 ⟨rfl, htype, hkey⟩
  user := huser

lemma representable_deadline (iso : Int → String) (deadline : Option Int) :
    ((deadline.map fun time => Json.str (iso time)).getD .null).Representable := by
  cases deadline with
  | none => exact .null
  | some time => exact .str _

lemma representable_sharePaidPayload (transfer : Payments.Transfer) (share : Payments.SplitBillShare)
    (bill : Payments.SplitBill) (status : Payments.SplitBillStatus) (ownerId : String) :
    (Payments.sharePaidPayload transfer share bill status ownerId).Representable := by
  have hkeys : ["splitBillId", "shareId", "transferId", "participantUserId", "amountMinor",
      "currency", "billStatus", "ownerId"].Nodup := by decide
  refine .obj hkeys ?_
  simp only [List.forall_mem_cons, List.not_mem_nil, false_implies, implies_true, and_true]
  exact ⟨.str _, .str _, .str _, .str _, .str _, .str _, .str _, .str _⟩

/-- Every envelope that is written to an outbox is proper. -/
lemma Enqueued.proper {iso : Int → String} {event : Ledger.IntegrationEventEnvelope}
    {routingKey userId : String} (h : Enqueued iso event routingKey userId) :
    Proper event routingKey userId := by
  cases h with
  | wallet event wallet carrier hversion hpayload =>
    exact proper_wallet event wallet carrier hversion hpayload
  | transferCompleted transfer receiverWalletId draw hversion =>
    have hkeys : ["senderUserId", "senderWalletId", "receiverWalletId", "amountMinor", "currency",
        "destinationAmountMinor", "destinationCurrency", "fxRate", "status"].Nodup := by decide
    refine proper_payments hversion (.obj hkeys ?_) (by decide) (by decide) rfl
    simp only [List.forall_mem_cons, List.not_mem_nil, false_implies, implies_true, and_true]
    exact ⟨.str _, .str _, .str _, .str _, .str _, .str _, .str _, .str _, .str _⟩
  | splitBillCreated bill share draw =>
    have hkeys : ["ownerId", "splitBillId", "shareId", "creatorUserId", "amountMinor", "currency",
        "deadline"].Nodup := by decide
    refine proper_payments le_rfl (.obj hkeys ?_) (by decide) (by decide) rfl
    simp only [List.forall_mem_cons, List.not_mem_nil, false_implies, implies_true, and_true]
    exact ⟨.str _, .str _, .str _, .str _, .str _, .str _, representable_deadline iso _⟩
  | sharePaid transfer share bill status draw =>
    exact proper_payments le_rfl (representable_sharePaidPayload transfer share bill status _)
      (by decide) (by decide) rfl
  | statusChanged transfer share bill status draw =>
    exact proper_payments le_rfl (representable_sharePaidPayload transfer share bill status _)
      (by decide) (by decide) rfl
  | shareOverdue bill share draw =>
    have hkeys : ["ownerId", "splitBillId", "shareId", "amountMinor", "currency",
        "deadline"].Nodup := by decide
    refine proper_payments le_rfl (.obj hkeys ?_) (by decide) (by decide) rfl
    simp only [List.forall_mem_cons, List.not_mem_nil, false_implies, implies_true, and_true]
    exact ⟨.str _, .str _, .str _, .str _, .str _, representable_deadline iso _⟩

/-! ### The outbox of the payments service -/

section Outbox

open Payments Transactions

variable {setting : Payments.Setting}

/-- The row is one that the consumer understands. -/
def IsEnqueued (iso : Int → String) (message : PaymentOutboxMessage) : Prop :=
  ∃ userId, Enqueued iso message.event.envelope message.routingKey userId

lemma isEnqueued_newShares (config : Config) (bill : SplitBill) (draw : Draw) (index : Nat)
    (shares : List (String × Int)) :
    ∀ message ∈ (newShares config bill draw index shares).map (·.2),
      IsEnqueued config.isoString message := by
  induction shares generalizing index with
  | nil => exact fun _ h => absurd h List.not_mem_nil
  | cons share shares ih =>
    intro message hmem
    rw [newShares, List.map_cons] at hmem
    rcases List.mem_cons.mp hmem with rfl | hmem
    · exact ⟨_, .splitBillCreated _ _ _⟩
    · exact ih (index + 1) message hmem

lemma isEnqueued_announces {iso : Int → String} {db : Payments.Database} {row : Transfer}
    {messages : List PaymentOutboxMessage} (h : Announces setting db row messages)
    (hversion : 1 ≤ row.version) : ∀ message ∈ messages, IsEnqueued iso message := by
  intro message hmem
  induction h with
  | nothing => exact absurd hmem List.not_mem_nil
  | transfer =>
    rw [List.mem_singleton.mp hmem]
    exact ⟨_, .transferCompleted _ _ _ hversion⟩
  | share =>
    unfold sharePaidMessages at hmem
    rcases List.mem_cons.mp hmem with rfl | hmem
    · exact ⟨_, .transferCompleted _ _ _ hversion⟩
    rcases List.mem_cons.mp hmem with rfl | hmem
    · exact ⟨_, .sharePaid _ _ _ _ _⟩
    split_ifs at hmem
    · rw [List.mem_singleton.mp hmem]
      exact ⟨_, .statusChanged _ _ _ _ _⟩
    · exact absurd hmem List.not_mem_nil

/-- What a move keeps: versions are positive, and the outbox has only such rows. -/
lemma isEnqueued_move {w : World} {job : Job} {body : PaymentsTx Reply}
    {ws : List Payments.Write} (h : Move setting w job body ws)
    (hversions : ∀ row ∈ w.db.transfers, 1 ≤ row.version)
    (houtbox : ∀ message ∈ w.db.outbox, IsEnqueued setting.config.isoString message) :
    (∀ row ∈ (view w.db ws).transfers, 1 ≤ row.version) ∧
      ∀ message ∈ (view w.db ws).outbox, IsEnqueued setting.config.isoString message := by
  induction h with
  | none => exact ⟨hversions, houtbox⟩
  | insert hfresh hnew =>
    obtain ⟨canonical, key, quote, -, -, rfl⟩ := hnew
    rw [view_insert]
    refine ⟨fun row hrow => ?_, houtbox⟩
    rcases List.mem_append.mp hrow with hrow | hrow
    · exact hversions row hrow
    · rw [List.mem_singleton.mp hrow]
      exact le_rfl
  | @save old row messages hold hstep hmessages =>
    have hversion : 1 ≤ row.version := (hversions old hold).trans hstep.evolves.version
    rw [view_save]
    refine ⟨fun other hother => ?_, fun message hmem => ?_⟩
    · rcases mem_saveRow.mp hother with ⟨hother, -⟩ | ⟨rfl, -⟩
      · exact hversions other hother
      · exact hversion
    · rcases List.mem_append.mp hmem with hmem | hmem
      · exact houtbox message hmem
      · exact isEnqueued_announces hmessages hversion message hmem
  | createBill =>
    rw [view_bill]
    refine ⟨hversions, fun message hmem => ?_⟩
    rcases List.mem_append.mp hmem with hmem | hmem
    · exact houtbox message hmem
    · exact isEnqueued_newShares _ _ _ _ _ message hmem

/-- In every run of the payments service the outbox has only rows that the consumer understands. -/
theorem payments_outbox_enqueued (setting : Payments.Setting) (users : List Ledger.User)
    {s : Payments.System}
    (hs : Reaches (payments setting) (Sys.init (.initial users)) s) :
    ∀ message ∈ s.world.db.outbox, IsEnqueued setting.config.isoString message := by
  have hinv : (∀ row ∈ s.world.db.transfers, 1 ≤ row.version) ∧
      ∀ message ∈ s.world.db.outbox, IsEnqueued setting.config.isoString message := by
    refine reaches_invariant (P := fun w => (∀ row ∈ w.db.transfers, 1 ≤ row.version) ∧
      ∀ message ∈ w.db.outbox, IsEnqueued setting.config.isoString message) (reaches_ok .refl) ?_
      (fun w c job _ hw _ _ hmove _ => ?_) (fun _ _ _ hw _ => hw) (fun _ _ _ _ _ hw _ _ _ => hw)
      (fun w w' _ hw hledger => ?_) hs
    · exact ⟨fun _ h => absurd h List.not_mem_nil, fun _ h => absurd h List.not_mem_nil⟩
    · exact isEnqueued_move hmove hw.1 hw.2
    · cases hledger <;> exact hw
  exact hinv.2

end Outbox

/-! ### The consumer -/

/-- Every event that the two services put into their outboxes is read from its JSON text as the
envelope that was written, is trusted under the routing key of its row, and is about the right
user; so its message is decoded. -/
theorem consumer_understands {platform : Platform} (hplatform : platform.Standard)
    {iso : Int → String} {event : Ledger.IntegrationEventEnvelope} {routingKey userId : String}
    (h : Enqueued iso event routingKey userId) (hid : Ledger.isUuid event.eventId = true)
    (htime : -IsoDate.maxTime ≤ event.occurredAt ∧ event.occurredAt ≤ IsoDate.maxTime) :
    ∃ value, platform.parseJson event.toJson.stringify = some value ∧ value = event.toJson ∧
      parseIntegrationEvent platform value = .ok (received event) ∧
      assertTrustedIntegrationEvent (received event) routingKey = .ok () ∧
      userIdFor (received event) = some userId ∧
      decode platform { content := event.toJson.stringify, routingKey } = .ok (received event) := by
  have hproper := h.proper
  have hjson : platform.parseJson event.toJson.stringify = some event.toJson := by
    rw [hplatform.parseJson, Json.parse_stringify (representable_toJson hproper.representable)]
  have hparse : parseIntegrationEvent platform event.toJson = .ok (received event) :=
    parseIntegrationEvent_toJson hproper hid (hplatform.parsesAsDate _ htime)
  refine ⟨_, hjson, rfl, hparse, hproper.trusted, hproper.user, ?_⟩
  unfold decode
  rw [hjson]
  change (parseIntegrationEvent platform event.toJson).bind _ = _
  rw [hparse]
  change (assertTrustedIntegrationEvent (received event) routingKey).bind _ = _
  rw [hproper.trusted]
  rfl

/-- A platform whose `Date.parse` reads the times that `toISOString` writes, and no others. -/
def isoPlatform : Platform :=
  { parseJson := Json.parse, parsesAsDate := fun text => (IsoDate.parse text.toList).isSome }

lemma isoPlatform_standard : isoPlatform.Standard where
  parseJson _ := rfl
  parsesAsDate time h := by
    change (IsoDate.parse (isoString time).toList).isSome = true
    rw [isoString, String.toList_ofList, IsoDate.parse_toISOString h]
    rfl

/-- Ann's bill for Bob. -/
def annBill : Payments.SplitBill :=
  { id := "bill", creatorUserId := "ann", creatorReference := "ann@example.com", totalMinor := 700,
    currency := "USD", deadline := some 0 }

def bobShare : Payments.SplitBillShare :=
  { id := "share", billId := "bill", participantUserId := "bob", amountMinor := 700, position := 0 }

def reminderDraw : Payments.MessageDraw :=
  { eventId := "a1b2c3d4-0000-4000-8000-000000000000", occurredAt := 1760000000000, carrier := {} }

/-- The reminder of Bob's share. -/
theorem consumer_understands_overdue :
    decode isoPlatform
      { content := (Payments.overdueReminderMessage isoString annBill bobShare
          reminderDraw).event.toJson.stringify
        routingKey := "payments.split-bill.share-overdue.v1" } =
      .ok (received (Payments.overdueReminderMessage isoString annBill bobShare
        reminderDraw).event.envelope) ∧
    userIdFor (received (Payments.overdueReminderMessage isoString annBill bobShare
      reminderDraw).event.envelope) = some "bob" := by
  obtain ⟨_, -, -, -, -, huser, hdecode⟩ := consumer_understands isoPlatform_standard
    (@Enqueued.shareOverdue isoString annBill bobShare reminderDraw) (by decide +kernel)
    (by decide +kernel)
  exact ⟨hdecode, huser⟩

end Notifications

end PeerLedger
