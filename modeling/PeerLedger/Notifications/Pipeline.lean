import PeerLedger.Messaging.FedRelay
import PeerLedger.Messaging.LedgerOutbox
import PeerLedger.Notifications.FedInbox
import PeerLedger.Payments.Authorization
import PeerLedger.Payments.Scans

/-!
# From a commit to a user's feed

The ledger and the payments service, with its scans for overdue shares, commit messages to their
outboxes, a relay of each service gives them to the broker, and the notifications service consumes what
the broker delivers.  `Pipeline` puts these systems together: a scan finds the tables of the payments
service, a relay finds the rows that its service has committed, and a delivery is of a message that a
relay has given to the broker, any number of times and in any order.

In every state of the whole an activity row reports what a service has committed, to the user whom it
is about (`feed_reports_events`).
-/

namespace PeerLedger

namespace Notifications

open Transactions Messaging Formats

/-! ### The whole -/

/-- The states of the two services, the scans, the relays and the inbox. -/
structure Pipeline where
  services : Payments.System
  scans : Payments.ScanSystem
  ledgerRelay : RelaySystem Ledger.IntegrationEventEnvelope
  paymentsRelay : RelaySystem Payments.PaymentIntegrationEvent
  inbox : InboxSystem

namespace Pipeline

/-- Nothing has happened, and some users are registered. -/
def initial (users : List Ledger.User) : Pipeline :=
  { services := Sys.init (.initial users), scans := Sys.init .initial,
    ledgerRelay := Sys.init .initial, paymentsRelay := Sys.init .initial,
    inbox := Sys.init .initial }

/-- The outbox of the ledger. -/
def ledgerOutbox (p : Pipeline) : List Ledger.OutboxMessage :=
  p.services.world.ledger.world.db.outbox

/-- The outbox of the payments service: what its programs have committed, and its scans. -/
def paymentsOutbox (p : Pipeline) : List Payments.PaymentOutboxMessage :=
  p.services.world.db.outbox ++ p.scans.world.outbox

/-- A row that the ledger has committed. -/
def LedgerRow (p : Pipeline) (row : OutboxRow Ledger.IntegrationEventEnvelope) : Prop :=
  ∃ message ∈ p.ledgerOutbox, ∃ createdAt, row = message.row createdAt

/-- A row that the payments service has committed. -/
def PaymentsRow (p : Pipeline) (row : OutboxRow Payments.PaymentIntegrationEvent) : Prop :=
  ∃ message ∈ p.paymentsOutbox, ∃ createdAt, row = message.row createdAt

/-- A message that a relay has given to the broker. -/
def Given (p : Pipeline) (message : ConsumeMessage) : Prop :=
  (∃ row ∈ p.ledgerRelay.world.given, message = brokerMessage row.event row.routingKey) ∨
    ∃ row ∈ p.paymentsRelay.world.given,
      message = brokerMessage row.event.envelope row.routingKey

/-- One step of one of the parts. -/
inductive Step (setting : Payments.Setting) (platform : Platform) : Pipeline → Pipeline → Prop
  | services {p s} : Transactions.Step (Payments.payments setting) p.services s →
      Step setting platform p { p with services := s }
  | scans {p s} :
      Transactions.Step (Payments.scanning setting.config p.services.world.db) p.scans s →
      Step setting platform p { p with scans := s }
  | ledgerRelay {p s} : Transactions.Step (Ledger.relay.fed p.LedgerRow) p.ledgerRelay s →
      Step setting platform p { p with ledgerRelay := s }
  | paymentsRelay {p s} :
      Transactions.Step (Payments.relay.fed p.PaymentsRow) p.paymentsRelay s →
      Step setting platform p { p with paymentsRelay := s }
  | inbox {p s} : Transactions.Step (fedInbox platform p.Given) p.inbox s →
      Step setting platform p { p with inbox := s }

/-- The states that the whole can reach. -/
def Reached (setting : Payments.Setting) (platform : Platform) (users : List Ledger.User) :
    Pipeline → Prop :=
  Relation.ReflTransGen (Step setting platform) (initial users)

/-- An event that a service has committed to its outbox, with its routing key and the user whom it is
about: the owner of the wallet, or the user of the payment. -/
inductive Produced (iso : Int → String) (p : Pipeline) :
    Ledger.IntegrationEventEnvelope → String → String → Prop
  | wallet {wallet e carrier} : Ledger.outboxMessage e wallet carrier ∈ p.ledgerOutbox →
      wallet ∈ p.services.world.ledger.world.db.wallets →
      e ∈ p.services.world.ledger.world.db.stream wallet.id →
      Produced iso p (Ledger.outboxMessage e wallet carrier).event
        (Ledger.outboxMessage e wallet carrier).routingKey wallet.ownerId
  | payments {message userId} : message ∈ p.paymentsOutbox →
      Enqueued iso message.event.envelope message.routingKey userId →
      Produced iso p message.event.envelope message.routingKey userId

/-! ### The parts of a run -/

/-- What later states of the whole have. -/
structure Grows (p p' : Pipeline) : Prop where
  ledgerOutbox : p.ledgerOutbox ⊆ p'.ledgerOutbox
  paymentsOutbox : p.paymentsOutbox ⊆ p'.paymentsOutbox
  ledgerGiven : p.ledgerRelay.world.given ⊆ p'.ledgerRelay.world.given
  paymentsGiven : p.paymentsRelay.world.given ⊆ p'.paymentsRelay.world.given

lemma Grows.refl (p : Pipeline) : p.Grows p :=
  ⟨List.Subset.refl _, List.Subset.refl _, List.Subset.refl _, List.Subset.refl _⟩

section Grows

variable {p p' : Pipeline} (h : p.Grows p')

include h

lemma Grows.ledgerRow {row : OutboxRow Ledger.IntegrationEventEnvelope} (hrow : p.LedgerRow row) :
    p'.LedgerRow row := by
  obtain ⟨message, hmessage, hrest⟩ := hrow
  exact ⟨message, h.ledgerOutbox hmessage, hrest⟩

lemma Grows.paymentsRow {row : OutboxRow Payments.PaymentIntegrationEvent}
    (hrow : p.PaymentsRow row) : p'.PaymentsRow row := by
  obtain ⟨message, hmessage, hrest⟩ := hrow
  exact ⟨message, h.paymentsOutbox hmessage, hrest⟩

lemma Grows.given {message : ConsumeMessage} (hmessage : p.Given message) : p'.Given message := by
  rcases hmessage with ⟨row, hrow, heq⟩ | ⟨row, hrow, heq⟩
  · exact .inl ⟨row, h.ledgerGiven hrow, heq⟩
  · exact .inr ⟨row, h.paymentsGiven hrow, heq⟩

end Grows

/-- The outboxes of the services only grow. -/
lemma grows_services {setting : Payments.Setting} {p : Pipeline} {s : Payments.System}
    (hok : p.services.Ok (Payments.payments setting) (Payments.paymentsProtocol setting))
    (hledger : p.services.world.ledger.Ok (Ledger.ledger setting.ledger)
      (Ledger.ledgerProtocol setting.ledger))
    (hstep : Transactions.Step (Payments.payments setting) p.services s) :
    p.Grows { p with services := s } := by
  have hreach : Reaches (Payments.payments setting) p.services s := .single hstep
  obtain ⟨more, hmore, -⟩ :=
    (Ledger.reaches_grows hledger (Payments.reaches_ledgerRun hok hreach)).outbox
  have houtbox : p.services.world.db.outbox ⊆ s.world.db.outbox := by
    refine Payments.reaches_invariant (P := fun w => p.services.world.db.outbox ⊆ w.db.outbox) hok
      (List.Subset.refl _) (fun w c job _ hw _ _ hmove _ => ?_) (fun _ _ _ hw _ => hw)
      (fun _ _ _ _ _ hw _ _ _ => hw) (fun w w' _ hw hledger => ?_) hreach
    · exact List.Subset.trans hw hmove.outbox
    · cases hledger <;> exact hw
  refine ⟨?_, ?_, List.Subset.refl _, List.Subset.refl _⟩
  · change _ ⊆ s.world.ledger.world.db.outbox
    rw [hmore]
    exact List.subset_append_left _ _
  · exact List.append_subset.mpr ⟨List.subset_append_of_subset_left _ houtbox,
      List.subset_append_right _ _⟩

/-- Each part has made a run of its own, on what the others have produced; the scans have met changing
tables. -/
structure Parts (setting : Payments.Setting) (platform : Platform) (users : List Ledger.User)
    (p : Pipeline) : Prop where
  services : Reaches (Payments.payments setting) (Sys.init (.initial users)) p.services
  scans : Payments.Scanned setting.config p.services.world.db p.scans
  ledgerRelay : Reaches (Ledger.relay.fed p.LedgerRow) (Sys.init .initial) p.ledgerRelay
  paymentsRelay : Reaches (Payments.relay.fed p.PaymentsRow) (Sys.init .initial) p.paymentsRelay
  inbox : Reaches (fedInbox platform p.Given) (Sys.init .initial) p.inbox

lemma reached_parts {setting : Payments.Setting} {platform : Platform} {users : List Ledger.User}
    {p : Pipeline} (hp : Reached setting platform users p) : p.Parts setting platform users := by
  -- a part that stands still has made the same run on more
  have hfed : ∀ {η : Type} {relay : Relay η} {produced produced' : OutboxRow η → Prop}
      {s : RelaySystem η}, (∀ row, produced row → produced' row) →
      Reaches (relay.fed produced) (Sys.init .initial) s →
      Reaches (relay.fed produced') (Sys.init .initial) s :=
    fun hmono hs => hs.restrict_mono (fun _ h => h) fun _ _ he row hrow =>
      (he row hrow).imp_right (hmono row)
  have hinbox : ∀ {given given' : ConsumeMessage → Prop} {s : InboxSystem},
      (∀ m, given m → given' m) → Reaches (fedInbox platform given) (Sys.init .initial) s →
      Reaches (fedInbox platform given') (Sys.init .initial) s := by
    refine fun hmono hs => hs.restrict_mono ?_ fun _ _ h => h
    rintro _ ⟨itemId, connected, message, rfl, hmessage⟩
    exact ⟨itemId, connected, message, rfl, fun m hm => hmono m (hmessage m hm)⟩
  induction hp with
  | refl => exact ⟨.refl, Payments.scanned_init, .refl, .refl, .refl⟩
  | @tail p p' _ hstep ih =>
    cases hstep with
    | @services s hstep =>
      have hgrows : p.Grows { p with services := s } := grows_services
        (Payments.reaches_ok ih.services) (Ledger.reaches_ok (Payments.reaches_ledger ih.services))
        hstep
      exact ⟨ih.services.tail hstep, ih.scans.beside _, hfed (fun _ => hgrows.ledgerRow) ih.ledgerRelay,
        hfed (fun _ => hgrows.paymentsRow) ih.paymentsRelay, ih.inbox⟩
    | @scans s hstep =>
      have hgrows : p.Grows { p with scans := s } :=
        { Grows.refl p with
          paymentsOutbox := List.append_subset.mpr ⟨List.subset_append_left _ _,
            List.subset_append_of_subset_right _ (Payments.outbox_step hstep)⟩ }
      exact ⟨ih.services, ih.scans.step hstep, ih.ledgerRelay,
        hfed (fun _ => hgrows.paymentsRow) ih.paymentsRelay, ih.inbox⟩
    | @ledgerRelay s hstep =>
      have hgrows : p.Grows { p with ledgerRelay := s } :=
        { Grows.refl p with ledgerGiven := given_step hstep }
      exact ⟨ih.services, ih.scans, ih.ledgerRelay.tail hstep, ih.paymentsRelay,
        hinbox (fun _ => hgrows.given) ih.inbox⟩
    | @paymentsRelay s hstep =>
      have hgrows : p.Grows { p with paymentsRelay := s } :=
        { Grows.refl p with paymentsGiven := given_step hstep }
      exact ⟨ih.services, ih.scans, ih.ledgerRelay, ih.paymentsRelay.tail hstep,
        hinbox (fun _ => hgrows.given) ih.inbox⟩
    | inbox hstep =>
      exact ⟨ih.services, ih.scans, ih.ledgerRelay, ih.paymentsRelay, ih.inbox.tail hstep⟩

/-! ### What is shown to users -/

section Shown

variable {setting : Payments.Setting} {platform : Platform} {users : List Ledger.User}
variable {p : Pipeline}

/-- The envelopes of what is produced. -/
lemma Produced.proper (hp : p.Parts setting platform users)
    {event : Ledger.IntegrationEventEnvelope} {routingKey userId : String}
    (h : p.Produced setting.config.isoString event routingKey userId) :
    Proper event routingKey userId := by
  have hledger := Payments.reaches_ledger hp.services
  cases h with
  | @wallet wallet e carrier _ hwallet he =>
    have hversion := (Ledger.reaches_ok hledger).inv.1.gapFree wallet.id |>.one_le he
    have hpayload := (Ledger.reaches_reported hledger).representable e (List.mem_of_mem_filter he)
    exact proper_wallet e wallet carrier hversion hpayload
  | payments _ henqueued => exact henqueued.proper

/-- What a relay has given to the broker was produced. -/
lemma Given.produced (hp : p.Parts setting platform users) {message : ConsumeMessage}
    (h : p.Given message) : ∃ event routingKey userId,
      p.Produced setting.config.isoString event routingKey userId ∧
        message = brokerMessage event routingKey := by
  rcases h with ⟨row, hrow, rfl⟩ | ⟨row, hrow, rfl⟩
  · obtain ⟨_, ⟨message, hmessage, createdAt, rfl⟩, hkey, hevent⟩ := fed_given hp.ledgerRelay row hrow
    obtain ⟨wallet, hwallet, e, he, carrier, rfl⟩ :=
      (Ledger.reaches_reported (Payments.reaches_ledger hp.services)).messages message hmessage
    exact ⟨_, _, _, .wallet hmessage hwallet he, by rw [hkey, hevent]; rfl⟩
  · obtain ⟨_, ⟨message, hmessage, createdAt, rfl⟩, hkey, hevent⟩ :=
      fed_given hp.paymentsRelay row hrow
    have henqueued : IsEnqueued setting.config.isoString message := by
      rcases List.mem_append.mp hmessage with hmessage | hmessage
      · exact payments_outbox_enqueued setting users hp.services message hmessage
      · obtain ⟨bill, share, draw, rfl⟩ := hp.scans.reminds hmessage
        exact ⟨_, .shareOverdue bill share draw⟩
    obtain ⟨userId, henqueued⟩ := henqueued
    exact ⟨_, _, _, .payments hmessage henqueued, by rw [hkey, hevent]; rfl⟩

/-- What the consumer reads of a message is an event that was produced. -/
lemma decoded_produced (hplatform : platform.Standard) (hp : p.Parts setting platform users)
    {event : IntegrationEventEnvelope} (h : Decoded platform p.Given event) :
    ∃ sent routingKey userId, p.Produced setting.config.isoString sent routingKey userId ∧
      event = received sent ∧ userIdFor event = some userId := by
  obtain ⟨message, hgiven, hdecode⟩ := h
  obtain ⟨sent, routingKey, userId, hproduced, rfl⟩ := hgiven.produced hp
  have hproper := hproduced.proper hp
  rw [decode_brokerMessage hplatform hproper] at hdecode
  split at hdecode
  · obtain rfl := Except.ok.inj hdecode
    exact ⟨sent, routingKey, userId, hproduced, rfl, hproper.user⟩
  · cases hdecode

/-- A row of the feed is that of an event that was produced, for the user whom it is about. -/
lemma shows_produced (hplatform : platform.Standard) (hp : p.Parts setting platform users)
    {item : ActivityFeedItem} (h : item.Shows platform p.Given) :
    ∃ sent routingKey userId, p.Produced setting.config.isoString sent routingKey userId ∧
      item = activityItem item.id (received sent) ∧ item.userId = some userId := by
  obtain ⟨event, hdecoded, hitem⟩ := h
  obtain ⟨sent, routingKey, userId, hproduced, rfl, huser⟩ :=
    decoded_produced hplatform hp hdecoded
  refine ⟨sent, routingKey, userId, hproduced, hitem, ?_⟩
  rw [hitem]
  exact huser

end Shown

end Pipeline

/-- The rows of a page are rows of the user. -/
lemma listForUser_rows {otherDates : String → Option Int} {feed : Feed} {userId : String}
    {query : ActivityFeedQuery} {page : ActivityFeedPage}
    (h : listForUser otherDates feed userId query = .ok page) :
    ∀ loaded ∈ page.items, ∃ row ∈ feed.rows, loaded = row.load ∧ row.item.userId = some userId := by
  obtain ⟨limit, value, eventType⟩ := query
  cases hcursor : readCursor otherDates ⟨limit, value, eventType⟩ with
  | error e =>
    unfold listForUser at h
    rw [hcursor] at h
    cases h
  | ok cursor =>
    rw [listForUser_eq hcursor] at h
    obtain rfl := Except.ok.inj h
    intro loaded hloaded
    obtain ⟨row, hrow, rfl⟩ := List.mem_map.mp hloaded
    have hlisted := (newestFirst_perm _).mem_iff.mp
      (List.mem_of_mem_filter (List.mem_of_mem_take hrow))
    obtain ⟨hmem, htest⟩ := List.mem_filter.mp hlisted
    exact ⟨row, hmem, rfl, of_decide_eq_true ((Bool.and_eq_true _ _ ▸ htest).1)⟩

/-- In every state of the whole, whatever order the messages arrive in and however often: every
activity row and every event told to a user is what a service has committed to its outbox, as it was
written, and is shown to the user whom it is about, also in the pages that `listForUser` lists.  A
message that was acknowledged has its row, and one is given up only when its event has no proper id
or time. -/
theorem feed_reports_events (setting : Payments.Setting) {platform : Platform}
    (hplatform : platform.Standard) (users : List Ledger.User) {p : Pipeline}
    (hp : Pipeline.Reached setting platform users p) :
    (∀ item ∈ p.inbox.world.db.feed, ∃ event routingKey userId,
      p.Produced setting.config.isoString event routingKey userId ∧
        item = activityItem item.id (received event) ∧ item.userId = some userId) ∧
    (∀ e ∈ p.inbox.world.emitted, ∃ event routingKey,
      p.Produced setting.config.isoString event routingKey e.2.1 ∧ e.2.2 = received event) ∧
    (∀ message ∈ p.inbox.world.acked, ∃ event routingKey userId,
      p.Produced setting.config.isoString event routingKey userId ∧
        message = brokerMessage event routingKey ∧
        p.inbox.world.db.HasItem (received event).key) ∧
    (∀ message, (message, false) ∈ p.inbox.world.rejected → ∃ event routingKey userId,
      p.Produced setting.config.isoString event routingKey userId ∧
        message = brokerMessage event routingKey ∧
        (Ledger.isUuid event.eventId = false ∨
          ¬ (-IsoDate.maxTime ≤ event.occurredAt ∧ event.occurredAt ≤ IsoDate.maxTime))) ∧
    ∀ otherDates (feed : Feed) userId query page,
      feed.rows.map (·.item) = p.inbox.world.db.feed →
      listForUser otherDates feed userId query = .ok page →
      ∀ loaded ∈ page.items, ∃ event routingKey,
        p.Produced setting.config.isoString event routingKey userId ∧
          loaded.item = activityItem loaded.item.id (received event) := by
  have hparts := Pipeline.reached_parts hp
  have hfed := fedInbox_fed hparts.inbox
  have hinv : InboxInv platform p.inbox.world := inbox_inv hparts.inbox.of_restrict
  refine ⟨fun item hitem => Pipeline.shows_produced hplatform hparts (hfed.feed item hitem),
    fun e he => ?_, fun message hmessage => ?_, fun message hmessage => ?_,
    fun otherDates feed userId query page hrows hpage loaded hloaded => ?_⟩
  · obtain ⟨hdecoded, huser⟩ := hfed.emitted e he
    obtain ⟨event, routingKey, userId, hproduced, hevent, huser'⟩ :=
      Pipeline.decoded_produced hplatform hparts hdecoded
    obtain rfl := Option.some.inj (huser'.symm.trans huser)
    exact ⟨event, routingKey, hproduced, hevent⟩
  · obtain ⟨hgiven, event, hdecode⟩ := hfed.acked message hmessage
    have hitem := hinv.acked message hmessage event hdecode
    obtain ⟨sent, routingKey, userId, hproduced, rfl⟩ := hgiven.produced hparts
    rw [decode_brokerMessage hplatform (hproduced.proper hparts)] at hdecode
    split at hdecode
    · obtain rfl := Except.ok.inj hdecode
      exact ⟨sent, routingKey, userId, hproduced, rfl, hitem⟩
    · cases hdecode
  · obtain ⟨hgiven, hnot⟩ := hfed.rejected message hmessage
    obtain ⟨sent, routingKey, userId, hproduced, rfl⟩ := hgiven.produced hparts
    refine ⟨sent, routingKey, userId, hproduced, rfl, ?_⟩
    by_contra hgood
    obtain ⟨hid, htime⟩ := not_or.mp hgood
    refine hnot (received sent) ?_
    rw [decode_brokerMessage hplatform (hproduced.proper hparts)]
    exact if_pos ⟨Bool.not_eq_false _ ▸ hid, hplatform.parsesAsDate _ (not_not.mp htime)⟩
  · obtain ⟨row, hrow, rfl, huser⟩ := listForUser_rows hpage loaded hloaded
    have hitem : row.item ∈ p.inbox.world.db.feed := hrows ▸ List.mem_map_of_mem hrow
    obtain ⟨event, routingKey, userId', hproduced, heq, huser'⟩ :=
      Pipeline.shows_produced hplatform hparts (hfed.feed row.item hitem)
    obtain rfl := Option.some.inj (huser'.symm.trans huser)
    exact ⟨event, routingKey, hproduced, heq⟩

/-! ### A row that is shown -/

namespace Pipeline

variable {setting : Payments.Setting} {platform : Platform} {users : List Ledger.User}
variable {p : Pipeline}

/-- A run of the services is one of the whole. -/
lemma Reached.services (hp : Reached setting platform users p) {s : Payments.System}
    (hs : Reaches (Payments.payments setting) p.services s) :
    Reached setting platform users { p with services := s } := by
  induction hs with
  | refl => exact hp
  | @tail a b _ hstep ih =>
    have hwhole : Step setting platform { p with services := a } { p with services := b } :=
      .services hstep
    exact ih.tail hwhole

/-- A run of the ledger's relay is one of the whole. -/
lemma Reached.ledgerRelay (hp : Reached setting platform users p)
    {s : RelaySystem Ledger.IntegrationEventEnvelope}
    (hs : Reaches (Ledger.relay.fed p.LedgerRow) p.ledgerRelay s) :
    Reached setting platform users { p with ledgerRelay := s } := by
  induction hs with
  | refl => exact hp
  | @tail a b _ hstep ih =>
    have hwhole : Step setting platform { p with ledgerRelay := a } { p with ledgerRelay := b } :=
      .ledgerRelay hstep
    exact ih.tail hwhole

/-- A run of the inbox is one of the whole. -/
lemma Reached.inbox (hp : Reached setting platform users p) {s : InboxSystem}
    (hs : Reaches (fedInbox platform p.Given) p.inbox s) :
    Reached setting platform users { p with inbox := s } := by
  induction hs with
  | refl => exact hp
  | @tail a b _ hstep ih =>
    have hwhole : Step setting platform { p with inbox := a } { p with inbox := b } :=
      .inbox hstep
    exact ih.tail hwhole

end Pipeline

/-- What the ledger draws for Ann's wallet. -/
def walletDraw (n : Nat) : Ledger.Draw :=
  { Ledger.drawFor "ann" n with eventId := "a1b2c3d4-0000-4000-8000-000000000000" }

/-- Scripts in which the ledger draws so. -/
def walletRun : Payments.Script Payments.scripted :=
  { Payments.scriptedRun with
    ledgerDraw := fun _ => walletDraw
    uuid_ok := fun _ _ => trivial }

/-- A message of the ledger is given to the broker, and the consumer can read it. -/
lemma Pipeline.exists_given {users : List Ledger.User} {s : Payments.System}
    (hs : Reaches (Payments.payments Payments.scripted) (Sys.init (.initial users)) s)
    {message : Ledger.OutboxMessage} (hmessage : message ∈ s.world.ledger.world.db.outbox)
    (hid : Ledger.isUuid message.event.eventId = true) (htime : message.event.occurredAt = 0) :
    ∃ p, Pipeline.Reached Payments.scripted isoPlatform users p ∧ p.inbox = Sys.init .initial ∧
      p.Given (brokerMessage message.event message.routingKey) ∧
      decode isoPlatform (brokerMessage message.event message.routingKey) =
        .ok (received message.event) := by
  have hledger := Payments.reaches_ledger hs
  obtain ⟨wallet, hwallet, e, he, carrier, rfl⟩ :=
    (Ledger.reaches_reported hledger).messages _ hmessage
  -- its row is published
  set p₁ : Pipeline := { Pipeline.initial users with services := s }
  have hrow : p₁.LedgerRow ((Ledger.outboxMessage e wallet carrier).row 0) := ⟨_, hmessage, 0, rfl⟩
  obtain ⟨relayed, hrelayed, hrelay⟩ := @fed_gives _ Ledger.relay _ _ hrow
    (Ledger.enqueued_outboxMessage e wallet carrier 0)
  have hp₁ : Pipeline.Reached Payments.scripted isoPlatform users p₁ :=
    Pipeline.Reached.services .refl hs
  refine ⟨{ p₁ with ledgerRelay := relayed }, hp₁.ledgerRelay hrelayed, rfl,
    .inl ⟨_, hrelay, rfl⟩, ?_⟩
  -- and the message is read
  have hproper := proper_wallet e wallet carrier
    ((Ledger.reaches_ok hledger).inv.1.gapFree wallet.id |>.one_le he)
    ((Ledger.reaches_reported hledger).representable e (List.mem_of_mem_filter he))
  rw [decode_brokerMessage isoPlatform_standard hproper]
  refine if_pos ⟨hid, isoPlatform_standard.parsesAsDate _ ?_⟩
  rw [htime]
  decide

/-- Ann opens a wallet, and her feed shows it. -/
theorem feed_reports_events_wallet : ∃ p,
    Pipeline.Reached Payments.scripted isoPlatform Ledger.annAndBob p ∧
      ∃ item ∈ p.inbox.world.db.feed, ∃ event routingKey userId,
        p.Produced Payments.scripted.config.isoString event routingKey userId ∧
          item = activityItem item.id (received event) ∧ item.userId = some userId := by
  obtain ⟨s, hs, hopened⟩ := walletRun.exists_reaches Ledger.annAndBob
    [.owner 0 (.getOrCreateForUser "ann" "USD")]
    (fun s => s.world.ledger.world.db.outbox.any fun message =>
      Ledger.isUuid message.event.eventId ∧ message.event.occurredAt = 0) (by decide +kernel)
  obtain ⟨message, hmessage, hopened⟩ := List.any_eq_true.mp hopened
  obtain ⟨hid, htime⟩ := of_decide_eq_true hopened
  obtain ⟨p, hp, hinbox, hgiven, hread⟩ := Pipeline.exists_given hs hmessage hid htime
  obtain ⟨shown, hshown, hfeed⟩ := fed_shows hgiven hread "item"
  have hall := hp.inbox (hinbox ▸ hshown)
  have hitem : activityItem "item" (received message.event) ∈ shown.world.db.feed :=
    hfeed ▸ List.mem_singleton_self _
  exact ⟨_, hall, _, hitem,
    (feed_reports_events Payments.scripted isoPlatform_standard _ hall).1 _ hitem⟩

end Notifications

end PeerLedger
