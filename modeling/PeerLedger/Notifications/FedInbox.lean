import PeerLedger.Transactions.Restriction
import PeerLedger.Notifications.Producers
import PeerLedger.Notifications.ActivityFeed

/-!
# What the inbox shows

`fedInbox` is the inbox to which only some messages are delivered.  What it inserts into the feed, tells
users and answers the broker comes from these messages (`fedInbox_fed`), and `decode_brokerMessage` says
what it reads in the message of an event.
-/

namespace PeerLedger

namespace Notifications

open Transactions Formats

/-! ### The inbox -/

/-- A row after some writes was there before or is inserted. -/
lemma mem_feed_view {db : Database} {ws : List Write} {item : ActivityFeedItem}
    (h : item ∈ (view db ws).feed) : item ∈ db.feed ∨ Write.insertActivity item ∈ ws := by
  induction ws generalizing db with
  | nil => exact .inl h
  | cons x ws ih =>
    rcases ih h with hold | hnew
    · cases x with
      | insertProcessed row => exact .inl hold
      | insertActivity row =>
        rcases List.mem_append.mp hold with hold | hnew
        · exact .inl hold
        · exact .inr (List.mem_singleton.mp hnew ▸ List.mem_cons_self)
    · exact .inr (List.mem_cons_of_mem _ hnew)

section Inbox

variable (platform : Platform) (given : ConsumeMessage → Prop)

/-- The inbox, where only some messages are delivered. -/
def fedInbox : Service Nat InboxWorld Database Write String Bool Request (Except String Unit) Unit
    Unit :=
  (inbox platform).restrict (fun program => ∃ itemId connected message,
    program = consume platform itemId connected message ∧ ∀ m ∈ message, given m) fun _ _ => True

/-- The event was read from a message that may be delivered. -/
def Decoded (event : IntegrationEventEnvelope) : Prop :=
  ∃ message, given message ∧ decode platform message = .ok event

/-- The row is that of such an event. -/
def ActivityFeedItem.Shows (item : ActivityFeedItem) : Prop :=
  ∃ event, Decoded platform given event ∧ item = activityItem item.id event

/-- The deliveries insert only such rows, tell users only about such events, and give up a message
only when it cannot be read. -/
def inboxLimits : Limits Database Write Lock Bool Request where
  contents _ := True
  write
    | .insertProcessed _ => True
    | .insertActivity item => item.Shows platform given
  reply _ := True
  request
    | .ack message => given message ∧ ∃ event, decode platform message = .ok event
    | .nack message requeue =>
      given message ∧ (requeue = false → ∀ event, decode platform message ≠ .ok event)
    | .emitToUser userId event => Decoded platform given event ∧ userIdFor event = some userId
  keeps _ _ _ _ := trivial

/-- What the inbox has shown, told and answered. -/
structure Fed (w : InboxWorld) : Prop where
  feed : ∀ item ∈ w.db.feed, item.Shows platform given
  acked : ∀ message ∈ w.acked, given message ∧ ∃ event, decode platform message = .ok event
  rejected : ∀ message, (message, false) ∈ w.rejected →
    given message ∧ ∀ event, decode platform message ≠ .ok event
  emitted : ∀ e ∈ w.emitted, Decoded platform given e.2.2 ∧ userIdFor e.2.2 = some e.2.1

variable {platform given}

lemma within_tellUser {event : IntegrationEventEnvelope} (hevent : Decoded platform given event)
    (processed : Bool) : (tellUser processed event).Within (inboxLimits platform given)
      fun _ => True := by
  unfold tellUser
  split
  · split
    · next userId huser =>
      split
      · exact ⟨⟨hevent, huser⟩, fun _ _ _ => trivial⟩
      · exact Prog.within_pure trivial
    · exact Prog.within_pure trivial
  · exact Prog.within_pure trivial

lemma within_process {event : IntegrationEventEnvelope} (hevent : Decoded platform given event)
    (consumer itemId : String) : (process consumer event (record itemId)).Within
      (inboxLimits platform given) fun _ => True := by
  have hrecord : (record itemId event).Within (inboxLimits platform given) fun _ => True := by
    refine Tx.within_write (fun db ws hws x hx => ?_) trivial
    unfold insertActivity at hws
    split at hws
    · cases hws
    · obtain rfl := Except.ok.inj hws
      obtain rfl := List.mem_singleton.mp hx
      exact ⟨event, hevent, rfl⟩
  refine Prog.within_run fun db _ => ⟨fun ws hws x hx => ?_, ?_⟩
  · unfold insertProcessed at hws
    split at hws
    · obtain rfl := Except.ok.inj hws
      exact absurd hx List.not_mem_nil
    · obtain rfl := Except.ok.inj hws
      obtain rfl := List.mem_singleton.mp hx
      trivial
  · dsimp only
    split
    · trivial
    · exact hrecord.bind fun _ _ => trivial

/-- Every delivery of such a message keeps to the limits. -/
lemma within_consume {message : Option ConsumeMessage} (hmessage : ∀ m ∈ message, given m)
    (itemId : String) (connected : Bool) : (consume platform itemId connected message).Within
      (inboxLimits platform given) fun _ => True := by
  unfold consume
  split
  · next m =>
    have hgiven : given m := hmessage m rfl
    split
    · next e hdecode =>
      refine ⟨⟨hgiven, fun _ event hevent => ?_⟩, fun _ _ _ => trivial⟩
      rw [hdecode] at hevent
      cases hevent
    · next event hdecode =>
      have hevent : Decoded platform given event := ⟨m, hgiven, hdecode⟩
      have hack : (request (.ack m)).Within (inboxLimits platform given) fun _ => True :=
        ⟨⟨hgiven, event, hdecode⟩, fun _ _ _ => trivial⟩
      have hback : (request (.nack m true)).Within (inboxLimits platform given) fun _ => True :=
        ⟨⟨hgiven, fun h => nomatch h⟩, fun _ _ _ => trivial⟩
      refine Prog.Within.attempt ((within_process hevent _ itemId).bind fun processed _ =>
        (within_tellUser hevent processed).bind fun _ _ => hack) ?_ ?_
      · exact fun _ _ => Prog.within_pure trivial
      · exact fun _ => hback
  · exact Prog.within_pure trivial

/-- What the inbox shows, tells and answers comes from the messages that are delivered. -/
lemma fedInbox_fed {s : InboxSystem} (hs : Reaches (fedInbox platform given) (Sys.init .initial) s) :
    Fed platform given s.world := by
  have hkeeps : (fedInbox platform given).Keeps (inboxLimits platform given)
      (Fed platform given) := by
    refine ⟨fun _ _ => trivial, ?_, fun w c hw hws => ?_, ?_, fun w w' _ he => he.1.elim⟩
    · rintro w i p w' hw ⟨⟨-, rfl, -⟩, itemId, connected, message, rfl, hmessage⟩
      exact ⟨within_consume hmessage itemId connected, hw.feed, hw.acked, hw.rejected, hw.emitted⟩
    · refine ⟨fun item hitem => ?_, hw.acked, hw.rejected, hw.emitted⟩
      rcases mem_feed_view hitem with hold | hnew
      · exact hw.feed item hold
      · exact hws _ hnew
    · rintro w i q t w' hw hq rfl
      cases q with
      | ack message =>
        exact ⟨hw.feed, List.forall_mem_append.mpr ⟨hw.acked, List.forall_mem_singleton.mpr hq⟩,
          hw.rejected, hw.emitted⟩
      | nack message requeue =>
        refine ⟨hw.feed, hw.acked, fun m hm => ?_, hw.emitted⟩
        rcases List.mem_append.mp hm with hm | hm
        · exact hw.rejected m hm
        · obtain ⟨rfl, rfl⟩ := Prod.mk.inj (List.mem_singleton.mp hm)
          exact ⟨hq.1, hq.2 rfl⟩
      | emitToUser userId event =>
        exact ⟨hw.feed, hw.acked, hw.rejected,
          List.forall_mem_append.mpr ⟨hw.emitted, List.forall_mem_singleton.mpr hq⟩⟩
  refine Reaches.within hkeeps ⟨?_, ?_, ?_, ?_⟩ hs
  all_goals intro _ h
  all_goals exact absurd h List.not_mem_nil

/-- The protocol of the inbox holds in every reachable state. -/
lemma inbox_inv {s : InboxSystem} (hs : Reaches (inbox platform) (Sys.init .initial) s) :
    InboxInv platform s.world := by
  have hinit : InboxInv platform InboxWorld.initial :=
    ⟨rfl, rfl, List.nodup_nil, (fun _ h => nomatch h), (fun _ h => nomatch h),
      (fun _ h => nomatch h), List.nodup_nil, fun _ h => nomatch h⟩
  exact ((Sys.Ok.init hinit).reaches inbox_sound hs).inv

end Inbox

/-! ### What the broker delivers -/

/-- The message in which a relay publishes an event. -/
def brokerMessage (event : Ledger.IntegrationEventEnvelope) (routingKey : String) :
    ConsumeMessage :=
  { content := event.toJson.stringify, routingKey }

/-- The consumer reads the message of a proper event, unless its id or its time is not one. -/
lemma decode_brokerMessage {platform : Platform} (hplatform : platform.Standard)
    {event : Ledger.IntegrationEventEnvelope} {routingKey userId : String}
    (h : Proper event routingKey userId) :
    decode platform (brokerMessage event routingKey) =
      if Ledger.isUuid event.eventId = true ∧
          platform.parsesAsDate (isoString event.occurredAt) = true then .ok (received event)
      else .error "Invalid event envelope" := by
  have hjson : platform.parseJson event.toJson.stringify = some event.toJson := by
    rw [hplatform.parseJson, Json.parse_stringify (representable_toJson h.representable)]
  unfold decode brokerMessage
  rw [hjson]
  change (parseIntegrationEvent platform event.toJson).bind _ = _
  split
  · next hread =>
    rw [parseIntegrationEvent_toJson h hread.1 hread.2]
    change (assertTrustedIntegrationEvent (received event) routingKey).bind _ = _
    rw [h.trusted]
    rfl
  · next hread =>
    have heventId : stringProperty event.toJson "eventId" = some event.eventId := rfl
    have heventType : stringProperty event.toJson "eventType" = some event.eventType := rfl
    have hschema : versionProperty event.toJson "schemaVersion" = some event.schemaVersion :=
      versionProperty_num rfl h.schemaVersion.ge
    have hoccurredAt : stringProperty event.toJson "occurredAt" =
        some (isoString event.occurredAt) := rfl
    have hobject : isObject event.toJson = true := rfl
    have hnone : readEnvelope platform event.toJson = none := by
      rw [readEnvelope, hobject, heventId, heventType, hschema, hoccurredAt]
      rcases not_and_or.mp hread with hid | hdate
      · simp [Option.filter_some, hid]
      · simp [Option.filter_some, hdate]
    rw [parseIntegrationEvent, hnone]
    rfl

/-! ### An event that is shown -/

/-- The event of a delivered message can be shown. -/
lemma fed_shows {platform : Platform} {given : ConsumeMessage → Prop} {message : ConsumeMessage}
    {event : IntegrationEventEnvelope} (hgiven : given message)
    (hdecode : decode platform message = .ok event) (itemId : String) :
    ∃ s, Reaches (fedInbox platform given) (Sys.init .initial) s ∧
      s.world.db.feed = [activityItem itemId event] := by
  have hconsume : consume platform itemId true (some message) = deliver itemId message event := by
    simp only [consume, hdecode]
  obtain ⟨hserve, -⟩ := (Sys.Quiet.init InboxWorld.initial).serve (fedInbox platform given) 1 0
    (deliver itemId message event)
    { InboxWorld.initial with started := Function.update (fun _ => false) 0 true }
    (Prog.admitted_of_invariant (I := fun _ => True) (fun _ _ _ _ => trivial)
      (fun _ _ _ _ => trivial) 1 trivial _) rfl
    ⟨⟨rfl, rfl, itemId, true, some message, hconsume.symm⟩, itemId, true, some message,
      hconsume.symm, fun m hm => Option.some.inj hm ▸ hgiven⟩
  exact ⟨_, hserve, rfl⟩

/-- A user can be told about the event of a delivered message. -/
lemma fed_tells {platform : Platform} {given : ConsumeMessage → Prop} {message : ConsumeMessage}
    {event : IntegrationEventEnvelope} (hgiven : given message)
    (hdecode : decode platform message = .ok event) {userId : String}
    (huser : userIdFor event = some userId) (hne : userId ≠ "") :
    ∃ s, Reaches (fedInbox platform given) (Sys.init .initial) s ∧
      s.world.emitted = [(0, userId, event)] := by
  have hconsume : consume platform "item" true (some message) = deliver "item" message event := by
    simp only [consume, hdecode]
  set w : InboxWorld :=
    { InboxWorld.initial with started := Function.update (fun _ => false) 0 true } with hw
  obtain ⟨hserve, -⟩ := (Sys.Quiet.init InboxWorld.initial).serve (fedInbox platform given) 1 0
    (deliver "item" message event) w
    (Prog.admitted_of_invariant (I := fun _ => True) (fun _ _ _ _ => trivial)
      (fun _ _ _ _ => trivial) 1 trivial _) rfl
    ⟨⟨rfl, rfl, "item", true, some message, hconsume.symm⟩, "item", true, some message,
      hconsume.symm, fun m hm => Option.some.inj hm ▸ hgiven⟩
  have htell : tellUser true event = request (.emitToUser userId event) := by
    rw [tellUser, if_pos rfl, huser]
    exact if_pos hne
  have hcall : ∃ k, ((deliver "item" message event).drive (fedInbox platform given) 0 1 w).2 =
      .call (.emitToUser userId event) k := by
    change ∃ k, (tryCatch (tellUser true event >>= fun _ => request (.ack message))
      fun _ => request (.nack message true) : InboxProg Unit) = _
    rw [htell]
    exact ⟨_, rfl⟩
  obtain ⟨k, hk⟩ := hcall
  obtain ⟨s, hs, hthread, hemitted⟩ : ∃ s, Reaches (fedInbox platform given) (Sys.init .initial) s ∧
      s.threads 0 = .run (.call (.emitToUser userId event) k) ∧ s.world.emitted = [] :=
    ⟨_, hserve, by rw [Sys.serve, Sys.set_threads_self, hk], rfl⟩
  have hissue : Step (fedInbox platform given) s
      (s.set 0 (.waiting (.emitToUser userId event) () k)
        (s.world.asked 0 (.emitToUser userId event))) := .issue hthread rfl
  refine ⟨_, hs.tail hissue, ?_⟩
  change s.world.emitted ++ [(0, userId, event)] = _
  rw [hemitted]
  rfl

end Notifications

end PeerLedger
