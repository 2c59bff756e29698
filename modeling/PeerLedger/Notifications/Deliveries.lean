import PeerLedger.Notifications.Inbox
import PeerLedger.Transactions.Solo

/-!
# Every event takes effect once

A commit of the inbox either changes nothing or inserts the marker and the activity row of an event
that had no marker (`inboxProtocol`).  The unique index on the markers makes two deliveries of one
event wait for each other, so that each event is marked by one delivery, and only this delivery tells
the user about it.
-/

namespace PeerLedger

namespace Notifications

open Transactions

/-! ### What a commit does -/

/-- The activity row of the event exists. -/
def Database.HasItem (db : Database) (eventId : String) : Prop :=
  eventId ∈ db.feed.map (·.eventId)

lemma isProcessed_iff {db : Database} {eventId : String} :
    db.isProcessed eventId = true ↔ eventId ∈ db.processed.map (·.eventId) := by
  simp [Database.isProcessed]

/-- What a delivery does to the tables: nothing, or it inserts a new marker with its activity row. -/
inductive Effect (db : Database) : List Write → Prop
  | nothing : Effect db []
  | item (marker : ProcessedMessage) (item : ActivityFeedItem) : item.eventId = marker.eventId →
      marker.eventId ∉ db.processed.map (·.eventId) →
      Effect db [.insertProcessed marker, .insertActivity item]

/-- Rows stay. -/
lemma Effect.grows {db : Database} {ws : List Write} (h : Effect db ws) {eventId : String}
    (hitem : db.HasItem eventId) : (view db ws).HasItem eventId := by
  cases h with
  | nothing => exact hitem
  | item marker row =>
    change eventId ∈ (db.feed ++ [row]).map (·.eventId)
    rw [List.map_append]
    exact List.mem_append_left _ hitem

/-! ### The protocol -/

/-- Delivery `i` has told no user anything. -/
def InboxWorld.Silent (w : InboxWorld) (i : Nat) : Prop := ∀ e ∈ w.emitted, e.1 ≠ i

/-- The invariant of the notifications service. -/
structure InboxInv (platform : Platform) (w : InboxWorld) : Prop where
  marked : w.markedBy.map Prod.snd = w.db.processed.map (·.eventId)
  items : w.db.feed.map (·.eventId) = w.db.processed.map (·.eventId)
  nodup : (w.db.processed.map (·.eventId)).Nodup
  acked : ∀ message ∈ w.acked, ∀ event, decode platform message = .ok event →
    w.db.HasItem event.key
  rejected : ∀ message, (message, false) ∈ w.rejected → ∀ event,
    decode platform message ≠ .ok event
  emitted : ∀ e ∈ w.emitted, (e.1, e.2.2.key) ∈ w.markedBy
  once : (w.emitted.map Prod.fst).Nodup
  started : ∀ e ∈ w.emitted, w.started e.1 = true

/-- When a delivery sends a request. -/
def InboxWorld.MayAsk (platform : Platform) (w : InboxWorld) (i : Nat) : Request → Prop
  | .ack message => ∀ event, decode platform message = .ok event → w.db.HasItem event.key
  | .nack message requeue => requeue = false → ∀ event, decode platform message ≠ .ok event
  | .emitToUser _ event => (i, event.key) ∈ w.markedBy ∧ w.Silent i ∧ w.started i = true

/-- What the deliveries owe each other. -/
def inboxProtocol (platform : Platform) :
    Protocol Nat InboxWorld Database Write String Bool Request Unit where
  inv := InboxInv platform
  guar w c := Effect w.db c.writes
  callOk := InboxWorld.MayAsk platform
  post _ _ _ := True

variable {platform : Platform} {w w' : InboxWorld} {i : Nat} {p : List Write}

lemma InboxInv.commit {c : Commit Nat Database Write String Bool} (hinv : InboxInv platform w)
    (heffect : Effect w.db c.writes) : InboxInv platform ((inbox platform).commit w c) := by
  have hgrows : ∀ eventId, w.db.HasItem eventId → (view w.db c.writes).HasItem eventId :=
    fun eventId => heffect.grows
  obtain ⟨i, body, writes, reply⟩ := c
  dsimp only at heffect hgrows
  cases heffect with
  | nothing =>
    have hsame : (inbox platform).commit w ⟨i, body, [], reply⟩ = w := by
      simp [inbox, markers]
    rw [hsame]
    exact hinv
  | item marker row hid hfresh =>
    refine ⟨?_, ?_, ?_, fun message hmessage event hevent =>
      hgrows _ (hinv.acked message hmessage event hevent), hinv.rejected, fun e he => ?_,
      hinv.once, hinv.started⟩
    · change (w.markedBy ++ [(i, marker.eventId)]).map Prod.snd =
        (w.db.processed ++ [marker]).map (·.eventId)
      rw [List.map_append, List.map_append, hinv.marked]
      rfl
    · change (w.db.feed ++ [row]).map (·.eventId) = (w.db.processed ++ [marker]).map (·.eventId)
      rw [List.map_append, List.map_append, hinv.items]
      simp [hid]
    · change ((w.db.processed ++ [marker]).map (·.eventId)).Nodup
      rw [List.map_append]
      exact List.nodup_append'.mpr ⟨hinv.nodup, List.nodup_singleton _,
        List.disjoint_singleton.mpr hfresh⟩
    · exact List.mem_append_left _ (hinv.emitted e he)

lemma InboxInv.asked (hinv : InboxInv platform w) {q : Request}
    (hq : w.MayAsk platform i q) : InboxInv platform (w.asked i q) := by
  cases q with
  | ack message =>
    refine ⟨hinv.marked, hinv.items, hinv.nodup, fun m hm => ?_, hinv.rejected, hinv.emitted,
      hinv.once, hinv.started⟩
    rcases List.mem_append.mp hm with hm | hm
    · exact hinv.acked m hm
    · obtain rfl := List.mem_singleton.mp hm
      exact hq
  | nack message requeue =>
    refine ⟨hinv.marked, hinv.items, hinv.nodup, hinv.acked, fun m hm => ?_, hinv.emitted,
      hinv.once, hinv.started⟩
    rcases List.mem_append.mp hm with hm | hm
    · exact hinv.rejected m hm
    · obtain ⟨rfl, rfl⟩ := Prod.mk.inj (List.mem_singleton.mp hm)
      exact hq rfl
  | emitToUser userId event =>
    obtain ⟨hmarked, hsilent, hstarted⟩ := hq
    refine ⟨hinv.marked, hinv.items, hinv.nodup, hinv.acked, hinv.rejected,
      List.forall_mem_append.mpr ⟨hinv.emitted, List.forall_mem_singleton.mpr hmarked⟩, ?_,
      List.forall_mem_append.mpr ⟨hinv.started, List.forall_mem_singleton.mpr hstarted⟩⟩
    change ((w.emitted ++ [(i, userId, event)]).map Prod.fst).Nodup
    rw [List.map_append]
    refine List.nodup_append'.mpr ⟨hinv.once, List.nodup_singleton _,
      List.disjoint_singleton.mpr fun hmem => ?_⟩
    obtain ⟨e, he, heq⟩ := List.mem_map.mp hmem
    exact hsilent e he heq

/-- An event is marked by one delivery. -/
lemma InboxInv.marked_once (hinv : InboxInv platform w) {j : Nat} {eventId : String}
    (hi : (i, eventId) ∈ w.markedBy) (hj : (j, eventId) ∈ w.markedBy) : i = j :=
  congrArg Prod.fst (List.inj_on_of_nodup_map (hinv.marked ▸ hinv.nodup) hi hj rfl)

/-- A marked event has its activity row. -/
lemma InboxInv.marked_item (hinv : InboxInv platform w) {eventId : String}
    (h : (i, eventId) ∈ w.markedBy) : w.db.HasItem eventId := by
  rw [Database.HasItem, hinv.items, ← hinv.marked]
  exact List.mem_map_of_mem (f := Prod.snd) h

/-! ### What a delivery can rely on -/

/-- What a world can become while delivery `i` does nothing. -/
structure Ahead (i : Nat) (w w' : InboxWorld) : Prop where
  marked : w.markedBy ⊆ w'.markedBy
  items : ∀ eventId, w.db.HasItem eventId → w'.db.HasItem eventId
  silent : w.Silent i → w'.Silent i
  started : w.started i = true → w'.started i = true

lemma later_ahead (h : Later (inbox platform) (inboxProtocol platform) i p w w') :
    Ahead i w w' := by
  refine h.rel (R := Ahead i) (fun w => ⟨List.Subset.refl _, fun _ h => h, id, id⟩)
    (fun _ _ _ h h' => ⟨fun _ hx => h'.marked (h.marked hx), fun _ hx => h'.items _ (h.items _ hx),
      h'.silent ∘ h.silent, h'.started ∘ h.started⟩) fun a b hstep => ?_
  cases hstep with
  | env _ he => exact he.elim
  | commit _ _ _ _ _ heffect =>
    exact ⟨List.subset_append_left _ _, fun _ h => Effect.grows heffect h, id, id⟩
  | @issue _ j q _ _ hne _ hissue =>
    obtain rfl := hissue
    cases q with
    | ack => exact ⟨List.Subset.refl _, fun _ h => h, id, id⟩
    | nack => exact ⟨List.Subset.refl _, fun _ h => h, id, id⟩
    | emitToUser userId event =>
      refine ⟨List.Subset.refl _, fun _ h => h, fun hsilent => ?_, id⟩
      exact List.forall_mem_append.mpr ⟨hsilent, List.forall_mem_singleton.mpr hne⟩
  | start _ hne hstart =>
    obtain ⟨-, rfl, -⟩ := hstart
    exact ⟨List.Subset.refl _, fun _ h => h, id, fun h =>
      (Function.update_of_ne hne.symm _ _).trans h⟩

/-- While a transaction holds the marker of an event, no other inserts it. -/
lemma later_unmarked {marker : ProcessedMessage} (hmem : Write.insertProcessed marker ∈ p)
    (h : Later (inbox platform) (inboxProtocol platform) i p w w')
    (hfresh : marker.eventId ∉ w.db.processed.map (·.eventId)) :
    marker.eventId ∉ w'.db.processed.map (·.eventId) := by
  refine h.rel (R := fun w w' => marker.eventId ∉ w.db.processed.map (·.eventId) →
    marker.eventId ∉ w'.db.processed.map (·.eventId)) (fun _ h => h)
    (fun _ _ _ h h' hfresh => h' (h hfresh)) (fun a b hstep => ?_) hfresh
  intro hfresh
  cases hstep with
  | env _ he => exact he.elim
  | @commit c _ _ _ hdisjoint _ _ heffect =>
    obtain ⟨j, body, writes, reply⟩ := c
    change Effect a.db writes at heffect
    cases heffect with
    | nothing => exact hfresh
    | item other row =>
      change marker.eventId ∉ (a.db.processed ++ [other]).map (·.eventId)
      rw [List.map_append, List.mem_append]
      rintro (hold | hnew)
      · exact hfresh hold
      · have heq : marker.eventId = other.eventId := List.mem_singleton.mp hnew
        refine hdisjoint (a := Lock.processed marker.eventId) ?_ ?_
        · exact List.mem_flatMap.mpr ⟨_, hmem, List.mem_singleton_self _⟩
        · rw [heq]
          exact List.mem_cons_self
  | issue _ _ _ hissue =>
    obtain rfl := hissue
    rename_i q _ _ _ _
    cases q <;> exact hfresh
  | start _ _ hstart =>
    obtain ⟨-, rfl, -⟩ := hstart
    exact hfresh

/-! ### The consumer meets the protocol -/

section Consumer

variable {Φ : InboxWorld → Except String Unit → Prop}

/-- A request that may be sent. -/
lemma wp_request {q : Request}
    (hask : ∀ w', Ahead i w w' → w'.MayAsk platform i q)
    (hΦ : ∀ w₁ w' r, Ahead i w w₁ → Ahead i (w₁.asked i q) w' → Φ w' r) :
    (request q).wp (inbox platform) (inboxProtocol platform) i Φ w := by
  intro w₁ hw₁
  refine ⟨hask w₁ (later_ahead hw₁), ?_⟩
  rintro _ w₂ rfl w₃ hw₃ r -
  have hΦ' := hΦ w₁ w₃ r (later_ahead hw₁) (later_ahead hw₃)
  cases r <;> exact hΦ'

/-- The transaction of `process`: it fails, or finds the activity row of the event, or commits it. -/
lemma wp_process {consumer itemId : String} {event : IntegrationEventEnvelope}
    {Ψ : InboxWorld → Except String Bool → Prop} (hstarted : w.started i = true)
    (hsilent : w.Silent i) (herror : ∀ w' e, Ψ w' (.error e))
    (hold : ∀ w', w'.db.HasItem event.key → Ψ w' (.ok false))
    (hnew : ∀ w', w'.db.HasItem event.key → (i, event.key) ∈ w'.markedBy → w'.Silent i →
      w'.started i = true → Ψ w' (.ok true)) :
    (process consumer event (record itemId)).wp (inbox platform) (inboxProtocol platform) i Ψ
      w := by
  intro w₁ hw₁
  refine ⟨fun w₂ hw₂ => ?_, fun e _ => herror w₁ e⟩
  have hinv₂ : InboxInv platform w₂ := hw₂.inv
  have hview : view ((inbox platform).db w₂) ([] : List Write) = w₂.db := rfl
  rw [hview]
  by_cases hprocessed : w₂.db.isProcessed event.key = true
  · -- the marker is committed, and with it the row
    have hitem : w₂.db.HasItem event.key := by
      rw [Database.HasItem, hinv₂.items]
      exact isProcessed_iff.mp hprocessed
    have hrun : insertProcessed ⟨event.key, consumer⟩ w₂.db = .ok [] := if_pos hprocessed
    rw [hrun]
    simp only [hprocessed, if_true]
    intro w₃ hw₃ _
    exact ⟨.nothing, hold _ ((later_ahead hw₃).items _ hitem)⟩
  · have hfresh₂ : event.key ∉ w₂.db.processed.map (·.eventId) := fun hmem =>
      hprocessed (isProcessed_iff.mpr hmem)
    have hrun : insertProcessed ⟨event.key, consumer⟩ w₂.db =
        .ok [.insertProcessed ⟨event.key, consumer⟩] := if_neg hprocessed
    rw [hrun]
    simp only [hprocessed, Bool.false_eq_true, if_false]
    refine (Tx.wp_bind _ _ _ _).mpr ((Tx.wp_write _ _ _).mpr fun w₃ hw₃ =>
      ⟨fun e _ => herror w₃ e, fun ws hws w₄ hw₄ _ => ?_⟩)
    have hitem : ws = [.insertActivity (activityItem itemId event)] := by
      unfold insertActivity at hws
      split at hws
      · cases hws
      · exact (Except.ok.inj hws).symm
    subst hitem
    have hfresh₄ : event.key ∉ w₄.db.processed.map (·.eventId) := by
      have hfresh₃ : event.key ∉ w₃.db.processed.map (·.eventId) :=
        later_unmarked List.mem_cons_self hw₃ hfresh₂
      exact later_unmarked List.mem_cons_self hw₄ hfresh₃
    have hahead : Ahead i w w₄ := later_ahead
      (((hw₁.trans hw₂).trans hw₃.nil).trans hw₄.nil)
    refine ⟨.item ⟨event.key, consumer⟩ _ rfl hfresh₄, hnew _ ?_ ?_ (hahead.silent hsilent)
      (hahead.started hstarted)⟩
    · change event.key ∈ (w₄.db.feed ++ [activityItem itemId event]).map (·.eventId)
      rw [List.map_append]
      exact List.mem_append_right _ (List.mem_singleton_self _)
    · exact List.mem_append_right _ (List.mem_singleton_self _)

/-- Telling the user happens at most once, after the commit. -/
lemma wp_tellUser {processed : Bool} {event : IntegrationEventEnvelope}
    {Ψ : InboxWorld → Except String Unit → Prop}
    (hmay : processed = true → (i, event.key) ∈ w.markedBy ∧ w.Silent i ∧ w.started i = true)
    (hitem : w.db.HasItem event.key)
    (hΨ : ∀ w' r, w'.db.HasItem event.key → Ψ w' r) :
    (tellUser processed event).wp (inbox platform) (inboxProtocol platform) i Ψ w := by
  unfold tellUser
  split
  · next hprocessed =>
    obtain ⟨hmarked, hsilent, hstarted⟩ := hmay hprocessed
    split
    · next userId _ =>
      split
      · refine wp_request (fun w' hahead => ?_) fun w₁ w' r hahead hahead' => hΨ w' r ?_
        · exact ⟨hahead.marked hmarked, hahead.silent hsilent, hahead.started hstarted⟩
        · exact hahead'.items _ (hahead.items _ hitem)
      · exact hΨ w _ hitem
    · exact hΨ w _ hitem
  · exact hΨ w _ hitem

/-- The handling of a decoded message, up to its errors. -/
lemma wp_handle {itemId : String} {message : ConsumeMessage} {event : IntegrationEventEnvelope}
    (hdecode : decode platform message = .ok event) (hstarted : w.started i = true)
    (hsilent : w.Silent i) (hΦ : ∀ w' r, Φ w' r) :
    ((process "notifications.activity-feed.v1" event (record itemId)).bind fun processed =>
      (tellUser processed event).bind fun _ => request (.ack message)).wp (inbox platform)
      (inboxProtocol platform) i Φ w := by
  -- once the row is there, the user is told and the message acknowledged
  have hrest : ∀ w' processed, w'.db.HasItem event.key →
      (processed = true → (i, event.key) ∈ w'.markedBy ∧ w'.Silent i ∧ w'.started i = true) →
      ((tellUser processed event).bind fun _ => request (.ack message)).wp (inbox platform)
        (inboxProtocol platform) i Φ w' := by
    intro w' processed hitem hmay
    refine (Prog.wp_bind _ _ _).mpr (wp_tellUser hmay hitem fun w'' r hitem' => ?_)
    cases r with
    | error e => exact hΦ w'' _
    | ok =>
      refine wp_request (fun w₁ hahead event' hdecode' => ?_) fun _ w₁ r _ _ => hΦ w₁ r
      obtain rfl := Except.ok.inj (hdecode.symm.trans hdecode')
      exact hahead.items _ hitem'
  exact (Prog.wp_bind _ _ _).mpr (wp_process hstarted hsilent (fun w' _ => hΦ w' _)
    (fun w' hitem => hrest w' false hitem fun h => nomatch h)
    fun w' hitem hmarked hsilent' hstarted' =>
      hrest w' true hitem fun _ => ⟨hmarked, hsilent', hstarted'⟩)

/-- Every delivery meets the protocol. -/
lemma wp_consume {itemId : String} {connected : Bool} {message : Option ConsumeMessage}
    (hstarted : w.started i = true) (hsilent : w.Silent i) :
    (consume platform itemId connected message).wp (inbox platform) (inboxProtocol platform) i
      ((inboxProtocol platform).final (inbox platform) i) w := by
  unfold consume
  split
  · split
    · next message _ e hdecode =>
      refine wp_request (fun _ _ _ event hevent => ?_) fun _ _ _ _ _ _ _ => trivial
      rw [hdecode] at hevent
      cases hevent
    · next event hdecode =>
      refine (Prog.wp_attempt _ _ _).mpr (wp_handle hdecode hstarted hsilent fun w' r => ?_)
      cases r with
      | ok => exact fun _ _ => trivial
      | error e => exact wp_request (fun _ _ h => nomatch h) fun _ _ _ _ _ _ _ => trivial
  · exact fun _ _ => trivial

end Consumer

lemma inbox_sound : (inboxProtocol platform).Sound (inbox platform) where
  inv_env _ _ _ he := he.elim
  inv_commit _ _ hinv _ heffect := InboxInv.commit hinv heffect
  inv_issue w i q _ w' hinv hask hissue := by
    obtain rfl := hissue
    exact InboxInv.asked hinv hask
  inv_start w i _ w' hinv hstart := by
    obtain ⟨hidle, rfl, -⟩ := hstart
    refine { hinv with started := fun e he => ?_ }
    dsimp only
    rw [Function.update_apply]
    split
    · rfl
    · exact hinv.started e he
  start_wp w i _ w' hinv hstart := by
    obtain ⟨hidle, rfl, itemId, connected, message, rfl⟩ := hstart
    refine wp_consume (Function.update_self _ _ _) fun e he heq => ?_
    -- who has told a user something has been started
    have hstarted := hinv.started e he
    rw [heq, hidle] at hstarted
    cases hstarted

/-! ### What holds in every run -/

/-- Exactly one effect.  In every reachable state each event has at most one activity row, and a
marker exactly when it has the row; a message is acknowledged only in a state that has the row of its
event, and only messages that are not well formed or not trusted are given back for good; users are
told about an event at most once, and only when its row is committed. -/
theorem inbox_exactly_once {s : InboxSystem}
    (hs : Reaches (inbox platform) (Sys.init .initial) s) :
    (s.world.db.feed.map (·.eventId)).Nodup ∧
    (∀ eventId, (∃ marker ∈ s.world.db.processed, marker.eventId = eventId) ↔
      ∃ item ∈ s.world.db.feed, item.eventId = eventId) ∧
    (∀ i message k event, s.threads i = .run (.call (.ack message) k) →
      decode platform message = .ok event → ∃ item ∈ s.world.db.feed, item.eventId = event.key) ∧
    (∀ message ∈ s.world.acked, ∀ event, decode platform message = .ok event →
      ∃ item ∈ s.world.db.feed, item.eventId = event.key) ∧
    (∀ message, (message, false) ∈ s.world.rejected → ∀ event,
      decode platform message ≠ .ok event) ∧
    (s.world.emitted.map fun e => e.2.2.key).Nodup ∧
    (∀ i userId event k, s.threads i = .run (.call (.emitToUser userId event) k) →
      (∃ item ∈ s.world.db.feed, item.eventId = event.key) ∧
      ∀ e ∈ s.world.emitted, e.2.2.key ≠ event.key) := by
  have hinit : InboxInv platform InboxWorld.initial :=
    ⟨rfl, rfl, List.nodup_nil, (fun _ h => nomatch h), (fun _ h => nomatch h),
      (fun _ h => nomatch h), List.nodup_nil, fun _ h => nomatch h⟩
  have hok : s.Ok (inbox platform) (inboxProtocol platform) :=
    (Sys.Ok.init hinit).reaches inbox_sound hs
  have hinv : InboxInv platform s.world := hok.inv
  refine ⟨hinv.items ▸ hinv.nodup, fun eventId => ?_, ?_, ?_, hinv.rejected, ?_, ?_⟩
  · rw [← List.mem_map, ← List.mem_map, hinv.items]
  · intro i message k event hi hdecode
    exact List.mem_map.mp (hok.callOk hi event hdecode)
  · intro message hmessage event hdecode
    exact List.mem_map.mp (hinv.acked message hmessage event hdecode)
  · refine List.Nodup.map_on (fun e he e' he' heq => ?_) (hinv.once.of_map _)
    exact List.inj_on_of_nodup_map hinv.once he he' (hinv.marked_once (hinv.emitted e he)
      (heq ▸ hinv.emitted e' he'))
  · intro i userId event k hi
    obtain ⟨hmarked, hsilent, -⟩ := hok.callOk hi
    refine ⟨List.mem_map.mp (hinv.marked_item hmarked), fun e he heq => ?_⟩
    exact hsilent e he (hinv.marked_once (heq ▸ hinv.emitted e he) hmarked)

/-- A message of the payments service about a new share. -/
def shareMessage : ConsumeMessage where
  content := "share"
  routingKey := "payments.split-bill.created.v1"

/-- A platform that reads the message. -/
def sharePlatform : Platform where
  parseJson _ := some (.obj [("eventId", .str "b3c34a63-528d-4a44-91cc-599a34422ed0"),
    ("eventType", .str "payments.split-bill.Created"), ("schemaVersion", .num 1),
    ("occurredAt", .str "2024-01-01T00:00:00.000Z"), ("producer", .str "payments-service"),
    ("aggregate", .obj [("type", .str "SplitBill"), ("id", .str "bill"), ("version", .num 1)]),
    ("payload", .obj [("ownerId", .str "ann")])])
  parsesAsDate _ := true

/-- The state after delivery `i` was answered and has run on by itself. -/
def answered (s : InboxSystem) (i : Nat) : InboxSystem :=
  match s.threads i with
  | .run (.call q k) => s.serve (inbox sharePlatform) 2 i (k (.ok ())) (s.world.asked i q)
  | _ => s

/-- The inbox admits every commit. -/
lemma inbox_admitted (fuel i : Nat) (w : InboxWorld) (p : InboxProg Unit) :
    p.Admitted (inbox platform) i fuel w :=
  Prog.admitted_of_invariant (I := fun _ => True) (fun _ _ _ _ => trivial)
    (fun _ _ _ _ => trivial) fuel trivial p

lemma reaches_answered {s : InboxSystem} (hquiet : s.Quiet) (i : Nat) :
    Reaches (inbox sharePlatform) s (answered s i) ∧ (answered s i).Quiet := by
  unfold answered
  split
  · next q k hi =>
    exact hquiet.answered (inbox sharePlatform) 2 hi (t := ()) rfl trivial
      (inbox_admitted _ _ _ _)
  · exact ⟨.refl, hquiet⟩

/-- The state after delivery `i` of the message. -/
def shareDelivery (s : InboxSystem) (i : Nat) : InboxSystem :=
  answered (answered (s.serve (inbox sharePlatform) 2 i
    (consume sharePlatform "item" true (some shareMessage))
    { s.world with started := Function.update s.world.started i true }) i) i

/-- The message is delivered twice: it is acknowledged both times, and the user is told once. -/
theorem inbox_exactly_once_share : ∃ s : InboxSystem,
    Reaches (inbox sharePlatform) (Sys.init .initial) s ∧
    s.world.acked = [shareMessage, shareMessage] ∧ s.world.emitted.length = 1 ∧
    (s.world.db.feed.map (·.eventId)).Nodup := by
  have hdeliver : ∀ s : InboxSystem, s.Quiet → ∀ i, s.threads i = .idle →
      s.world.started i = false →
      Reaches (inbox sharePlatform) s (shareDelivery s i) ∧ (shareDelivery s i).Quiet := by
    intro s hquiet i hidle hstarted
    obtain ⟨h₁, hquiet₁⟩ := hquiet.serve (inbox sharePlatform) 2 i
      (consume sharePlatform "item" true (some shareMessage)) _ (inbox_admitted _ _ _ _) hidle
      ⟨hstarted, rfl, _, _, _, rfl⟩
    obtain ⟨h₂, hquiet₂⟩ := reaches_answered hquiet₁ i
    obtain ⟨h₃, hquiet₃⟩ := reaches_answered hquiet₂ i
    exact ⟨(h₁.trans h₂).trans h₃, hquiet₃⟩
  obtain ⟨h₁, hquiet₁⟩ := hdeliver _ (Sys.Quiet.init .initial) 0 rfl rfl
  obtain ⟨h₂, -⟩ := hdeliver _ hquiet₁ 1 rfl rfl
  exact ⟨_, h₁.trans h₂, by decide +kernel, by decide +kernel,
    (inbox_exactly_once (h₁.trans h₂)).1⟩

end Notifications

end PeerLedger
