import PeerLedger.Messaging.Relay
import PeerLedger.Transactions.Solo

/-!
# Messages are published at least once

A commit of a relay worker changes a row in one of three ways (`Change`): it claims the row, or it
marks or puts back a row that still has the worker's own lock id.  The argument is that the copy of a
row that a worker took with its claim is still the row as long as the lock id is on it (`Claimed`):
whoever claims the row later writes another lock id, and whoever ends an attempt removes it.
-/

namespace PeerLedger

namespace Messaging

open Transactions Relation

variable {η : Type}

/-! ### What the writes do -/

lemma mem_apply {outbox : Outbox η} {row saved : OutboxRow η} :
    row ∈ (outbox.apply (.save saved)).rows ↔
      ∃ old ∈ outbox.rows, row = if old.eventId = saved.eventId then saved else old := by
  simp only [Outbox.apply, List.mem_map, eq_comm]

lemma apply_ids (outbox : Outbox η) (x : OutboxWrite η) :
    (outbox.apply x).rows.map (·.eventId) = outbox.rows.map (·.eventId) := by
  obtain ⟨saved⟩ := x
  simp only [Outbox.apply, List.map_map]
  refine List.map_congr_left fun old _ => ?_
  by_cases h : old.eventId = saved.eventId <;> simp [h]

/-- The writes of the relay keep the set of messages. -/
lemma view_ids (outbox : Outbox η) (ws : List (OutboxWrite η)) :
    (view outbox ws).rows.map (·.eventId) = outbox.rows.map (·.eventId) := by
  induction ws generalizing outbox with
  | nil => rfl
  | cons x ws ih => exact (ih (outbox.apply x)).trans (apply_ids outbox x)

/-- A row after some writes is an old row or one that was written. -/
lemma mem_view_rows {outbox : Outbox η} {ws : List (OutboxWrite η)} {row : OutboxRow η}
    (h : row ∈ (view outbox ws).rows) : row ∈ outbox.rows ∨ OutboxWrite.save row ∈ ws := by
  induction ws generalizing outbox with
  | nil => exact .inl h
  | cons x ws ih =>
    obtain ⟨saved⟩ := x
    rcases ih h with hrow | hrow
    · obtain ⟨old, hold, heq⟩ := mem_apply.mp hrow
      split at heq
      · exact .inr (heq ▸ List.mem_cons_self)
      · exact .inl (heq ▸ hold)
    · exact .inr (List.mem_cons_of_mem _ hrow)

lemma mem_writtenIds {ws : List (OutboxWrite η)} {row : OutboxRow η}
    (h : OutboxWrite.save row ∈ ws) : row.eventId ∈ locksOf (σ := Outbox η) ws :=
  List.mem_flatMap.mpr ⟨_, h, List.mem_singleton_self _⟩

/-- A row that nobody writes stays. -/
lemma mem_view_of_not_mem {outbox : Outbox η} {ws : List (OutboxWrite η)} {row : OutboxRow η}
    (h : row ∈ outbox.rows) (hnot : row.eventId ∉ locksOf (σ := Outbox η) ws) :
    row ∈ (view outbox ws).rows := by
  induction ws generalizing outbox with
  | nil => exact h
  | cons x ws ih =>
    obtain ⟨saved⟩ := x
    have hne : row.eventId ≠ saved.eventId := fun heq =>
      hnot (heq ▸ mem_writtenIds List.mem_cons_self)
    refine ih (mem_apply.mpr ⟨row, h, (if_neg hne).symm⟩) fun hmem => hnot ?_
    exact List.mem_cons_of_mem _ hmem

/-- A row that is written once has the written version. -/
lemma eq_of_saved {outbox : Outbox η} {ws : List (OutboxWrite η)} {row saved : OutboxRow η}
    (hnodup : (locksOf (σ := Outbox η) ws).Nodup) (hsaved : OutboxWrite.save saved ∈ ws)
    (h : row ∈ (view outbox ws).rows) (hid : row.eventId = saved.eventId) : row = saved := by
  induction ws generalizing outbox with
  | nil => cases hsaved
  | cons x ws ih =>
    obtain ⟨first⟩ := x
    obtain ⟨hhead, htail⟩ := List.nodup_cons.mp hnodup
    rcases List.mem_cons.mp hsaved with heq | hsaved
    · -- nothing behind the first write has the id again
      obtain rfl := OutboxWrite.save.inj heq
      change row ∈ (view (outbox.apply (.save saved)) ws).rows at h
      rcases mem_view_rows h with hrow | hrow
      · obtain ⟨old, -, heq⟩ := mem_apply.mp hrow
        split at heq
        · exact heq
        · next hne => exact absurd (heq ▸ hid) hne
      · exact absurd (hid ▸ mem_writtenIds hrow : saved.eventId ∈ locksOf (σ := Outbox η) ws) hhead
    · exact ih htail hsaved h

/-! ### What a worker can do to a row -/

/-- What a commit of worker `i` can do to a row. -/
inductive Change (w : RelayWorld η) (i : Nat) (row : OutboxRow η) : OutboxRow η → Prop
  | claim (draw : BatchDraw η) : w.lockIds i = some draw.lockId → row.isClaimable draw.now = true →
      Change w i row (row.locked draw)
  | publish (lockId : String) (publishedAt : Int) : w.lockIds i = some lockId →
      row.lockId = some lockId → row.publishedAt = none → w.Resolved row →
      Change w i row (row.published publishedAt)
  | fail (lockId : String) (now : Int) (error : String) : w.lockIds i = some lockId →
      row.lockId = some lockId → row.publishedAt = none →
      Change w i row (row.failed row.attempts now error)

section Change

variable {w : RelayWorld η} {i : Nat} {row row' : OutboxRow η}

lemma isClaimable_iff {now : Int} : row.isClaimable now = true ↔
    row.publishedAt = none ∧ row.availableAt ≤ now ∧ ∀ time ∈ row.lockedUntil, time < now := by
  rw [OutboxRow.isClaimable, Bool.and_eq_true, Bool.and_eq_true, decide_eq_true_iff,
    decide_eq_true_iff, and_assoc]
  cases row.lockedUntil <;> simp

/-- Only unpublished rows change. -/
lemma Change.unpublished (h : Change w i row row') : row.publishedAt = none := by
  cases h with
  | claim draw _ hclaimable => exact (isClaimable_iff.mp hclaimable).1
  | publish lockId publishedAt _ _ hnone => exact hnone
  | fail lockId now error _ _ hnone => exact hnone

/-- The message of a row never changes. -/
lemma Change.message_eq (h : Change w i row row') :
    row'.eventId = row.eventId ∧ row'.routingKey = row.routingKey ∧ row'.event = row.event := by
  cases h <;> exact ⟨rfl, rfl, rfl⟩

lemma Change.attempts_le (h : Change w i row row') : row.attempts ≤ row'.attempts := by
  cases h with
  | claim => exact le_refl _
  | publish => exact le_refl _
  | fail lockId now error =>
    change row.attempts ≤ row.attempts + 1
    omega

/-- The lock on a changed row is the worker's own, or there is none. -/
lemma Change.lockId_eq (h : Change w i row row') :
    row'.lockId = w.lockIds i ∨ row'.lockId = none := by
  cases h with
  | claim draw hlock => exact .inl hlock.symm
  | publish => exact .inr rfl
  | fail => exact .inr rfl

/-- A row that a change has marked was published. -/
lemma Change.resolved (h : Change w i row row') (hpublished : row'.publishedAt ≠ none) :
    w.Resolved row := by
  cases h with
  | claim draw _ hclaimable => exact absurd (isClaimable_iff.mp hclaimable).1 hpublished
  | publish lockId publishedAt _ _ _ hresolved => exact hresolved
  | fail lockId now error _ _ hnone => exact absurd hnone hpublished

end Change

/-- Whether the message of a row was published depends on the message only. -/
lemma RelayWorld.Resolved.congr {w : RelayWorld η} {row row' : OutboxRow η}
    (h : row'.eventId = row.eventId ∧ row'.routingKey = row.routingKey ∧ row'.event = row.event)
    (hresolved : w.Resolved row) : w.Resolved row' := by
  obtain ⟨ticket, hticket, message, hgiven, hmessage⟩ := hresolved
  refine ⟨ticket, hticket, message, hgiven, ?_⟩
  rwa [h.1, h.2.1, h.2.2]

/-! ### The protocol -/

/-- What the workers owe each other: every commit changes rows as `Change` says. -/
def relayProtocol : Protocol Nat (RelayWorld η) (Outbox η) (OutboxWrite η) String
    (List (OutboxRow η)) (OutboxRow η) Nat where
  inv w := (w.outbox.rows.map (·.eventId)).Nodup ∧
    (∀ i j lockId, w.lockIds i = some lockId → w.lockIds j = some lockId → i = j) ∧
    ∀ row ∈ w.outbox.rows, row.publishedAt ≠ none → w.Resolved row
  guar w c := ∀ x ∈ c.writes, ∃ row ∈ w.outbox.rows, ∃ row', x = .save row' ∧
    Change w c.thread row row'
  callOk _ _ _ := True
  post _ _ _ := True

variable {relay : Relay η} {w w' : RelayWorld η} {i : Nat}
  {c : Commit Nat (Outbox η) (OutboxWrite η) String (List (OutboxRow η))}

/-- What a commit does to one row. -/
lemma row_cases (hinv : relayProtocol.inv w) (hguar : relayProtocol.guar w c)
    {row row' : OutboxRow η} (hrow : row ∈ w.outbox.rows)
    (hrow' : row' ∈ (view w.outbox c.writes).rows) (hid : row'.eventId = row.eventId) :
    row' = row ∨ Change w c.thread row row' := by
  rcases mem_view_rows hrow' with hold | hsaved
  · exact .inl (List.inj_on_of_nodup_map hinv.1 hold hrow hid)
  · obtain ⟨old, hold, saved, heq, hchange⟩ := hguar _ hsaved
    obtain rfl := OutboxWrite.save.inj heq
    obtain rfl := List.inj_on_of_nodup_map hinv.1 hold hrow
      (hchange.message_eq.1.symm.trans hid)
    exact .inr hchange

/-- Every row after a commit was there before it, perhaps in another version. -/
lemma row_before {ws : List (OutboxWrite η)} {row' : OutboxRow η}
    (h : row' ∈ (view w.outbox ws).rows) : ∃ row ∈ w.outbox.rows, row'.eventId = row.eventId := by
  have hid : row'.eventId ∈ w.outbox.rows.map (·.eventId) :=
    view_ids w.outbox ws ▸ List.mem_map_of_mem h
  obtain ⟨row, hrow, heq⟩ := List.mem_map.mp hid
  exact ⟨row, hrow, heq.symm⟩

/-- Every row before a commit is there after it, perhaps in another version. -/
lemma row_after (ws : List (OutboxWrite η)) {row : OutboxRow η} (h : row ∈ w.outbox.rows) :
    ∃ row' ∈ (view w.outbox ws).rows, row'.eventId = row.eventId := by
  have hid : row.eventId ∈ (view w.outbox ws).rows.map (·.eventId) :=
    (view_ids w.outbox ws).symm ▸ List.mem_map_of_mem h
  exact List.mem_map.mp hid

lemma relayProtocol_inv_commit (hinv : relayProtocol.inv w) (hguar : relayProtocol.guar w c) :
    relayProtocol.inv { w with outbox := view w.outbox c.writes } := by
  refine ⟨(view_ids w.outbox c.writes).symm ▸ hinv.1, hinv.2.1, fun row' hrow' hpublished => ?_⟩
  obtain ⟨row, hrow, hid⟩ := row_before hrow'
  rcases row_cases hinv hguar hrow hrow' hid with rfl | hchange
  · exact hinv.2.2 _ hrow hpublished
  · exact (hchange.resolved hpublished).congr hchange.message_eq

/-- What a world can become while worker `i` does nothing. -/
structure Ahead (i : Nat) (w w' : RelayWorld η) : Prop where
  lockId : w'.lockIds i = w.lockIds i
  given : w.given <+: w'.given
  resolved : w.resolved ⊆ w'.resolved

lemma RelayWorld.Resolved.mono {row : OutboxRow η} (hgiven : w.given <+: w'.given)
    (hresolved : w.resolved ⊆ w'.resolved) (h : w.Resolved row) : w'.Resolved row := by
  obtain ⟨ticket, hticket, message, hmessage, hrow⟩ := h
  obtain ⟨more, hmore⟩ := hgiven
  have hlt : ticket < w.given.length := (List.getElem?_eq_some_iff.mp hmessage).1
  refine ⟨ticket, hresolved hticket, message, ?_, hrow⟩
  rw [← hmore, List.getElem?_append_left hlt, hmessage]

variable {p : List (OutboxWrite η)}

lemma Ahead.trans {w'' : RelayWorld η} (h : Ahead i w w') (h' : Ahead i w' w'') : Ahead i w w'' :=
  ⟨h'.lockId.trans h.lockId, h.given.trans h'.given, fun _ ht => h'.resolved (h.resolved ht)⟩

/-- Others leave the lock id of a worker and what the broker has done. -/
lemma later_ahead (h : Later relay.service relayProtocol i p w w') : Ahead i w w' := by
  refine h.rel (R := Ahead i) (fun w => ⟨rfl, List.prefix_rfl, List.Subset.refl _⟩)
    (fun _ _ _ => Ahead.trans) fun a b hstep => ?_
  cases hstep with
  | env _ he =>
    cases he with
    | enqueue => exact ⟨rfl, List.prefix_rfl, List.Subset.refl _⟩
    | resolve => exact ⟨rfl, List.prefix_rfl, List.subset_cons_self _ _⟩
  | commit => exact ⟨rfl, List.prefix_rfl, List.Subset.refl _⟩
  | issue _ _ _ hissue =>
    obtain ⟨-, rfl⟩ := hissue
    exact ⟨rfl, List.prefix_append _ _, List.Subset.refl _⟩
  | start _ hne hstart =>
    obtain ⟨draw, -, -, -, rfl⟩ := hstart
    exact ⟨Function.update_of_ne hne.symm _ _, List.prefix_rfl, List.Subset.refl _⟩

/-- Others leave the rows that a transaction occupies. -/
lemma later_occupied (h : Later relay.service relayProtocol i p w w') {row : OutboxRow η}
    (hrow : row ∈ w.outbox.rows) (hlock : row.eventId ∈ locksOf (σ := Outbox η) p) :
    row ∈ w'.outbox.rows := by
  refine h.rel (R := fun w w' => row ∈ w.outbox.rows → row ∈ w'.outbox.rows) (fun _ h => h)
    (fun _ _ _ h h' hrow => h' (h hrow)) (fun a b hstep => ?_) hrow
  intro hrow
  cases hstep with
  | env _ he =>
    cases he with
    | enqueue => exact List.mem_append_left _ hrow
    | resolve => exact hrow
  | commit _ _ hdisjoint =>
    exact mem_view_of_not_mem hrow fun hmem => hdisjoint hlock hmem
  | issue _ _ _ hissue =>
    obtain ⟨-, rfl⟩ := hissue
    exact hrow
  | start _ _ hstart =>
    obtain ⟨draw, -, -, -, rfl⟩ := hstart
    exact hrow

/-- A change that a worker can make stays one while others run. -/
lemma Change.ahead {row row' : OutboxRow η} (hahead : Ahead i w w') (h : Change w i row row') :
    Change w' i row row' := by
  cases h with
  | claim draw hlock hclaimable => exact .claim draw (hahead.lockId.trans hlock) hclaimable
  | publish lockId publishedAt hlock hrow hnone hresolved =>
    exact .publish lockId publishedAt (hahead.lockId.trans hlock) hrow hnone
      (hresolved.mono hahead.given hahead.resolved)
  | fail lockId now error hlock hrow hnone =>
    exact .fail lockId now error (hahead.lockId.trans hlock) hrow hnone

/-! ### Claimed messages -/

/-- The copy of a row that worker `i` has claimed: as long as its lock id is on the row, the row is
this copy. -/
structure Claimed (w : RelayWorld η) (i : Nat) (message : OutboxRow η) : Prop where
  lockId : ∃ lockId, w.lockIds i = some lockId ∧ message.lockId = some lockId
  unpublished : message.publishedAt = none
  current : ∀ row ∈ w.outbox.rows, row.eventId = message.eventId →
    row.lockId = message.lockId → row = message

/-- A commit that changes no row to one with the worker's lock id keeps what it has claimed. -/
lemma Claimed.commit {message : OutboxRow η} {ws : List (OutboxWrite η)}
    (h : Claimed w i message)
    (hlock : ∀ row, OutboxWrite.save row ∈ ws → row.lockId ≠ w.lockIds i) :
    Claimed { w with outbox := view w.outbox ws } i message := by
  refine ⟨h.lockId, h.unpublished, fun row hrow hid hrowlock => ?_⟩
  rcases mem_view_rows hrow with hold | hsaved
  · exact h.current row hold hid hrowlock
  · obtain ⟨lockId, hmine, hmessage⟩ := h.lockId
    exact absurd (hrowlock.trans (hmessage.trans hmine.symm)) (hlock row hsaved)

/-- Others leave what a worker has claimed. -/
lemma Claimed.later (h : Later relay.service relayProtocol i p w w') {message : OutboxRow η}
    (hclaimed : Claimed w i message) : Claimed w' i message := by
  refine h.rel (R := fun w w' => Claimed w i message → Claimed w' i message) (fun _ h => h)
    (fun _ _ _ h h' hclaimed => h' (h hclaimed)) (fun a b hstep => ?_) hclaimed
  intro hclaimed
  obtain ⟨lockId, hmine, hmessage⟩ := hclaimed.lockId
  cases hstep with
  | env _ he =>
    cases he with
    | enqueue row hnew =>
      refine ⟨hclaimed.lockId, hclaimed.unpublished, fun other hother hid hlock => ?_⟩
      rcases List.mem_append.mp hother with hold | hadded
      · exact hclaimed.current other hold hid hlock
      · obtain rfl := List.mem_singleton.mp hadded
        rw [hnew.lockId, hmessage] at hlock
        cases hlock
    | resolve => exact ⟨hclaimed.lockId, hclaimed.unpublished, hclaimed.current⟩
  | @commit c _ hinv hne _ _ _ hguar =>
    refine hclaimed.commit fun row hsaved heq => ?_
    obtain ⟨old, -, saved, hwrite, hchange⟩ := hguar _ hsaved
    obtain rfl := OutboxWrite.save.inj hwrite
    rcases hchange.lockId_eq with hlock | hlock
    · -- the others have other lock ids
      exact hne (hinv.2.1 _ _ lockId (hlock.symm.trans (heq.trans hmine)) hmine)
    · rw [heq, hmine] at hlock
      cases hlock
  | issue _ _ _ hissue =>
    obtain ⟨-, rfl⟩ := hissue
    exact ⟨hclaimed.lockId, hclaimed.unpublished, hclaimed.current⟩
  | start _ hne hstart =>
    obtain ⟨draw, -, -, -, rfl⟩ := hstart
    refine ⟨⟨lockId, ?_, hmessage⟩, hclaimed.unpublished, hclaimed.current⟩
    exact (Function.update_of_ne hne.symm _ _).trans hmine

/-! ### The worker meets the protocol -/

section Worker

variable {messages : List (OutboxRow η)} {message : OutboxRow η}
  {Φ : RelayWorld η → Except String Unit → Prop}

/-- An update of a claimed message. -/
lemma wp_update {lockId : String} {change : OutboxRow η → OutboxRow η} (hmem : message ∈ messages)
    (hclaimed : ∀ m ∈ messages, Claimed w i m) (hlock : message.lockId = some lockId)
    (hnone : ∀ row, (change row).lockId = none) (hchange : Change w i message (change message))
    (hΦ : ∀ w' r, (∀ m ∈ messages, Claimed w' i m) → Φ w' r) :
    (update message.eventId lockId change).wp relay.service relayProtocol i Φ w := by
  intro w₁ hw₁
  have hclaimed₁ : ∀ m ∈ messages, Claimed w₁ i m := fun m hm => (hclaimed m hm).later hw₁
  refine ⟨fun w₂ hw₂ => ?_, fun e _ => hΦ w₁ _ hclaimed₁⟩
  have hclaimed₂ : ∀ m ∈ messages, Claimed w₂ i m := fun m hm => (hclaimed₁ m hm).later hw₂
  intro w₃ hw₃ _
  have hclaimed₃ : ∀ m ∈ messages, Claimed w₃ i m := fun m hm => (hclaimed₂ m hm).later hw₃
  -- the row that the statement finds is the worker's copy
  have hfound : ∀ row ∈ w₂.outbox.rows.filter fun row =>
      row.eventId = message.eventId && row.lockId = some lockId, row = message := by
    intro row hrow
    obtain ⟨hrow, htest⟩ := List.mem_filter.mp hrow
    rw [Bool.and_eq_true, decide_eq_true_iff, decide_eq_true_iff] at htest
    exact (hclaimed₂ message hmem).current row hrow htest.1 (htest.2.trans hlock.symm)
  refine ⟨fun x hx => ?_, hΦ _ _ fun m hm => (hclaimed₃ m hm).commit fun row hsaved heq => ?_⟩
  · obtain ⟨row, hrow, rfl⟩ := List.mem_map.mp hx
    obtain rfl := hfound row hrow
    have hold : row ∈ w₃.outbox.rows := by
      have hwritten := mem_writtenIds hx
      rw [hchange.message_eq.1] at hwritten
      exact later_occupied hw₃ (List.mem_filter.mp hrow).1 hwritten
    exact ⟨row, hold, _, rfl, hchange.ahead (((later_ahead hw₁).trans (later_ahead hw₂)).trans
      (later_ahead hw₃))⟩
  · obtain ⟨old, -, hwrite⟩ := List.mem_map.mp hsaved
    obtain rfl := OutboxWrite.save.inj hwrite
    obtain ⟨mine, hmine, -⟩ := (hclaimed₃ m hm).lockId
    rw [hnone, hmine] at heq
    cases heq

/-- Giving a claimed message to the broker. -/
lemma wp_publish (hclaimed : ∀ m ∈ messages, Claimed w i m)
    (hok : ∀ w', (∀ m ∈ messages, Claimed w' i m) → w'.Resolved message → Φ w' (.ok ()))
    (herror : ∀ w' e, (∀ m ∈ messages, Claimed w' i m) → Φ w' (.error e)) :
    (publish message).wp relay.service relayProtocol i Φ w := by
  intro w₁ hw₁
  refine ⟨trivial, ?_⟩
  rintro ticket w₂ ⟨rfl, rfl⟩ w₃ hw₃ answer hanswer
  have hclaimed₃ : ∀ m ∈ messages, Claimed w₃ i m := fun m hm =>
    let h := (hclaimed m hm).later hw₁
    Claimed.later hw₃ ⟨h.lockId, h.unpublished, h.current⟩
  cases answer with
  | error e => exact herror w₃ e hclaimed₃
  | ok =>
    refine hok w₃ hclaimed₃ ⟨w₁.given.length, hanswer rfl, message, ?_, rfl, rfl, rfl⟩
    obtain ⟨more, hmore⟩ := (later_ahead hw₃).given
    rw [← hmore]
    simp

/-- One round of the loop. -/
lemma wp_publishMessage (draw : BatchDraw η) (hmem : message ∈ messages)
    (hclaimed : ∀ m ∈ messages, Claimed w i m)
    (hΦ : ∀ w' r, (∀ m ∈ messages, Claimed w' i m) → Φ w' r) :
    (publishMessage relay draw message).wp relay.service relayProtocol i Φ w := by
  unfold publishMessage
  obtain ⟨lockId, -, hlock⟩ := (hclaimed message hmem).lockId
  rw [hlock]
  refine (Prog.wp_attempt _ _ _).mpr ?_
  -- the handler puts the message back, whether it was published or not
  have hhandler : ∀ w' error, (∀ m ∈ messages, Claimed w' i m) →
      (update message.eventId lockId (·.failed message.attempts draw.now error)).wp relay.service
        relayProtocol i Φ w' := by
    intro w' error hclaimed'
    obtain ⟨mine, hmine, hmessage⟩ := (hclaimed' message hmem).lockId
    exact wp_update hmem hclaimed' hlock (fun _ => rfl) (.fail mine draw.now error hmine hmessage
      (hclaimed' message hmem).unpublished) hΦ
  refine (Prog.wp_bind _ _ _).mpr (wp_publish hclaimed (fun w' hclaimed' hresolved => ?_) hhandler)
  obtain ⟨mine, hmine, hmessage⟩ := (hclaimed' message hmem).lockId
  refine wp_update hmem hclaimed' hlock (fun _ => rfl) (.publish mine _ hmine hmessage
    (hclaimed' message hmem).unpublished hresolved) fun w'' r hclaimed'' => ?_
  cases r with
  | ok => exact hΦ w'' _ hclaimed''
  | error e => exact hhandler w'' e hclaimed''

/-- The loop over the rest of a batch. -/
lemma wp_publishAll (draw : BatchDraw η) {rest : List (OutboxRow η)} (hsub : rest ⊆ messages)
    (hclaimed : ∀ m ∈ messages, Claimed w i m)
    (hΦ : ∀ w' r, Φ w' r) :
    (publishAll relay draw rest).wp relay.service relayProtocol i Φ w := by
  induction rest generalizing w with
  | nil => exact hΦ w _
  | cons message rest ih =>
    obtain ⟨hmem, hrest⟩ := List.cons_subset.mp hsub
    refine (Prog.wp_bind _ _ _).mpr (wp_publishMessage draw hmem hclaimed fun w' r hclaimed' => ?_)
    cases r with
    | ok => exact ih hrest hclaimed'
    | error e => exact hΦ w' _

end Worker

lemma mem_claimed {outbox : Outbox η} {draw : BatchDraw η} {message : OutboxRow η}
    (h : message ∈ outbox.claimed draw) :
    ∃ row ∈ outbox.rows, row.isClaimable draw.now = true ∧ message = row.locked draw := by
  obtain ⟨row, hrow, rfl⟩ := List.mem_map.mp h
  obtain ⟨hmem, htest⟩ := List.mem_filter.mp ((List.mem_insertionSort _).mp
    (List.mem_of_mem_take hrow))
  exact ⟨row, hmem, (Bool.and_eq_true _ _ ▸ htest).1, rfl⟩

/-- A claim writes each row once. -/
lemma claimed_nodup {outbox : Outbox η} (h : (outbox.rows.map (·.eventId)).Nodup)
    (draw : BatchDraw η) :
    (locksOf (σ := Outbox η) ((outbox.claimed draw).map OutboxWrite.save)).Nodup := by
  have hids : locksOf (σ := Outbox η) ((outbox.claimed draw).map OutboxWrite.save) =
      ((outbox.candidates draw).take draw.batchSize).map (·.eventId) := by
    simp only [locksOf, Outbox.claimed, List.map_map, List.flatMap_map]
    exact List.flatMap_pure_eq_map _ _
  rw [hids]
  refine List.Nodup.sublist ((List.take_sublist _ _).map _) ?_
  refine ((List.perm_insertionSort _ _).map _).nodup_iff.mpr ?_
  exact h.sublist (List.filter_sublist.map _)

/-- A run of `publishBatch` meets the protocol. -/
lemma wp_publishBatch {draw : BatchDraw η} (hlock : w.lockIds i = some draw.lockId)
    (hreturning : ∀ rows, (draw.returning rows).Perm rows) :
    (publishBatch relay draw).wp relay.service relayProtocol i
      (relayProtocol.final relay.service i) w := by
  refine (Prog.wp_bind _ _ _).mpr fun w₁ hw₁ => ⟨fun w₂ hw₂ => ?_, fun _ _ _ _ => trivial⟩
  intro w₃ hw₃ _
  have hmine : w₃.lockIds i = some draw.lockId :=
    (((later_ahead hw₁).trans (later_ahead hw₂)).trans (later_ahead hw₃)).lockId.trans hlock
  have hwritten : ∀ message ∈ w₂.outbox.claimed draw, ∃ row ∈ w₃.outbox.rows,
      row.isClaimable draw.now = true ∧ message = row.locked draw := by
    intro message hmessage
    obtain ⟨row, hrow, hclaimable, rfl⟩ := mem_claimed hmessage
    refine ⟨row, later_occupied hw₃ hrow ?_, hclaimable, rfl⟩
    exact @mem_writtenIds η _ (row.locked draw) (List.mem_map_of_mem hmessage)
  have hguar : relayProtocol.guar w₃ ⟨i, claim draw, (w₂.outbox.claimed draw).map .save,
      draw.returning (w₂.outbox.claimed draw)⟩ := by
    intro x hx
    obtain ⟨message, hmessage, rfl⟩ := List.mem_map.mp hx
    obtain ⟨row, hrow, hclaimable, rfl⟩ := hwritten message hmessage
    exact ⟨row, hrow, _, rfl, .claim draw hmine hclaimable⟩
  refine ⟨hguar, (Prog.wp_bind _ _ _).mpr (wp_publishAll draw (List.Subset.refl _)
    (fun message hmessage => ?_) ?_)⟩
  · have hclaimed := (hreturning _).mem_iff.mp hmessage
    obtain ⟨row, -, hclaimable, rfl⟩ := hwritten message hclaimed
    refine ⟨⟨_, hmine, rfl⟩, (isClaimable_iff.mp hclaimable).1, fun other hother hid _ => ?_⟩
    exact eq_of_saved (claimed_nodup hw₂.inv.1 draw) (List.mem_map_of_mem hclaimed) hother hid
  · intro w' r
    cases r <;> exact fun _ _ => trivial

lemma relay_sound : (relayProtocol (η := η)).Sound relay.service where
  inv_env w w' hinv he := by
    cases he with
    | enqueue row hnew hfresh =>
      refine ⟨?_, hinv.2.1, fun other hother hpublished => ?_⟩
      · rw [List.map_append]
        exact List.nodup_append'.mpr ⟨hinv.1, List.nodup_singleton _,
          List.disjoint_singleton.mpr hfresh⟩
      · rcases List.mem_append.mp hother with hold | hadded
        · exact hinv.2.2 other hold hpublished
        · obtain rfl := List.mem_singleton.mp hadded
          exact absurd hnew.publishedAt hpublished
    | resolve ticket =>
      refine ⟨hinv.1, hinv.2.1, fun row hrow hpublished => ?_⟩
      exact RelayWorld.Resolved.mono (w := w) List.prefix_rfl (List.subset_cons_self _ _)
        (hinv.2.2 row hrow hpublished)
  inv_commit w c hinv _ hguar := relayProtocol_inv_commit hinv hguar
  inv_issue w i message ticket w' hinv _ hissue := by
    obtain ⟨-, rfl⟩ := hissue
    exact ⟨hinv.1, hinv.2.1, fun row hrow hpublished =>
      (hinv.2.2 row hrow hpublished).mono (List.prefix_append _ _) (List.Subset.refl _)⟩
  inv_start w i p w' hinv hstart := by
    obtain ⟨draw, hfresh, -, -, rfl⟩ := hstart
    refine ⟨hinv.1, fun j k lockId hj hk => ?_, hinv.2.2⟩
    dsimp only at hj hk
    rw [Function.update_apply] at hj hk
    split at hj
    · next hji =>
      split at hk
      · next hki => exact hji.trans hki.symm
      · exact absurd (hk.trans hj.symm) (hfresh k)
    · split at hk
      · exact absurd (hj.trans hk.symm) (hfresh j)
      · exact hinv.2.1 j k lockId hj hk
  start_wp w i p w' _ hstart := by
    obtain ⟨draw, -, hreturning, rfl, rfl⟩ := hstart
    exact wp_publishBatch (Function.update_self _ _ _) hreturning

/-! ### What holds in every run -/

variable {s s' : RelaySystem η}

lemma relay_ok (hs : Reaches relay.service (Sys.init .initial) s) :
    s.Ok relay.service relayProtocol := by
  have hinit : relayProtocol.inv (RelayWorld.initial : RelayWorld η) :=
    ⟨List.nodup_nil, (fun _ _ _ h => nomatch h), fun _ h => nomatch h⟩
  exact (Sys.Ok.init hinit).reaches relay_sound hs

/-- Worker `i` commits in the step. -/
def Commits (s s' : RelaySystem η) (i : Nat) : Prop :=
  ∃ body reply p k, s.threads i = .inTx body (.ret reply) p k ∧ s'.threads i = .run (k (.ok reply))

/-- What a step does to a row. -/
lemma row_step (hok : s.Ok relay.service relayProtocol) (hs : Step relay.service s s')
    {row : OutboxRow η} (hrow : row ∈ s.world.outbox.rows) :
    ∃ row' ∈ s'.world.outbox.rows, row'.eventId = row.eventId ∧
      (row' = row ∨ ∃ i, Commits s s' i ∧ Change s.world i row row') := by
  cases hs with
  | start _ hstart =>
    obtain ⟨draw, -, -, -, rfl⟩ := hstart
    exact ⟨row, hrow, rfl, .inl rfl⟩
  | @commit i body r p k hi ha =>
    obtain ⟨row', hrow', hid⟩ := row_after p hrow
    refine ⟨row', hrow', hid, (row_cases hok.inv (hok.guar hi ⟨_, ha⟩) hrow hrow' hid).imp_right
      fun hchange => ⟨i, ⟨_, _, _, _, hi, Sys.set_threads_self _ _ _ _⟩, hchange⟩⟩
  | issue _ hissue =>
    obtain ⟨-, rfl⟩ := hissue
    exact ⟨row, hrow, rfl, .inl rfl⟩
  | env he =>
    cases he with
    | enqueue => exact ⟨row, List.mem_append_left _ hrow, rfl, .inl rfl⟩
    | resolve => exact ⟨row, hrow, rfl, .inl rfl⟩
  | _ => exact ⟨row, hrow, rfl, .inl rfl⟩

/-- What a run does to a row. -/
lemma row_reaches (hok : s.Ok relay.service relayProtocol) (hs : Reaches relay.service s s')
    {row : OutboxRow η} (hrow : row ∈ s.world.outbox.rows) :
    ∃ row' ∈ s'.world.outbox.rows, row'.eventId = row.eventId ∧
      row'.routingKey = row.routingKey ∧ row'.event = row.event ∧ row.attempts ≤ row'.attempts ∧
      (row.publishedAt ≠ none → row' = row) := by
  induction hs with
  | refl => exact ⟨row, hrow, rfl, rfl, rfl, le_refl _, fun _ => rfl⟩
  | tail hab hstep ih =>
    obtain ⟨mid, hmid, hid, hkey, hevent, hattempts, hpublished⟩ := ih
    obtain ⟨row', hrow', hid', rfl | ⟨i, -, hchange⟩⟩ :=
      row_step (hok.reaches relay_sound hab) hstep hmid
    · exact ⟨_, hrow', hid, hkey, hevent, hattempts, hpublished⟩
    · obtain ⟨-, hkey', hevent'⟩ := hchange.message_eq
      refine ⟨row', hrow', hid'.trans hid, hkey'.trans hkey, hevent'.trans hevent,
        hattempts.trans hchange.attempts_le, fun hnot => ?_⟩
      exact absurd (hpublished hnot ▸ hchange.unpublished) hnot

/-- An unpublished row that is due and not locked is among the rows that a claim may take. -/
lemma mem_candidates {outbox : Outbox η} {draw : BatchDraw η} {row : OutboxRow η}
    (hrow : row ∈ outbox.rows) (hunpublished : row.publishedAt = none)
    (hdue : row.availableAt < draw.now) (hlock : ∀ time ∈ row.lockedUntil, time < draw.now)
    (hfree : draw.skipped row.eventId = false) : row ∈ outbox.candidates draw := by
  refine (List.mem_insertionSort _).mpr (List.mem_filter.mpr ⟨hrow, ?_⟩)
  rw [Bool.and_eq_true, hfree]
  exact ⟨isClaimable_iff.mpr ⟨hunpublished, hdue.le, hlock⟩, rfl⟩

/-- A claim with room for all candidates takes each of them. -/
lemma claim_takes {outbox : Outbox η} {draw : BatchDraw η} {row : OutboxRow η}
    (hrow : row ∈ outbox.candidates draw)
    (hroom : (outbox.candidates draw).length ≤ draw.batchSize)
    (hreturning : ∀ rows, (draw.returning rows).Perm rows) :
    ∃ messages writes, (claim draw).alone outbox [] = .ok (messages, writes) ∧
      row.locked draw ∈ messages := by
  have htaken : row.locked draw ∈ outbox.claimed draw := by
    refine List.mem_map_of_mem ?_
    rwa [List.take_of_length_le hroom]
  exact ⟨_, _, rfl, (hreturning _).mem_iff.mpr htaken⟩

/-- The relay publishes at least once and forgets nothing.  In every reachable state each message
has one row, and a row with `publishedAt` belongs to a message that `publish` has confirmed.  A step
keeps every row or changes it as `Change` says, so that only a claim of an unpublished, due and
unlocked row, and an update by the worker whose lock id is on the row, change it.  In every later
state the row is still there, with the same message, no fewer attempts, and unchanged if it was
published.  An unpublished row is a candidate of every claim later than `availableAt` and
`lockedUntil` that does not pass it over, and a claim with room for its candidates takes it. -/
theorem messages_published (hs : Reaches relay.service (Sys.init .initial) s) :
    (s.world.outbox.rows.map (·.eventId)).Nodup ∧
    (∀ row ∈ s.world.outbox.rows, row.publishedAt ≠ none → s.world.Resolved row) ∧
    (∀ s', Step relay.service s s' → ∀ row ∈ s.world.outbox.rows,
      ∃ row' ∈ s'.world.outbox.rows, row'.eventId = row.eventId ∧
        (row' = row ∨ ∃ i, Commits s s' i ∧ Change s.world i row row')) ∧
    (∀ s', Reaches relay.service s s' → ∀ row ∈ s.world.outbox.rows,
      ∃ row' ∈ s'.world.outbox.rows, row'.eventId = row.eventId ∧
        row'.routingKey = row.routingKey ∧ row'.event = row.event ∧ row.attempts ≤ row'.attempts ∧
        (row.publishedAt ≠ none → row' = row)) ∧
    ∀ row ∈ s.world.outbox.rows, row.publishedAt = none → ∀ draw : BatchDraw η,
      row.availableAt < draw.now → (∀ time ∈ row.lockedUntil, time < draw.now) →
      draw.skipped row.eventId = false → (∀ rows, (draw.returning rows).Perm rows) →
      row ∈ s.world.outbox.candidates draw ∧
      ((s.world.outbox.candidates draw).length ≤ draw.batchSize →
        ∃ messages writes, (claim draw).alone s.world.outbox [] = .ok (messages, writes) ∧
          row.locked draw ∈ messages) := by
  have hok := relay_ok hs
  refine ⟨hok.inv.1, hok.inv.2.2, fun s' hstep row hrow => row_step hok hstep hrow,
    fun s' hreach row hrow => row_reaches hok hreach hrow, ?_⟩
  intro row hrow hunpublished draw hdue hlock hfree hreturning
  have hcandidate := mem_candidates hrow hunpublished hdue hlock hfree
  exact ⟨hcandidate, fun hroom => claim_takes hcandidate hroom hreturning⟩

/-- A message of the payments service, and a run of `publishBatch` that finds it. -/
def noticeRow : OutboxRow Payments.PaymentIntegrationEvent :=
  (Payments.outboxMessage { eventId := "event", occurredAt := 5, carrier := {} }
    "payments.split-bill.Created" "payments.split-bill.created.v1" "SplitBill" "bill" 1 "bill"
    (.obj [])).row 5

def noticeBatch : BatchDraw Payments.PaymentIntegrationEvent where
  now := 10
  batchSize := 50
  lockId := "lock"
  skipped _ := false
  returning rows := rows
  publishedAt _ := 11

/-- The state after the broker has confirmed the message that worker `i` has given to it, and the
worker has run on by itself. -/
def confirmed (relay : Relay η) (fuel : Nat) (s : RelaySystem η) (i : Nat) : RelaySystem η :=
  match s.threads i with
  | .run (.call message k) =>
    s.serve relay.service fuel i (k (.ok ()))
      { s.world with given := s.world.given ++ [message],
                     resolved := s.world.given.length :: s.world.resolved }
  | _ => s

/-- The relay admits every commit. -/
lemma relay_admitted (fuel i : Nat) (w : RelayWorld η) (p : RelayProg η Nat) :
    p.Admitted relay.service i fuel w :=
  Prog.admitted_of_invariant (I := fun _ => True) (fun _ _ _ _ => trivial)
    (fun _ _ _ _ => trivial) fuel trivial p

lemma reaches_confirmed (hquiet : s.Quiet) (fuel i : Nat) :
    Reaches relay.service s (confirmed relay fuel s i) := by
  unfold confirmed
  split
  · next message k hi =>
    refine .head (.issue hi ⟨rfl, rfl⟩) ?_
    refine .head (.env (.resolve s.world.given.length ?_)) ?_
    · simp
    · refine .head (.answer (u := .ok ()) (Sys.set_threads_self _ _ _ _) fun _ =>
        List.mem_cons_self) ?_
      have hrun := hquiet.drive relay.service fuel i
        { s.world with given := s.world.given ++ [message],
                       resolved := s.world.given.length :: s.world.resolved }
        (k (.ok ())) (relay_admitted _ _ _ _)
      simpa [Reaches, Sys.set, Sys.serve] using hrun
  · exact .refl

/-- The state after the message was published. -/
def noticeRun : RelaySystem Payments.PaymentIntegrationEvent :=
  let w := { RelayWorld.initial with outbox := ⟨[noticeRow]⟩ }
  let s := (Sys.init w : RelaySystem Payments.PaymentIntegrationEvent).serve
    Payments.relay.service 2 0 (publishBatch Payments.relay noticeBatch)
    { w with lockIds := Function.update w.lockIds 0 (some "lock") }
  confirmed Payments.relay 2 s 0

theorem messages_published_notice :
    Reaches Payments.relay.service (Sys.init .initial) noticeRun ∧
    ∃ row ∈ noticeRun.world.outbox.rows, row.publishedAt = some 11 ∧
      noticeRun.world.Resolved row := by
  have hreach : Reaches Payments.relay.service (Sys.init .initial) noticeRun := by
    refine .head (.env (.enqueue noticeRow ⟨rfl, rfl, rfl, rfl⟩ List.not_mem_nil)) ?_
    obtain ⟨hserve, hquiet⟩ := (Sys.Quiet.init
        ({ RelayWorld.initial with outbox := ⟨[noticeRow]⟩ } : RelayWorld _)).serve
      Payments.relay.service 2 0 (publishBatch Payments.relay noticeBatch) _
      (relay_admitted _ _ _ _) rfl
      ⟨noticeBatch, (fun _ => (Option.some_ne_none _).symm), fun rows => .refl rows, rfl, rfl⟩
    exact hserve.trans (reaches_confirmed hquiet 2 0)
  have hpublished : ∃ row ∈ noticeRun.world.outbox.rows, row.publishedAt = some 11 := by
    decide +kernel
  obtain ⟨row, hrow, hat⟩ := hpublished
  exact ⟨hreach, row, hrow, hat, (messages_published hreach).2.1 row hrow (by rw [hat]; simp)⟩

end Messaging

end PeerLedger
