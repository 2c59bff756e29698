import PeerLedger.Transactions.Restriction
import PeerLedger.Messaging.Publication

/-!
# What a relay gives to the broker

`Relay.fed` is the relay of a service that inserts only some rows.  Its workers handle only such rows
(`relayLimits`), so that they give only their messages to the broker (`fed_given`); and they can give
each of them (`fed_gives`).
-/

namespace PeerLedger

namespace Messaging

open Transactions

variable {η : Type}

/-- The row has the message of one that the service has inserted. -/
def OutboxRow.IsOf (produced : OutboxRow η → Prop) (row : OutboxRow η) : Prop :=
  ∃ first, produced first ∧ row.routingKey = first.routingKey ∧ row.event = first.event

/-- The relay, where the service inserts only some rows. -/
def Relay.fed (relay : Relay η) (produced : OutboxRow η → Prop) :
    Service Nat (RelayWorld η) (Outbox η) (OutboxWrite η) String (List (OutboxRow η)) (OutboxRow η)
      (Except String Unit) Nat Nat :=
  relay.service.restrict (fun _ => True) fun w w' =>
    ∀ row ∈ w'.outbox.rows, row ∈ w.outbox.rows ∨ produced row

/-- The workers handle only such rows. -/
def relayLimits (produced : OutboxRow η → Prop) :
    Limits (Outbox η) (OutboxWrite η) String (List (OutboxRow η)) (OutboxRow η) where
  contents outbox := ∀ row ∈ outbox.rows, row.IsOf produced
  write
    | .save row => row.IsOf produced
  reply rows := ∀ row ∈ rows, row.IsOf produced
  request row := row.IsOf produced
  keeps outbox x houtbox hx row hrow := by
    obtain ⟨saved⟩ := x
    obtain ⟨old, hold, heq⟩ := mem_apply.mp hrow
    split at heq
    · exact heq ▸ hx
    · exact heq ▸ houtbox old hold

variable {relay : Relay η} {produced : OutboxRow η → Prop} {draw : BatchDraw η}

/-- An update writes new versions of rows. -/
lemma within_update {eventId lockId : String} {change : OutboxRow η → OutboxRow η}
    (hchange : ∀ row, (change row).routingKey = row.routingKey ∧ (change row).event = row.event) :
    (update eventId lockId change).Within (relayLimits produced) fun _ => True := by
  have hbody : (Tx.stmt (fun outbox : Outbox η => .ok ((outbox.rows.filter fun row =>
      row.eventId = eventId && row.lockId = some lockId).map fun row => .save (change row)))
      fun _ => .ret [] : RelayTx η (List (OutboxRow η))).Within (relayLimits produced)
        (relayLimits produced).reply := by
    refine fun outbox houtbox => ⟨fun ws hws x hx => ?_, fun _ h => nomatch h⟩
    obtain rfl := Except.ok.inj hws
    obtain ⟨row, hrow, rfl⟩ := List.mem_map.mp hx
    obtain ⟨first, hfirst, hkey, hevent⟩ := houtbox row (List.mem_filter.mp hrow).1
    exact ⟨first, hfirst, (hchange row).1.trans hkey, (hchange row).2.trans hevent⟩
  exact ⟨hbody, fun _ _ _ _ => trivial, fun _ _ _ => trivial⟩

lemma within_publishMessage {message : OutboxRow η} (hmessage : message.IsOf produced) :
    (publishMessage relay draw message).Within (relayLimits produced) fun _ => True := by
  unfold publishMessage
  split
  · exact Prog.within_error _
  · next lockId _ =>
    have hpublish : (publish message).Within (relayLimits produced) fun _ => True :=
      ⟨hmessage, fun _ _ _ => trivial⟩
    have hmark : (update message.eventId lockId
        (·.published (draw.publishedAt message.eventId))).Within (relayLimits produced)
        fun _ => True := within_update fun _ => ⟨rfl, rfl⟩
    have hback : ∀ error, (update message.eventId lockId
        (·.failed message.attempts draw.now error)).Within (relayLimits produced)
        fun _ => True := fun _ => within_update fun _ => ⟨rfl, rfl⟩
    exact (hpublish.bind fun _ _ => hmark).attempt (fun _ _ => Prog.within_pure trivial) hback

lemma within_publishAll {messages : List (OutboxRow η)}
    (hmessages : ∀ message ∈ messages, message.IsOf produced) :
    (publishAll relay draw messages).Within (relayLimits produced) fun _ => True := by
  induction messages with
  | nil => exact Prog.within_pure trivial
  | cons message messages ih =>
    exact (within_publishMessage (hmessages message List.mem_cons_self)).bind fun _ _ =>
      ih fun other hother => hmessages other (List.mem_cons_of_mem _ hother)

lemma within_publishBatch (hreturning : ∀ rows, (draw.returning rows).Perm rows) :
    (publishBatch relay draw).Within (relayLimits produced) fun _ => True := by
  have hclaimed : ∀ outbox : Outbox η, (relayLimits produced).contents outbox →
      ∀ row ∈ outbox.claimed draw, row.IsOf produced := by
    intro outbox houtbox row hrow
    obtain ⟨old, hold, -, rfl⟩ := mem_claimed hrow
    exact houtbox old hold
  have hclaim : (claim draw).Within (relayLimits produced) (relayLimits produced).reply := by
    refine fun outbox houtbox => ⟨fun ws hws x hx => ?_, fun row hrow => ?_⟩
    · obtain rfl := Except.ok.inj hws
      obtain ⟨row, hrow, rfl⟩ := List.mem_map.mp hx
      exact hclaimed outbox houtbox row hrow
    · exact hclaimed outbox houtbox row ((hreturning _).mem_iff.mp hrow)
  exact (Prog.within_run hclaim).bind fun messages hmessages =>
    (within_publishAll hmessages).bind fun _ _ => Prog.within_pure trivial

/-- What a relay gives to the broker are messages that its service has inserted. -/
lemma fed_given {s : RelaySystem η} (hs : Reaches (relay.fed produced) (Sys.init .initial) s) :
    ∀ row ∈ s.world.given, row.IsOf produced := by
  have hkeeps : (relay.fed produced).Keeps (relayLimits produced) fun w =>
      (∀ row ∈ w.outbox.rows, row.IsOf produced) ∧ ∀ row ∈ w.given, row.IsOf produced := by
    refine ⟨fun w hw => hw.1, ?_, fun w c hw hws => ?_, ?_, fun w w' hw he => ?_⟩
    · rintro w i p w' hw ⟨⟨draw, -, hreturning, rfl, rfl⟩, -⟩
      exact ⟨within_publishBatch hreturning, hw⟩
    · exact ⟨(relayLimits produced).view hw.1 hws, hw.2⟩
    · rintro w i message ticket w' hw hmessage ⟨-, rfl⟩
      exact ⟨hw.1, List.forall_mem_append.mpr ⟨hw.2, List.forall_mem_singleton.mpr hmessage⟩⟩
    · obtain ⟨henv, hproduced⟩ := he
      have hgiven : w'.given = w.given := by cases henv <;> rfl
      refine ⟨fun row hrow => ?_, hgiven ▸ hw.2⟩
      rcases hproduced row hrow with hold | hnew
      · exact hw.1 row hold
      · exact ⟨row, hnew, rfl, rfl⟩
  exact (Reaches.within hkeeps ⟨fun _ h => absurd h List.not_mem_nil, fun _ h => absurd h
    List.not_mem_nil⟩ hs).2

/-- A relay gives more and more to the broker. -/
lemma given_step {s s' : RelaySystem η}
    (hstep : Step (relay.fed produced) s s') : s.world.given ⊆ s'.world.given := by
  rcases hstep.world_cases with he | ⟨i, body, r, p, k, -, -, he⟩ | ⟨i, q, k, t, -, hissue⟩ |
    ⟨i, p, -, hstart⟩ | henv
  · rw [he]
    exact List.Subset.refl _
  · rw [he]
    exact List.Subset.refl _
  · obtain ⟨-, he⟩ := hissue
    rw [he]
    exact List.subset_append_left _ _
  · obtain ⟨⟨draw, -, -, -, he⟩, -⟩ := hstart
    rw [he]
    exact List.Subset.refl _
  · obtain ⟨henv, -⟩ := henv
    generalize s'.world = w' at henv
    cases henv <;> exact List.Subset.refl _

/-! ### A row that is published -/

/-- What a worker draws to publish the row. -/
def batchOf (row : OutboxRow η) : BatchDraw η where
  now := row.availableAt
  batchSize := 1
  lockId := "lock"
  skipped _ := false
  returning rows := rows
  publishedAt _ := row.availableAt

/-- The outbox has one row. -/
def withRow (row : OutboxRow η) : RelayWorld η :=
  { RelayWorld.initial with outbox := ⟨[row]⟩ }

/-- A row that a service has inserted can be given to the broker. -/
lemma fed_gives {row : OutboxRow η} (hproduced : produced row) (hnew : row.Enqueued) :
    ∃ s, Reaches (relay.fed produced) (Sys.init .initial) s ∧
      row.locked (batchOf row) ∈ s.world.given := by
  have hclaimed : (⟨[row]⟩ : Outbox η).claimed (batchOf row) = [row.locked (batchOf row)] := by
    simp [Outbox.claimed, Outbox.candidates, OutboxRow.isClaimable, batchOf, hnew.publishedAt,
      hnew.lockedUntil]
  have henqueue : Step (relay.fed produced) (Sys.init .initial)
      (Sys.init (withRow row)) := by
    refine .env ⟨.enqueue row hnew List.not_mem_nil, fun other hother => .inr ?_⟩
    obtain rfl := List.mem_singleton.mp hother
    exact hproduced
  obtain ⟨w, hw⟩ : ∃ w : RelayWorld η, w = { withRow row with
    lockIds := Function.update (fun _ => none) 0 (some "lock") } := ⟨_, rfl⟩
  obtain ⟨hserve, -⟩ := (Sys.Quiet.init (withRow row)).serve (relay.fed produced) 2 0
    (publishBatch relay (batchOf row)) w
    (Prog.admitted_of_invariant (I := fun _ => True) (fun _ _ _ _ => trivial)
      (fun _ _ _ _ => trivial) 2 trivial _) rfl
    ⟨⟨batchOf row, (fun _ => (Option.some_ne_none _).symm), fun rows => .refl rows, rfl, hw⟩,
      trivial⟩
  -- the worker has claimed the row and is about to publish it
  have hdrive : ((publishBatch relay (batchOf row)).drive (relay.fed produced) 0 2 w).2 =
      (Prog.drive (relay.fed produced) 0 1 ((relay.fed produced).commit w
          ⟨0, claim (batchOf row), (w.outbox.claimed (batchOf row)).map .save,
            w.outbox.claimed (batchOf row)⟩)
        ((publishAll relay (batchOf row) (w.outbox.claimed (batchOf row))).bind fun _ =>
          .done (.ok (w.outbox.claimed (batchOf row)).length))).2 := rfl
  have hrows : w.outbox.claimed (batchOf row) = [row.locked (batchOf row)] := by
    rw [hw, ← hclaimed]
    rfl
  obtain ⟨k, hk⟩ : ∃ k, (publishAll relay (batchOf row) [row.locked (batchOf row)]).bind
      (fun _ => .done (.ok 1)) = .call (row.locked (batchOf row)) k := ⟨_, rfl⟩
  have hcall : ((publishBatch relay (batchOf row)).drive (relay.fed produced) 0 2 w).2 =
      .call (row.locked (batchOf row)) k := by
    rw [hdrive, hrows, List.length_singleton, hk]
    rfl
  have hthread : ((Sys.init (withRow row)).serve (relay.fed produced) 2 0
      (publishBatch relay (batchOf row)) w).threads 0 = .run (.call (row.locked (batchOf row)) k) := by
    rw [Sys.serve, Sys.set_threads_self, hcall]
  exact ⟨_, (Relation.ReflTransGen.head henqueue hserve).tail (.issue hthread ⟨rfl, rfl⟩),
    List.mem_append_right _ (List.mem_singleton_self _)⟩

end Messaging

end PeerLedger
