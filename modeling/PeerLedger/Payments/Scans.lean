import PeerLedger.Transactions.Restriction
import PeerLedger.Payments.Reminders

/-!
# Scans beside a running payments service

`scanning` is the service of the scans for overdue shares, on the tables of a payments service that
runs beside them.  It keeps what the scans have committed, their reminders and the messages of these;
the tables that they find are an argument, since the other service changes them from one step to the
next (`Scanned.beside`).

Whatever the other service does, the scans commit a reminder and a message for a share together, and
both at most once (`Scanned.step`, `Scanned.nodup`).
-/

namespace PeerLedger

namespace Payments

open Transactions

/-- What the scans have committed: rows of `split_bill_reminders` and of the outbox. -/
structure ScanWorld where
  reminders : List SplitBillReminder
  outbox : List PaymentOutboxMessage

/-- No scan has committed anything. -/
def ScanWorld.initial : ScanWorld := { reminders := [], outbox := [] }

/-- The tables that a scan finds. -/
def ScanWorld.tables (w : ScanWorld) (db : Database) : ReminderTables :=
  { payments := { db with outbox := db.outbox ++ w.outbox }, reminders := w.reminders }

/-- Scans on the tables of the payments service.  Every statement may fail with any error. -/
def scanning (config : Config) (db : Database) :
    Service Nat ScanWorld ReminderTables ReminderWrite PaymentsError Reply Ask Answer Unit
      Result where
  db w := w.tables db
  commit w c :=
    { reminders := w.reminders ++ remindersOf c.writes, outbox := w.outbox ++ overdueOf c.writes }
  admits _ _ _ := True
  fails _ := True
  issue w _ _ _ w' := w' = w
  answer _ _ _ _ _ := True
  starts w _ program w' :=
    w' = w ∧ ∃ now limit draw, program = detectAndEnqueue config now limit draw
  env _ _ := False

/-- A state of the scans. -/
abbrev ScanSystem :=
  Sys Nat ScanWorld ReminderTables ReminderWrite PaymentsError Reply Ask Answer Unit Result

/-! ### What scans publish -/

/-- New reminders with their messages, and locks. -/
def IsScan (config : Config) (ws : List ReminderWrite) : Prop :=
  ∃ made : List (SplitBillReminder × PaymentOutboxMessage), remindersOf ws = made.map (·.1) ∧
    overdueOf ws = made.map (·.2) ∧ ∀ m ∈ made, Reminds config m

lemma detectAndEnqueue_publishes (config : Config) (now limit : Int) (draw : ScanDraw) :
    (detectAndEnqueue config now limit draw).Publishes (IsScan config) := by
  refine ⟨fun r q h => ?_, fun r => ?_⟩
  · obtain ⟨ids, p, hselect, hrest⟩ := Tx.Returns.bind_cases h
    obtain ⟨created, q', hloop, hend⟩ := Tx.Returns.bind_cases hrest
    obtain ⟨rfl, rfl⟩ := hend.of_ret
    obtain ⟨made, rfl, -, hmade⟩ := remindEach_returns hloop
    obtain ⟨locked, rfl⟩ : ∃ locked : List String, p = locked.map .lockShare := by
      cases hselect with
      | stmt c hrun hnext =>
        obtain ⟨-, hp⟩ := hnext.of_ret
        dsimp only at hrun
        split_ifs at hrun
        obtain rfl := Except.ok.inj hrun
        exact ⟨_, hp.trans (List.nil_append _)⟩
    obtain ⟨hrows, hnone⟩ := remindersOf_locks locked
    refine ⟨made, ?_, ?_, fun m hm => (hmade m hm).1⟩
    · rw [remindersOf_append, hrows, List.nil_append, remindersOf_reminderWrites]
    · rw [overdueOf_append, hnone, List.nil_append,
        overdueOf_reminderWrites fun m hm => (hmade m hm).1]
  · cases r <;> trivial

/-! ### Every step -/

/-- What holds of the scans in every run. -/
structure Scanned (config : Config) (db : Database) (s : ScanSystem) : Prop where
  publishes : ∀ i, (s.threads i).Publishes (IsScan config)
  checked : ∀ i, (s.threads i).Obeys ReminderChecked
  apart : s.Apart
  unique : s.Constrained (scanning config db) ReminderTables.Unique
  paired : ∃ made : List (SplitBillReminder × PaymentOutboxMessage),
    s.world.reminders = made.map (·.1) ∧ s.world.outbox = made.map (·.2) ∧
      ∀ m ∈ made, Reminds config m

section Scanned

variable {config : Config} {db db' : Database} {s s' : ScanSystem}

/-- Before any scan. -/
lemma scanned_init : Scanned config db (Sys.init .initial) where
  publishes _ := trivial
  checked _ := trivial
  apart i j _ := by simp [Sys.init, Thread.pending, locksOf]
  unique := by
    have hnone : (ScanWorld.initial.tables db).Unique :=
      ⟨fun _ h => absurd h List.not_mem_nil, List.nodup_nil⟩
    exact ⟨hnone, fun _ => hnone⟩
  paired := ⟨[], rfl, rfl, fun _ h => absurd h List.not_mem_nil⟩

/-- The reminders that a transaction sees are those of the scans. -/
lemma unique_tables {w : ScanWorld} {ws : List ReminderWrite}
    (h : (view (w.tables db) ws).Unique) : (view (w.tables db') ws).Unique := by
  have hsame : (view (w.tables db') ws).reminders = (view (w.tables db) ws).reminders := by
    rw [view_reminders, view_reminders]
    rfl
  exact ⟨hsame ▸ h.kinds, hsame ▸ h.shares⟩

/-- The service beside the scans changes its tables. -/
lemma Scanned.beside (h : Scanned config db s) (db' : Database) : Scanned config db' s :=
  { h with unique := h.unique.world fun _ => unique_tables }

lemma scanning_onlyCommits : (scanning config db).OnlyCommits ReminderTables.Unique where
  commit w c p h := by
    have hsame : (view ((scanning config db).db ((scanning config db).commit w c)) p).reminders =
        (view (view ((scanning config db).db w) c.writes) p).reminders := by
      rw [view_reminders, view_reminders, view_reminders]
      rfl
    exact ⟨hsame ▸ h.kinds, hsame ▸ h.shares⟩
  issue w i q t w' p hw h := by rwa [show w' = w from hw]
  starts w i b w' p hw h := by rwa [hw.1]
  env _ _ _ h := h.elim

/-- Whatever the tables of the service beside them are, a step of the scans keeps all this. -/
lemma Scanned.step (h : Scanned config db s) (hs : Step (scanning config db) s s') :
    Scanned config db s' where
  publishes := by
    refine Sys.publishes_step ?_ h.publishes hs
    rintro w i _ w' ⟨-, now, limit, draw, rfl⟩
    exact detectAndEnqueue_publishes config now limit draw
  checked := by
    refine Sys.obeys_step ?_ h.checked hs
    rintro w i _ w' ⟨-, now, limit, draw, rfl⟩
    exact duty_checked config (.scan now limit draw)
  apart := h.apart.step hs
  unique := h.unique.step unique_guarded scanning_onlyCommits h.checked h.apart hs
  paired := by
    obtain ⟨made, hreminders, hmessages, hmade⟩ := h.paired
    rcases hs.world_cases with hw | ⟨i, body, r, p, k, hi, -, hw⟩ | ⟨i, q, k, t, -, hw⟩ |
      ⟨i, p, -, hw, -⟩ | henv
    · exact hw ▸ h.paired
    · obtain ⟨new, hrows, hnew, hreminds⟩ := (h.publishes i).commit hi
      refine ⟨made ++ new, ?_, ?_, List.forall_mem_append.mpr ⟨hmade, hreminds⟩⟩
      · rw [hw, List.map_append, ← hreminders, ← hrows]
        rfl
      · rw [hw, List.map_append, ← hmessages, ← hnew]
        rfl
    · rw [show s'.world = s.world from hw]
      exact h.paired
    · rw [hw]
      exact h.paired
    · exact henv.elim

/-- What the scans commit stays. -/
lemma outbox_step (hs : Step (scanning config db) s s') : s.world.outbox ⊆ s'.world.outbox := by
  rcases hs.world_cases with hw | ⟨i, body, r, p, k, -, -, hw⟩ | ⟨i, q, k, t, -, hw⟩ |
    ⟨i, p, -, hw, -⟩ | henv
  · rw [hw]
    exact List.Subset.refl _
  · rw [hw]
    exact List.subset_append_left _ _
  · rw [show s'.world = s.world from hw]
    exact List.Subset.refl _
  · rw [hw]
    exact List.Subset.refl _
  · exact henv.elim

/-- The scans commit reminders. -/
lemma Scanned.reminds (h : Scanned config db s) {message : PaymentOutboxMessage}
    (hmessage : message ∈ s.world.outbox) :
    ∃ bill share draw, message = overdueReminderMessage config.isoString bill share draw := by
  obtain ⟨made, -, hmessages, hmade⟩ := h.paired
  rw [hmessages] at hmessage
  obtain ⟨m, hm, rfl⟩ := List.mem_map.mp hmessage
  obtain ⟨bill, share, draw, heq, -⟩ := hmade m hm
  exact ⟨bill, share, draw, heq⟩

/-- A share is reminded of once. -/
lemma Scanned.nodup (h : Scanned config db s) :
    (s.world.outbox.map (·.event.aggregateId)).Nodup := by
  obtain ⟨made, hreminders, hmessages, hmade⟩ := h.paired
  have hshares : s.world.outbox.map (·.event.aggregateId) = s.world.reminders.map (·.shareId) := by
    rw [hreminders, hmessages, List.map_map, List.map_map]
    refine List.map_congr_left fun m hm => ?_
    obtain ⟨bill, share, draw, heq, hshare, -⟩ := hmade m hm
    rw [Function.comp_apply, Function.comp_apply, heq, hshare]
    rfl
  rw [hshares]
  exact h.unique.1.shares

end Scanned

end Payments

end PeerLedger
