import PeerLedger.Transactions.Program
import Mathlib.Logic.Function.Basic
import Mathlib.Logic.Relation

/-!
# Concurrent programs at READ COMMITTED

Any number of threads run programs (`Prog`) against one database.  A scheduler interleaves their
single statements in any order:

* every statement sees what is committed at that moment together with the pending writes of its own
  transaction;
* a statement whose writes occupy an index entry or a row held by another open transaction waits:
  it has no step until the other transaction ends;
* a commit publishes all pending writes at once, an error or a crash discards them.

The database is one part of a `World`, in which a service also keeps what is not in its tables
(messages in the network, the state of another service, a record of past commits).  `Service` says
how commits, calls, answers and new programs act on the world.
-/

namespace Transactions

variable {ι W σ ω κ ε ρ χ υ τ α : Type}

/-- A commit: the thread, the transaction body it ran, the writes that it publishes, and the result
that the transaction returns. -/
structure Commit (ι σ ω ε ρ : Type) where
  /-- The committing thread. -/
  thread : ι
  /-- The transaction body that was run. -/
  body : Tx σ ω ε ρ
  /-- The published writes. -/
  writes : List ω
  /-- The result of the transaction. -/
  reply : ρ

/-- How a service sits in its world. -/
structure Service (ι W σ ω ε ρ χ υ τ α : Type) where
  /-- The committed contents of the database. -/
  db : W → σ
  /-- The world after a commit. -/
  commit : W → Commit ι σ ω ε ρ → W
  /-- A restriction on the commits of a run, given the pending writes of all threads; `True` when
  every commit is possible. -/
  admits : W → (ι → List ω) → Commit ι σ ω ε ρ → Prop
  /-- The errors with which a statement may fail at any time. -/
  fails : ε → Prop
  /-- What sending a request does to the world; the request gets a ticket. -/
  issue : W → ι → χ → τ → W → Prop
  /-- The answers that a waiting thread can receive. -/
  answer : W → ι → χ → τ → υ → Prop
  /-- The programs that a fresh thread can start, and what that does to the world. -/
  starts : W → ι → Prog σ ω ε ρ χ υ α → W → Prop
  /-- The steps that the world takes by itself. -/
  env : W → W → Prop

/-- The state of a thread. -/
inductive Thread (σ ω ε ρ χ υ τ α : Type) where
  /-- Not started yet. -/
  | idle
  /-- Crashed. -/
  | dead
  /-- Between transactions. -/
  | run (p : Prog σ ω ε ρ χ υ α)
  /-- Inside the transaction `body`, with `rest` still to run. -/
  | inTx (body rest : Tx σ ω ε ρ) (pending : List ω) (k : Except ε ρ → Prog σ ω ε ρ χ υ α)
  /-- Waiting for the answer to a request. -/
  | waiting (q : χ) (t : τ) (k : υ → Prog σ ω ε ρ χ υ α)

/-- The pending writes of a thread. -/
def Thread.pending : Thread σ ω ε ρ χ υ τ α → List ω
  | .inTx _ _ p _ => p
  | _ => []

/-- The state of the whole system. -/
structure Sys (ι W σ ω ε ρ χ υ τ α : Type) where
  /-- The world, the committed database included. -/
  world : W
  /-- The threads. -/
  threads : ι → Thread σ ω ε ρ χ υ τ α

/-- The pending writes of all threads. -/
def Sys.pending (s : Sys ι W σ ω ε ρ χ υ τ α) (i : ι) : List ω := (s.threads i).pending

/-- A commit that the run admits, whatever the others have pending. -/
def Service.Admits (sv : Service ι W σ ω ε ρ χ υ τ α) (w : W) (c : Commit ι σ ω ε ρ) : Prop :=
  ∃ pending, sv.admits w pending c

variable [DecidableEq ι]

/-- The state after thread `i` moved to `t` and the world to `w`. -/
def Sys.set (s : Sys ι W σ ω ε ρ χ υ τ α) (i : ι) (t : Thread σ ω ε ρ χ υ τ α) (w : W) :
    Sys ι W σ ω ε ρ χ υ τ α :=
  ⟨w, Function.update s.threads i t⟩

@[simp]
lemma Sys.set_world (s : Sys ι W σ ω ε ρ χ υ τ α) (i : ι) (t : Thread σ ω ε ρ χ υ τ α) (w : W) :
    (s.set i t w).world = w := rfl

@[simp]
lemma Sys.set_threads_self (s : Sys ι W σ ω ε ρ χ υ τ α) (i : ι) (t : Thread σ ω ε ρ χ υ τ α)
    (w : W) : (s.set i t w).threads i = t := by simp [Sys.set]

lemma Sys.set_threads_ne (s : Sys ι W σ ω ε ρ χ υ τ α) {i j : ι} (h : j ≠ i)
    (t : Thread σ ω ε ρ χ υ τ α) (w : W) : (s.set i t w).threads j = s.threads j := by
  simp [Sys.set, h]

/-- No other open transaction of the system occupies an index entry or row of the writes `ws`. -/
def Sys.Free [Store σ ω κ] (s : Sys ι W σ ω ε ρ χ υ τ α) (i : ι) (ws : List ω) : Prop :=
  ∀ j, j ≠ i → List.Disjoint (locksOf (σ := σ) (s.threads j).pending) (locksOf (σ := σ) ws)

/-- Open transactions occupy disjoint index entries and rows. -/
def Sys.Apart [Store σ ω κ] (s : Sys ι W σ ω ε ρ χ υ τ α) : Prop :=
  ∀ i j, i ≠ j → List.Disjoint (locksOf (σ := σ) (s.threads i).pending)
    (locksOf (σ := σ) (s.threads j).pending)

/-- A thread that moves keeps to what the others do not occupy. -/
lemma Sys.Apart.set [Store σ ω κ] {s : Sys ι W σ ω ε ρ χ υ τ α} (h : s.Apart) {i : ι}
    {t : Thread σ ω ε ρ χ υ τ α} (w : W)
    (hfree : ∀ j, j ≠ i → List.Disjoint (locksOf (σ := σ) (s.threads j).pending)
      (locksOf (σ := σ) t.pending)) : (s.set i t w).Apart := by
  intro a b hab
  by_cases ha : a = i
  · subst ha
    rw [Sys.set_threads_self, Sys.set_threads_ne s hab.symm]
    exact List.disjoint_symm (hfree b hab.symm)
  · rw [Sys.set_threads_ne s ha]
    by_cases hb : b = i
    · subst hb
      rw [Sys.set_threads_self]
      exact hfree a ha
    · rw [Sys.set_threads_ne s hb]
      exact h a b hab

/-- One step of one thread, or of the world. -/
inductive Step [Store σ ω κ] (sv : Service ι W σ ω ε ρ χ υ τ α) :
    Sys ι W σ ω ε ρ χ υ τ α → Sys ι W σ ω ε ρ χ υ τ α → Prop
  | start {s i p w'} : s.threads i = .idle → sv.starts s.world i p w' →
      Step sv s (s.set i (.run p) w')
  | query {s i k} : s.threads i = .run (.query k) →
      Step sv s (s.set i (.run (k (.ok (sv.db s.world)))) s.world)
  | queryFail {s i k e} : s.threads i = .run (.query k) → sv.fails e →
      Step sv s (s.set i (.run (k (.error e))) s.world)
  | begin {s i body k} : s.threads i = .run (.transaction body k) →
      Step sv s (s.set i (.inTx body body [] k) s.world)
  | stmt {s i body run next p k ws} : s.threads i = .inTx body (.stmt run next) p k →
      run (view (sv.db s.world) p) = .ok ws → s.Free i ws →
      Step sv s (s.set i (.inTx body (next (view (sv.db s.world) p)) (p ++ ws) k) s.world)
  | stmtFail {s i body run next p k e} : s.threads i = .inTx body (.stmt run next) p k →
      run (view (sv.db s.world) p) = .error e →
      Step sv s (s.set i (.run (k (.error e))) s.world)
  | abort {s i body e p k} : s.threads i = .inTx body (.abort e) p k →
      Step sv s (s.set i (.run (k (.error e))) s.world)
  | fail {s i body rest p k e} : s.threads i = .inTx body rest p k → sv.fails e →
      Step sv s (s.set i (.run (k (.error e))) s.world)
  | commit {s i body r p k} : s.threads i = .inTx body (.ret r) p k →
      sv.admits s.world s.pending ⟨i, body, p, r⟩ →
      Step sv s (s.set i (.run (k (.ok r))) (sv.commit s.world ⟨i, body, p, r⟩))
  | issue {s i q k t w'} : s.threads i = .run (.call q k) → sv.issue s.world i q t w' →
      Step sv s (s.set i (.waiting q t k) w')
  | answer {s i q t k u} : s.threads i = .waiting q t k → sv.answer s.world i q t u →
      Step sv s (s.set i (.run (k u)) s.world)
  | crash {s i} : Step sv s (s.set i .dead s.world)
  | env {s w'} : sv.env s.world w' → Step sv s ⟨w', s.threads⟩

/-- Every step keeps the open transactions apart. -/
lemma Sys.Apart.step [Store σ ω κ] {sv : Service ι W σ ω ε ρ χ υ τ α}
    {s s' : Sys ι W σ ω ε ρ χ υ τ α} (h : s.Apart) (hs : Step sv s s') : s'.Apart := by
  have hnil : ∀ l : List κ, List.Disjoint l (locksOf (σ := σ) ([] : List ω)) := by simp [locksOf]
  cases hs with
  | @stmt i body run next p k ws hi hrun hfree =>
    refine h.set _ fun j hj => ?_
    have hp := h j i hj
    rw [hi] at hp
    simp only [Thread.pending, locksOf, List.flatMap_append] at hp ⊢
    exact List.disjoint_append_right.mpr ⟨hp, hfree j hj⟩
  | env he => exact h
  | _ => exact h.set _ fun _ _ => hnil _

/-- The states that a run can reach. -/
def Reaches [Store σ ω κ] (sv : Service ι W σ ω ε ρ χ υ τ α) :
    Sys ι W σ ω ε ρ χ υ τ α → Sys ι W σ ω ε ρ χ υ τ α → Prop :=
  Relation.ReflTransGen (Step sv)

/-- The initial state with world `w`: no thread has started. -/
def Sys.init (w : W) : Sys ι W σ ω ε ρ χ υ τ α := ⟨w, fun _ => .idle⟩

/-- The service without new programs: its threads only go on with what they have started. -/
def Service.closed (sv : Service ι W σ ω ε ρ χ υ τ α) : Service ι W σ ω ε ρ χ υ τ α :=
  { sv with starts := fun _ _ _ _ => False }

/-- A step of the threads that have started is a step of the service. -/
lemma Step.of_closed [Store σ ω κ] {sv : Service ι W σ ω ε ρ χ υ τ α}
    {s s' : Sys ι W σ ω ε ρ χ υ τ α} (h : Step sv.closed s s') : Step sv s s' := by
  cases h with
  | start _ hs => exact hs.elim
  | query hi => exact .query hi
  | queryFail hi he => exact .queryFail hi he
  | begin hi => exact .begin hi
  | stmt hi hrun hfree => exact .stmt hi hrun hfree
  | stmtFail hi hrun => exact .stmtFail hi hrun
  | abort hi => exact .abort hi
  | fail hi he => exact .fail hi he
  | commit hi ha => exact .commit hi ha
  | issue hi hq => exact .issue hi hq
  | answer hi hu => exact .answer hi hu
  | crash => exact .crash
  | env he => exact .env he

/-- A step leaves the world alone, or commits, or sends a request, or starts a program, or is a
step of the world itself. -/
lemma Step.world_cases [Store σ ω κ] {sv : Service ι W σ ω ε ρ χ υ τ α}
    {s s' : Sys ι W σ ω ε ρ χ υ τ α} (h : Step sv s s') :
    s'.world = s.world ∨
    (∃ i body r p k, s.threads i = .inTx body (.ret r) p k ∧
      sv.admits s.world s.pending ⟨i, body, p, r⟩ ∧
      s'.world = sv.commit s.world ⟨i, body, p, r⟩) ∨
    (∃ i q k t, s.threads i = .run (.call q k) ∧ sv.issue s.world i q t s'.world) ∨
    (∃ i p, s.threads i = .idle ∧ sv.starts s.world i p s'.world) ∨
    sv.env s.world s'.world := by
  cases h with
  | start hi hs => exact .inr (.inr (.inr (.inl ⟨_, _, hi, hs⟩)))
  | commit hi ha => exact .inr (.inl ⟨_, _, _, _, _, hi, ha, rfl⟩)
  | issue hi hq => exact .inr (.inr (.inl ⟨_, _, _, _, hi, hq⟩))
  | env he => exact .inr (.inr (.inr (.inr he)))
  | _ => exact .inl rfl

/-- A transaction that ends with an error before it has reached its end leaves the world alone. -/
lemma Step.rollback [Store σ ω κ] {sv : Service ι W σ ω ε ρ χ υ τ α} {s : Sys ι W σ ω ε ρ χ υ τ α}
    {i : ι} {body rest : Tx σ ω ε ρ} {p : List ω} {k : Except ε ρ → Prog σ ω ε ρ χ υ α} {e : ε} {w : W}
    (hi : s.threads i = .inTx body rest p k) (hrest : ∀ r, rest ≠ .ret r)
    (h : Step sv s (s.set i (.run (k (.error e))) w)) : w = s.world := by
  generalize hs : s.set i (.run (k (.error e))) w = s' at h
  have hw : w = s'.world := by rw [← hs, Sys.set_world]
  have ht : s'.threads i = .run (k (.error e)) := by rw [← hs, Sys.set_threads_self]
  -- the step is one of thread `i`, since no other one leaves the transaction
  have hother : ∀ j t w', s' = s.set j t w' → j = i := by
    rintro j t w' rfl
    by_contra hne
    rw [Sys.set_threads_ne s (Ne.symm hne), hi] at ht
    cases ht
  rw [hw]
  cases h with
  | start hj => rw [hother _ _ _ rfl, hi] at hj; cases hj
  | issue hj => rw [hother _ _ _ rfl, hi] at hj; cases hj
  | commit hj =>
    rw [hother _ _ _ rfl, hi] at hj
    cases hj
    exact absurd rfl (hrest _)
  | env => rw [hi] at ht; cases ht
  | _ => rfl

end Transactions
