import PeerLedger.Transactions.RelyGuarantee

/-!
# Running one thread at a time

`Prog.drive` runs a program by itself up to its next request or to its end, each transaction in one
go.  While no other transaction is open, this is a run of the machine (`Sys.Quiet.drive`), so that
concrete runs can be built by evaluation.  `Sys.tick` is a single step of a thread, for runs in which
transactions overlap.
-/

namespace Transactions

variable {ι W σ ω κ ε ρ χ υ τ α : Type} [DecidableEq ι] [Store σ ω κ]

/-- No transaction is open. -/
def Sys.Quiet (s : Sys ι W σ ω ε ρ χ υ τ α) : Prop :=
  ∀ i, (s.threads i).pending = []

/-- The program of thread `i` and the world after at most `fuel` queries and transactions of the
program, run by itself. -/
def Prog.drive (sv : Service ι W σ ω ε ρ χ υ τ α) (i : ι) :
    Nat → W → Prog σ ω ε ρ χ υ α → W × Prog σ ω ε ρ χ υ α
  | 0, w, p => (w, p)
  | _ + 1, w, .done r => (w, .done r)
  | _ + 1, w, .call q k => (w, .call q k)
  | fuel + 1, w, .query k => drive sv i fuel w (k (.ok (sv.db w)))
  | fuel + 1, w, .transaction body k =>
    match body.alone (sv.db w) [] with
    | .ok (r, ws) => drive sv i fuel (sv.commit w ⟨i, body, ws, r⟩) (k (.ok r))
    | .error e => drive sv i fuel w (k (.error e))

/-- What is pending when thread `i` alone is in a transaction. -/
def soloPending (i : ι) (ws : List ω) : ι → List ω := Function.update (fun _ => []) i ws

/-- Every commit of the program, run by itself, is admitted. -/
def Prog.Admitted (sv : Service ι W σ ω ε ρ χ υ τ α) (i : ι) :
    Nat → W → Prog σ ω ε ρ χ υ α → Prop
  | 0, _, _ => True
  | _ + 1, _, .done _ => True
  | _ + 1, _, .call _ _ => True
  | fuel + 1, w, .query k => Admitted sv i fuel w (k (.ok (sv.db w)))
  | fuel + 1, w, .transaction body k =>
    match body.alone (sv.db w) [] with
    | .ok (r, ws) => sv.admits w (soloPending i ws) ⟨i, body, ws, r⟩ ∧
        Admitted sv i fuel (sv.commit w ⟨i, body, ws, r⟩) (k (.ok r))
    | .error e => Admitted sv i fuel w (k (.error e))

/-- A test that every commit of the program, run by itself, passes. -/
def Prog.admittedBy (sv : Service ι W σ ω ε ρ χ υ τ α) (test : W → Commit ι σ ω ε ρ → Bool) (i : ι) :
    Nat → W → Prog σ ω ε ρ χ υ α → Bool
  | 0, _, _ => true
  | _ + 1, _, .done _ => true
  | _ + 1, _, .call _ _ => true
  | fuel + 1, w, .query k => admittedBy sv test i fuel w (k (.ok (sv.db w)))
  | fuel + 1, w, .transaction body k =>
    match body.alone (sv.db w) [] with
    | .ok (r, ws) => test w ⟨i, body, ws, r⟩ &&
        admittedBy sv test i fuel (sv.commit w ⟨i, body, ws, r⟩) (k (.ok r))
    | .error e => admittedBy sv test i fuel w (k (.error e))

variable {s : Sys ι W σ ω ε ρ χ υ τ α} {i : ι}

/-- A test that only admitted commits pass. -/
lemma Prog.admitted_of_test {sv : Service ι W σ ω ε ρ χ υ τ α} {test : W → Commit ι σ ω ε ρ → Bool}
    (htest : ∀ w c, test w c = true → sv.admits w (soloPending c.thread c.writes) c) {fuel : Nat} {w : W}
    {p : Prog σ ω ε ρ χ υ α} (h : p.admittedBy sv test i fuel w = true) : p.Admitted sv i fuel w := by
  induction fuel generalizing w p with
  | zero => trivial
  | succ fuel ih =>
    cases p with
    | done r => trivial
    | call q k => trivial
    | query k => exact ih h
    | transaction body k =>
      simp only [Prog.admittedBy] at h
      simp only [Prog.Admitted]
      split at h
      · rw [Bool.and_eq_true] at h
        exact ⟨htest _ _ h.1, ih h.2⟩
      · exact ih h

section Invariant

variable {sv : Service ι W σ ω ε ρ χ υ τ α} {I : W → Prop}

omit [DecidableEq ι] in
/-- What the commits of a thread keep holds after it ran by itself. -/
lemma Prog.drive_invariant (hI : ∀ w c, I w → c.thread = i → I (sv.commit w c)) (fuel : Nat) {w : W}
    (h : I w) (p : Prog σ ω ε ρ χ υ α) : I (p.drive sv i fuel w).1 := by
  induction fuel generalizing w p with
  | zero => exact h
  | succ fuel ih =>
    cases p with
    | done r => exact h
    | call q k => exact h
    | query k => exact ih h _
    | transaction body k =>
      simp only [Prog.drive]
      split
      · exact ih (hI _ _ h rfl) _
      · exact ih h _

/-- Commits are admitted when what they keep makes them so. -/
lemma Prog.admitted_of_invariant (hI : ∀ w c, I w → c.thread = i → I (sv.commit w c))
    (hadm : ∀ w c, I w → c.thread = i → sv.admits w (soloPending c.thread c.writes) c) (fuel : Nat) {w : W} (h : I w)
    (p : Prog σ ω ε ρ χ υ α) : p.Admitted sv i fuel w := by
  induction fuel generalizing w p with
  | zero => trivial
  | succ fuel ih =>
    cases p with
    | done r => trivial
    | call q k => trivial
    | query k => exact ih h _
    | transaction body k =>
      simp only [Prog.Admitted]
      split
      · exact ⟨hadm w ⟨i, body, _, _⟩ h rfl, ih (hI _ _ h rfl) _⟩
      · exact ih h _

end Invariant

omit [DecidableEq ι] in
lemma Sys.Quiet.init (w : W) : (Sys.init w : Sys ι W σ ω ε ρ χ υ τ α).Quiet := fun _ => rfl

lemma Sys.Quiet.set (h : s.Quiet) {t : Thread σ ω ε ρ χ υ τ α} (ht : t.pending = []) (w : W) :
    (s.set i t w).Quiet := by
  intro j
  by_cases hj : j = i
  · subst hj
    rw [Sys.set_threads_self, ht]
  · rw [Sys.set_threads_ne s hj, h j]

omit [Store σ ω κ] in
lemma Sys.set_set (s : Sys ι W σ ω ε ρ χ υ τ α) (i : ι) (t t' : Thread σ ω ε ρ χ υ τ α) (w w' : W) :
    (s.set i t w).set i t' w' = s.set i t' w' := by
  simp [Sys.set]

omit [Store σ ω κ] in
/-- A thread is alone in a transaction when no other is in one. -/
lemma Sys.Quiet.pending_eq (hq : s.Quiet) (i : ι) (body rest : Tx σ ω ε ρ) (ws : List ω)
    (k : Except ε ρ → Prog σ ω ε ρ χ υ α) (w : W) :
    (s.set i (.inTx body rest ws k) w).pending = soloPending i ws := by
  funext j
  by_cases hj : j = i
  · subst hj
    simp [Sys.pending, soloPending, Thread.pending]
  · rw [Sys.pending, Sys.set_threads_ne s hj, hq j, soloPending, Function.update_of_ne hj]

variable (sv : Service ι W σ ω ε ρ χ υ τ α)

/-- The body of a transaction in a state in which no other transaction is open. -/
lemma reaches_alone (body rest : Tx σ ω ε ρ) (p : List ω) (k : Except ε ρ → Prog σ ω ε ρ χ υ α)
    (w : W) (hq : ∀ j, j ≠ i → (s.threads j).pending = []) :
    match rest.alone (sv.db w) p with
    | .ok (r, ws) =>
      Reaches sv (s.set i (.inTx body rest p k) w) (s.set i (.inTx body (.ret r) ws k) w)
    | .error e => Reaches sv (s.set i (.inTx body rest p k) w) (s.set i (.run (k (.error e))) w) := by
  induction rest generalizing p with
  | ret r => exact .refl
  | abort e =>
    have hi := Sys.set_threads_self s i (.inTx body (.abort e) p k) w
    have hstep : Step sv _ _ := .abort hi
    rw [Sys.set_set] at hstep
    exact .single hstep
  | stmt run next ih =>
    have hi := Sys.set_threads_self s i (.inTx body (.stmt run next) p k) w
    simp only [Tx.alone]
    cases hrun : run (view (sv.db w) p) with
    | error e =>
      have hstep : Step sv _ _ := .stmtFail hi hrun
      rw [Sys.set_set] at hstep
      exact .single hstep
    | ok ws =>
      have hfree : (s.set i (.inTx body (.stmt run next) p k) w).Free i ws := by
        intro j hj
        rw [Sys.set_threads_ne s hj, hq j hj]
        simp [locksOf]
      have hstep : Step sv _ _ := .stmt hi hrun hfree
      rw [Sys.set_set] at hstep
      have hrest := ih (view (sv.db w) p) (p ++ ws)
      revert hrest
      simp only
      split
      · exact fun hrest => .head hstep hrest
      · exact fun hrest => .head hstep hrest

/-- Running a thread by itself is a run of the machine. -/
lemma Sys.Quiet.drive (hq : s.Quiet) (fuel : Nat) (i : ι) (w : W) (p : Prog σ ω ε ρ χ υ α)
    (hadm : p.Admitted sv i fuel w) :
    Reaches sv (s.set i (.run p) w)
      (s.set i (.run (p.drive sv i fuel w).2) (p.drive sv i fuel w).1) := by
  induction fuel generalizing w p with
  | zero => exact .refl
  | succ fuel ih =>
    have hi := Sys.set_threads_self s i (.run p) w
    cases p with
    | done r => exact .refl
    | call q k => exact .refl
    | query k =>
      have hstep : Step sv _ _ := .query hi
      rw [Sys.set_set] at hstep
      exact .head hstep (ih _ _ hadm)
    | transaction body k =>
      have hbegin : Step sv _ _ := .begin hi
      rw [Sys.set_set] at hbegin
      have hbody := reaches_alone sv body body [] k w fun j (_ : j ≠ i) => hq j
      refine .head hbegin ?_
      simp only [Prog.drive, Sys.set_world]
      simp only [Prog.Admitted] at hadm
      revert hadm hbody
      cases body.alone (sv.db w) [] with
      | error e => exact fun hadm hbody => hbody.trans (ih _ _ hadm)
      | ok r =>
        obtain ⟨r, ws⟩ := r
        intro hadm hbody
        have hcommit : Step sv _ _ :=
          .commit (Sys.set_threads_self s i (.inTx body (.ret r) ws k) w)
            ((hq.pending_eq i body (.ret r) ws k w).symm ▸ hadm.1)
        rw [Sys.set_set] at hcommit
        exact hbody.trans (.head hcommit (ih _ _ hadm.2))

/-- The state after thread `i` started `p`, moving the world to `w`, and ran by itself. -/
def Sys.serve (fuel : Nat) (s : Sys ι W σ ω ε ρ χ υ τ α) (i : ι)
    (p : Prog σ ω ε ρ χ υ α) (w : W) : Sys ι W σ ω ε ρ χ υ τ α :=
  s.set i (.run (p.drive sv i fuel w).2) (p.drive sv i fuel w).1

/-- Serving a fresh thread is a run of the machine. -/
lemma Sys.Quiet.serve (hq : s.Quiet) (fuel : Nat) (i : ι) (p : Prog σ ω ε ρ χ υ α) (w : W)
    (hadm : p.Admitted sv i fuel w) (hi : s.threads i = .idle) (hs : sv.starts s.world i p w) :
    Reaches sv s (s.serve sv fuel i p w) ∧ (s.serve sv fuel i p w).Quiet :=
  ⟨.head (.start hi hs) (hq.drive sv fuel i w p hadm), hq.set rfl _⟩

/-- A request, its answer, and the run up to the next request are a run of the machine. -/
lemma Sys.Quiet.answered (hq : s.Quiet) (fuel : Nat) {q : χ} {t : τ} {u : υ}
    {k : υ → Prog σ ω ε ρ χ υ α} {w : W} (hi : s.threads i = .run (.call q k))
    (hissue : sv.issue s.world i q t w) (hanswer : sv.answer w i q t u)
    (hadm : (k u).Admitted sv i fuel w) :
    Reaches sv s (s.serve sv fuel i (k u) w) ∧ (s.serve sv fuel i (k u) w).Quiet := by
  have hstep : Step sv _ _ := .answer (Sys.set_threads_self s i (.waiting q t k) w) hanswer
  rw [Sys.set_set] at hstep
  exact ⟨.head (.issue hi hissue) (.head hstep (hq.drive sv fuel i w (k u) hadm)), hq.set rfl _⟩

/-- The program after at most `fuel` queries, while nobody commits. -/
def Prog.reads (c : σ) : Nat → Prog σ ω ε ρ χ υ α → Prog σ ω ε ρ χ υ α
  | fuel + 1, .query k => reads c fuel (k (.ok c))
  | _, p => p

/-- Queries wait for nobody. -/
lemma reaches_reads (fuel : Nat) (p : Prog σ ω ε ρ χ υ α) (w : W) :
    Reaches sv (s.set i (.run p) w) (s.set i (.run (p.reads (sv.db w) fuel)) w) := by
  induction fuel generalizing p with
  | zero => exact .refl
  | succ fuel ih =>
    cases p with
    | query k =>
      have hstep : Step sv _ _ := .query (Sys.set_threads_self s i (.run (.query k)) w)
      rw [Sys.set_set] at hstep
      exact .head hstep (ih _)
    | _ => exact .refl

/-- The program after its next queries, each of which sees the next of the given contents. -/
def Prog.along : List σ → Prog σ ω ε ρ χ υ α → Prog σ ω ε ρ χ υ α
  | c :: contents, .query k => along contents (k (.ok c))
  | _, p => p

omit [Store σ ω κ] in
@[simp]
lemma Prog.along_nil (p : Prog σ ω ε ρ χ υ α) : p.along [] = p := by
  cases p <;> rfl

omit [Store σ ω κ] in
@[simp]
lemma Prog.along_bind_read {β : Type} (c : σ) (contents : List σ) (f : σ → β)
    (g : β → Prog σ ω ε ρ χ υ α) :
    ((Prog.read f).bind g).along (c :: contents) = (g (f c)).along contents := rfl

omit [Store σ ω κ] in
@[simp]
lemma Prog.reads_bind_read {β : Type} (c : σ) (fuel : Nat) (f : σ → β)
    (g : β → Prog σ ω ε ρ χ υ α) :
    ((Prog.read f).bind g).reads c (fuel + 1) = (g (f c)).reads c fuel := rfl

omit [Store σ ω κ] in
/-- A program whose queries lead to a transaction goes on with its handler after it. -/
lemma Prog.reads_attempt {β : Type} {c : σ} {fuel : Nat} {p : Prog σ ω ε ρ χ υ β}
    {body : Tx σ ω ε ρ} {k : Except ε ρ → Prog σ ω ε ρ χ υ β}
    (h : p.reads c fuel = .transaction body k) (f : Except ε β → Prog σ ω ε ρ χ υ α) :
    (p.attempt f).reads c fuel = .transaction body fun r => (k r).attempt f := by
  induction fuel generalizing p with
  | zero =>
    cases p with
    | transaction =>
      obtain ⟨rfl, rfl⟩ := Prog.transaction.inj h
      rfl
    | _ => cases h
  | succ fuel ih =>
    cases p with
    | query q => exact ih h
    | transaction =>
      obtain ⟨rfl, rfl⟩ := Prog.transaction.inj h
      rfl
    | _ => cases h

/-! ### Single steps -/

section Tick

variable [DecidableEq κ]

/-- The next step of thread `i`, when only the threads `ids` are in a transaction. -/
def Sys.tick (ids : List ι) (s : Sys ι W σ ω ε ρ χ υ τ α) (i : ι) :
    Option (Sys ι W σ ω ε ρ χ υ τ α) :=
  match s.threads i with
  | .run (.query k) => some (s.set i (.run (k (.ok (sv.db s.world)))) s.world)
  | .run (.transaction body k) => some (s.set i (.inTx body body [] k) s.world)
  | .inTx body (.stmt run next) p k =>
    match run (view (sv.db s.world) p) with
    | .error e => some (s.set i (.run (k (.error e))) s.world)
    | .ok ws =>
      if ∀ j ∈ ids, j ≠ i → ∀ lock ∈ locksOf (σ := σ) (s.threads j).pending,
          lock ∉ locksOf (σ := σ) ws then
        some (s.set i (.inTx body (next (view (sv.db s.world) p)) (p ++ ws) k) s.world)
      else none
  | .inTx _ (.abort e) _ k => some (s.set i (.run (k (.error e))) s.world)
  | .inTx body (.ret r) p k =>
    some (s.set i (.run (k (.ok r))) (sv.commit s.world ⟨i, body, p, r⟩))
  | _ => none

/-- Only the threads `ids` are in a transaction. -/
def Sys.QuietBut (ids : List ι) (s : Sys ι W σ ω ε ρ χ υ τ α) : Prop :=
  ∀ j, j ∉ ids → (s.threads j).pending = []

omit [DecidableEq κ] [Store σ ω κ] in
lemma Sys.QuietBut.set {ids : List ι} (h : s.QuietBut ids) (hi : i ∈ ids)
    (t : Thread σ ω ε ρ χ υ τ α) (w : W) : (s.set i t w).QuietBut ids := by
  intro j hj
  have hne : j ≠ i := fun heq => hj (heq ▸ hi)
  rw [Sys.set_threads_ne s hne]
  exact h j hj

variable {sv}

/-- A single step is one of the machine when every commit is admitted. -/
lemma Sys.QuietBut.tick {ids : List ι} {s' : Sys ι W σ ω ε ρ χ υ τ α} (hq : s.QuietBut ids)
    (hi : i ∈ ids) (hadm : ∀ w pending c, sv.admits w pending c) (h : s.tick sv ids i = some s') :
    Reaches sv s s' ∧ s'.QuietBut ids := by
  unfold Sys.tick at h
  split at h
  · next k ht =>
    obtain rfl := Option.some.inj h
    exact ⟨.single (.query ht), hq.set hi _ _⟩
  · next body k ht =>
    obtain rfl := Option.some.inj h
    exact ⟨.single (.begin ht), hq.set hi _ _⟩
  · next body run next p k ht =>
    split at h
    · next e hrun =>
      obtain rfl := Option.some.inj h
      exact ⟨.single (.stmtFail ht hrun), hq.set hi _ _⟩
    · next ws hrun =>
      split at h
      · next hlocks =>
        obtain rfl := Option.some.inj h
        have hfree : s.Free i ws := by
          intro j hj lock hlock
          by_cases hin : j ∈ ids
          · exact hlocks j hin hj lock hlock
          · rw [hq j hin] at hlock
            cases hlock
        exact ⟨.single (.stmt ht hrun hfree), hq.set hi _ _⟩
      · cases h
  · next body e p k ht =>
    obtain rfl := Option.some.inj h
    exact ⟨.single (.abort ht), hq.set hi _ _⟩
  · next body r p k ht =>
    obtain rfl := Option.some.inj h
    exact ⟨.single (.commit ht (hadm _ _ _)), hq.set hi _ _⟩
  · cases h

variable (sv) in
/-- The steps of some threads in this order. -/
def Sys.ticks (ids : List ι) : List ι → Sys ι W σ ω ε ρ χ υ τ α → Option (Sys ι W σ ω ε ρ χ υ τ α)
  | [], s => some s
  | i :: order, s =>
    match s.tick sv ids i with
    | some s' => Sys.ticks ids order s'
    | none => none

lemma Sys.QuietBut.ticks {ids order : List ι} {s' : Sys ι W σ ω ε ρ χ υ τ α} (hq : s.QuietBut ids)
    (hids : ∀ i ∈ order, i ∈ ids) (hadm : ∀ w pending c, sv.admits w pending c)
    (h : s.ticks sv ids order = some s') : Reaches sv s s' := by
  induction order generalizing s with
  | nil => exact Option.some.inj h ▸ .refl
  | cons i order ih =>
    simp only [Sys.ticks] at h
    split at h
    · next s₁ hs₁ =>
      obtain ⟨hreach, hq₁⟩ := hq.tick (hids i List.mem_cons_self) hadm hs₁
      exact hreach.trans (ih hq₁ (fun j hj => hids j (List.mem_cons_of_mem _ hj)) h)
    · cases h

end Tick

end Transactions
