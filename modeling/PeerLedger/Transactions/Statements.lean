import PeerLedger.Transactions.Executions

/-!
# What the statements of programs write

`Tx.Obeys R` says that every statement of a body writes only what `R` allows in what the statement
sees.  This is a property of the text of a program, whatever its surroundings do; so is `Prog.Publishes P`,
that its transactions publish only what `P` allows.

A constraint on the contents that every statement checks, and whose entries an uncommitted write
occupies, holds of what is committed at every time (`Sys.constrained`): this is how a unique index
works.  `Sys.firstRead` goes back from an open transaction to the moment of its first statement.
-/

namespace Transactions

variable {ι W σ ω κ ε ρ χ υ τ α β : Type}

/-! ### Statements that obey -/

/-- Every statement of the body writes what `R` allows in what it sees. -/
def Tx.Obeys (R : σ → List ω → Prop) : Tx σ ω ε α → Prop
  | .ret _ => True
  | .abort _ => True
  | .stmt run next => ∀ v, (∀ ws, run v = .ok ws → R v ws) ∧ (next v).Obeys R

/-- Every statement of the program writes what `R` allows in what it sees. -/
def Prog.Obeys (R : σ → List ω → Prop) : Prog σ ω ε ρ χ υ α → Prop
  | .done _ => True
  | .query k => ∀ v, (k v).Obeys R
  | .transaction body k => body.Obeys R ∧ ∀ r, (k r).Obeys R
  | .call _ k => ∀ u, (k u).Obeys R

/-- Every statement that the thread still has to run writes what `R` allows in what it sees. -/
def Thread.Obeys (R : σ → List ω → Prop) : Thread σ ω ε ρ χ υ τ α → Prop
  | .idle => True
  | .dead => True
  | .run p => p.Obeys R
  | .inTx _ rest _ k => rest.Obeys R ∧ ∀ r, (k r).Obeys R
  | .waiting _ _ k => ∀ u, (k u).Obeys R

variable {R R' : σ → List ω → Prop}

namespace Tx

lemma Obeys.bind {x : Tx σ ω ε α} {f : α → Tx σ ω ε β} (hx : x.Obeys R) (hf : ∀ a, (f a).Obeys R) :
    (x.bind f).Obeys R := by
  induction x with
  | ret a => exact hf a
  | abort e => trivial
  | stmt run next ih => exact fun v => ⟨(hx v).1, ih v (hx v).2⟩

lemma Obeys.mono {x : Tx σ ω ε α} (hR : ∀ v ws, R v ws → R' v ws) (hx : x.Obeys R) : x.Obeys R' := by
  induction x with
  | ret a => trivial
  | abort e => trivial
  | stmt run next ih => exact fun v => ⟨fun ws hws => hR v ws ((hx v).1 ws hws), ih v (hx v).2⟩

lemma obeys_query (f : σ → α) (hR : ∀ v, R v []) : (query f : Tx σ ω ε α).Obeys R :=
  fun v => ⟨fun _ hws => Except.ok.inj hws ▸ hR v, trivial⟩

lemma obeys_write {f : σ → Except ε (List ω)} (hf : ∀ v ws, f v = .ok ws → R v ws) :
    (write f : Tx σ ω ε Unit).Obeys R :=
  fun v => ⟨hf v, trivial⟩

lemma obeys_ofExcept (x : Except ε α) : (ofExcept x : Tx σ ω ε α).Obeys R := by
  cases x <;> trivial

/-- What a body publishes is what its statements write. -/
lemma Obeys.returns [Store σ ω κ] {P : ω → Prop} {x : Tx σ ω ε α} {p q : List ω} {a : α}
    (hx : x.Obeys fun _ ws => ∀ y ∈ ws, P y) (h : x.Returns p a q) (hp : ∀ y ∈ p, P y) :
    ∀ y ∈ q, P y := by
  induction h with
  | ret => exact hp
  | @stmt run next p ws a q c hrun _ ih =>
    refine ih (hx _).2 fun y hy => ?_
    rcases List.mem_append.mp hy with hy | hy
    · exact hp y hy
    · exact (hx _).1 ws hrun y hy

end Tx

namespace Prog

lemma Obeys.attempt {x : Prog σ ω ε ρ χ υ α} {f : Except ε α → Prog σ ω ε ρ χ υ β} (hx : x.Obeys R)
    (hf : ∀ r, (f r).Obeys R) : (x.attempt f).Obeys R := by
  induction x with
  | done r => exact hf r
  | query k ih => exact fun v => ih v (hx v)
  | transaction body k ih => exact ⟨hx.1, fun r => ih r (hx.2 r)⟩
  | call q k ih => exact fun u => ih u (hx u)

lemma Obeys.bind {x : Prog σ ω ε ρ χ υ α} {f : α → Prog σ ω ε ρ χ υ β} (hx : x.Obeys R)
    (hf : ∀ a, (f a).Obeys R) : (x.bind f).Obeys R := by
  refine hx.attempt fun r => ?_
  cases r with
  | ok a => exact hf a
  | error e => trivial

lemma obeys_read (f : σ → α) : (read f : Prog σ ω ε ρ χ υ α).Obeys R := fun _ => trivial

lemma obeys_run {body : Tx σ ω ε ρ} (h : body.Obeys R) : (run body : Prog σ ω ε ρ χ υ ρ).Obeys R :=
  ⟨h, fun _ => trivial⟩

lemma Obeys.mono {x : Prog σ ω ε ρ χ υ α} (hR : ∀ v ws, R v ws → R' v ws) (hx : x.Obeys R) :
    x.Obeys R' := by
  induction x with
  | done r => trivial
  | query k ih => exact fun v => ih v (hx v)
  | transaction body k ih => exact ⟨hx.1.mono hR, fun r => ih r (hx.2 r)⟩
  | call q k ih => exact fun u => ih u (hx u)

/-- A program goes on obeying. -/
lemma Obeys.exec [Store σ ω κ] {p p' : Prog σ ω ε ρ χ υ α} {acts : List (Act σ ω ε ρ χ υ)}
    (h : p.Obeys R) (hexec : p.Exec acts p') : p'.Obeys R := by
  induction hexec with
  | refl => exact h
  | query _ ih => exact ih (h _)
  | transaction _ _ ih => exact ih (h.2 _)
  | call _ ih => exact ih (h _)

end Prog

/-! ### What programs publish -/

/-- Every transaction of the program that reaches its end publishes what `P` allows. -/
def Prog.Publishes [Store σ ω κ] (P : List ω → Prop) : Prog σ ω ε ρ χ υ α → Prop
  | .done _ => True
  | .query k => ∀ v, (k v).Publishes P
  | .transaction body k => (∀ r q, body.Returns [] r q → P q) ∧ ∀ r, (k r).Publishes P
  | .call _ k => ∀ u, (k u).Publishes P

/-- Every transaction of the thread that reaches its end publishes what `P` allows. -/
def Thread.Publishes [Store σ ω κ] (P : List ω → Prop) : Thread σ ω ε ρ χ υ τ α → Prop
  | .idle => True
  | .dead => True
  | .run p => p.Publishes P
  | .inTx _ rest p k => (∀ r q, rest.Returns p r q → P q) ∧ ∀ r, (k r).Publishes P
  | .waiting _ _ k => ∀ u, (k u).Publishes P

section Publishes

variable [DecidableEq ι] [Store σ ω κ] {sv : Service ι W σ ω ε ρ χ υ τ α}
  {s s' : Sys ι W σ ω ε ρ χ υ τ α} {P : List ω → Prop}

omit [DecidableEq ι] in
/-- What a thread is about to commit is allowed. -/
lemma Thread.Publishes.commit {i : ι} {body : Tx σ ω ε ρ} {r : ρ} {p : List ω}
    {k : Except ε ρ → Prog σ ω ε ρ χ υ α} (h : (s.threads i).Publishes P)
    (hi : s.threads i = .inTx body (.ret r) p k) : P p := by
  rw [hi] at h
  exact h.1 r p (.ret r p)

/-- Programs go on publishing what is allowed. -/
lemma Sys.publishes_step (hstarts : ∀ w i p w', sv.starts w i p w' → p.Publishes P)
    (h : ∀ i, (s.threads i).Publishes P) (hs : Step sv s s') :
    ∀ i, (s'.threads i).Publishes P := by
  have hset : ∀ i t w, t.Publishes P → ∀ j, ((s.set i t w).threads j).Publishes P := by
    intro i t w ht j
    by_cases hj : j = i
    · subst hj
      rwa [Sys.set_threads_self]
    · rw [Sys.set_threads_ne s hj]
      exact h j
  have hthread : ∀ {i t}, s.threads i = t → t.Publishes P := fun {i _} hi => hi ▸ h i
  cases hs with
  | start hi hst => exact hset _ _ _ (hstarts _ _ _ _ hst)
  | query hi => exact hset _ _ _ (hthread hi _)
  | queryFail hi he => exact hset _ _ _ (hthread hi _)
  | begin hi =>
    have hp := hthread hi
    exact hset _ _ _ hp
  | stmt hi hrun hfree =>
    obtain ⟨hrest, hk⟩ := hthread hi
    exact hset _ _ _ ⟨fun r q hq => hrest r q (.stmt _ hrun hq), hk⟩
  | stmtFail hi hrun => exact hset _ _ _ ((hthread hi).2 _)
  | abort hi => exact hset _ _ _ ((hthread hi).2 _)
  | fail hi he => exact hset _ _ _ ((hthread hi).2 _)
  | commit hi ha => exact hset _ _ _ ((hthread hi).2 _)
  | issue hi hq =>
    have hk := hthread hi
    exact hset _ _ _ hk
  | answer hi hu => exact hset _ _ _ (hthread hi _)
  | crash => exact hset _ _ _ trivial
  | env he => exact h

end Publishes

/-! ### Constraints -/

section Constraints

variable [DecidableEq ι] [Store σ ω κ] {sv : Service ι W σ ω ε ρ χ υ τ α}
  {s s' : Sys ι W σ ω ε ρ χ υ τ α}

/-- What a constraint looks at changes by commits only. -/
structure Service.OnlyCommits (sv : Service ι W σ ω ε ρ χ υ τ α) (I : σ → Prop) : Prop where
  commit : ∀ w c (p : List ω), I (view (view (sv.db w) c.writes) p) →
    I (view (sv.db (sv.commit w c)) p)
  issue : ∀ w i q t w' (p : List ω), sv.issue w i q t w' → I (view (sv.db w) p) →
    I (view (sv.db w') p)
  starts : ∀ w i b w' (p : List ω), sv.starts w i b w' → I (view (sv.db w) p) →
    I (view (sv.db w') p)
  env : ∀ w w' (p : List ω), sv.env w w' → I (view (sv.db w) p) → I (view (sv.db w') p)

/-- A constraint that every statement checks, and that transactions with disjoint locks can only break
by themselves. -/
structure Guarded (I : σ → Prop) (R : σ → List ω → Prop) : Prop where
  stmt : ∀ v ws, I v → R v ws → I (view v ws)
  merge : ∀ (c : σ) (p q : List ω), I (view c p) → I (view c q) →
    List.Disjoint (locksOf (σ := σ) q) (locksOf (σ := σ) p) → I (view (view c q) p)

/-- Programs that obey go on obeying. -/
lemma Sys.obeys_step (hstarts : ∀ w i p w', sv.starts w i p w' → p.Obeys R)
    (h : ∀ i, (s.threads i).Obeys R) (hs : Step sv s s') : ∀ i, (s'.threads i).Obeys R := by
  have hset : ∀ i t w, t.Obeys R → ∀ j, ((s.set i t w).threads j).Obeys R := by
    intro i t w ht j
    by_cases hj : j = i
    · subst hj
      rwa [Sys.set_threads_self]
    · rw [Sys.set_threads_ne s hj]
      exact h j
  cases hs with
  | start hi hst => exact hset _ _ _ (hstarts _ _ _ _ hst)
  | @query i k hi =>
    have hk := h i
    rw [hi] at hk
    exact hset _ _ _ (hk _)
  | @queryFail i k e hi _ =>
    have hk := h i
    rw [hi] at hk
    exact hset _ _ _ (hk _)
  | @begin i body k hi =>
    have hk := h i
    rw [hi] at hk
    exact hset _ _ _ hk
  | @stmt i body run next p k ws hi _ _ =>
    have hk := h i
    rw [hi] at hk
    exact hset _ _ _ ⟨(hk.1 _).2, hk.2⟩
  | @stmtFail i body run next p k e hi _ =>
    have hk := h i
    rw [hi] at hk
    exact hset _ _ _ (hk.2 _)
  | @abort i body e p k hi =>
    have hk := h i
    rw [hi] at hk
    exact hset _ _ _ (hk.2 _)
  | @fail i body rest p k e hi _ =>
    have hk := h i
    rw [hi] at hk
    exact hset _ _ _ (hk.2 _)
  | @commit i body r p k hi _ =>
    have hk := h i
    rw [hi] at hk
    exact hset _ _ _ (hk.2 _)
  | @issue i q k t w' hi _ =>
    have hk := h i
    rw [hi] at hk
    exact hset _ _ _ hk
  | @answer i q t k u hi _ =>
    have hk := h i
    rw [hi] at hk
    exact hset _ _ _ (hk _)
  | crash => exact hset _ _ _ trivial
  | env => exact h

/-- The constraint holds of what is committed, and of what each transaction sees. -/
def Sys.Constrained (sv : Service ι W σ ω ε ρ χ υ τ α) (I : σ → Prop)
    (s : Sys ι W σ ω ε ρ χ υ τ α) : Prop :=
  I (sv.db s.world) ∧ ∀ i, I (view (sv.db s.world) (s.threads i).pending)

omit [DecidableEq ι] in
/-- The constraint in another world that looks the same to it. -/
lemma Sys.Constrained.world {I : σ → Prop} {sv' : Service ι W σ ω ε ρ χ υ τ α}
    (h : s.Constrained sv I) {w : W}
    (hw : ∀ p : List ω, I (view (sv.db s.world) p) → I (view (sv'.db w) p)) :
    Sys.Constrained sv' I ⟨w, s.threads⟩ :=
  ⟨hw [] h.1, fun i => hw _ (h.2 i)⟩

/-- A step of one thread that leaves the contents alone. -/
lemma Sys.Constrained.set {I : σ → Prop} (h : s.Constrained sv I) {i : ι}
    {t : Thread σ ω ε ρ χ υ τ α} {w : W}
    (hw : ∀ p : List ω, I (view (sv.db s.world) p) → I (view (sv.db w) p))
    (ht : I (view (sv.db s.world) t.pending)) : (s.set i t w).Constrained sv I := by
  refine ⟨hw [] h.1, fun j => ?_⟩
  rw [Sys.set_world]
  by_cases hj : j = i
  · subst hj
    rw [Sys.set_threads_self]
    exact hw _ ht
  · rw [Sys.set_threads_ne s hj]
    exact hw _ (h.2 j)

lemma Sys.Constrained.step {I : σ → Prop} (hI : Guarded I R) (hsv : sv.OnlyCommits I)
    (hobeys : ∀ i, (s.threads i).Obeys R) (hapart : s.Apart) (h : s.Constrained sv I)
    (hs : Step sv s s') : s'.Constrained sv I := by
  cases hs with
  | start _ hst => exact h.set (fun p => hsv.starts _ _ _ _ p hst) h.1
  | @stmt i body run next p k ws hi hrun _ =>
    have hrest := hobeys i
    have hp := h.2 i
    rw [hi] at hrest hp
    refine h.set (fun _ hc => hc) ?_
    have hadd := hI.stmt _ _ hp ((hrest.1 _).1 ws hrun)
    rwa [← view_append] at hadd
  | @commit i body r p k hi _ =>
    have hp := h.2 i
    rw [hi] at hp
    refine ⟨hsv.commit _ _ [] hp, fun j => ?_⟩
    rw [Sys.set_world]
    refine hsv.commit _ _ _ ?_
    by_cases hj : j = i
    · subst hj
      rw [Sys.set_threads_self]
      exact hp
    · rw [Sys.set_threads_ne s hj]
      have hdisjoint := hapart i j (Ne.symm hj)
      rw [hi] at hdisjoint
      exact hI.merge _ _ _ (h.2 j) hp hdisjoint
  | issue _ hq => exact h.set (fun p => hsv.issue _ _ _ _ _ p hq) h.1
  | env he => exact h.world fun p => hsv.env _ _ p he
  | _ => exact h.set (fun _ hc => hc) h.1

/-- A constraint that the statements check holds at every time. -/
theorem Sys.constrained {I : σ → Prop} {w : W} (hI : Guarded I R) (hsv : sv.OnlyCommits I)
    (hstarts : ∀ w i p w', sv.starts w i p w' → p.Obeys R) (hw : I (sv.db w))
    (hs : Reaches sv (Sys.init w) s) : s.Constrained sv I := by
  suffices h : (∀ i, (s.threads i).Obeys R) ∧ s.Apart ∧ s.Constrained sv I from h.2.2
  induction hs with
  | refl =>
    refine ⟨fun _ => trivial, fun i j _ => ?_, hw, fun _ => hw⟩
    simp [Sys.init, Thread.pending, locksOf]
  | tail _ hstep ih =>
    obtain ⟨hobeys, hapart, hc⟩ := ih
    exact ⟨Sys.obeys_step hstarts hobeys hstep, hapart.step hstep,
      hc.step hI hsv hobeys hapart hstep⟩

end Constraints

/-! ### The first statement of a transaction -/

section FirstRead

variable [DecidableEq ι] [Store σ ω κ] {sv : Service ι W σ ω ε ρ χ υ τ α}
  {s₀ s s' : Sys ι W σ ω ε ρ χ υ τ α} {i : ι} {body rest : Tx σ ω ε ρ} {p : List ω}
  {k : Except ε ρ → Prog σ ω ε ρ χ υ α}

/-- How a thread has come to its place in a transaction: it was there, or has just begun the
transaction, or has just run a statement. -/
lemma Step.inTx_cases (hs : Step sv s s') (hi : s'.threads i = .inTx body rest p k) :
    s.threads i = .inTx body rest p k ∨
    (s.threads i = .run (.transaction body k) ∧ rest = body ∧ p = []) ∨
    ∃ run next p₀ ws, s.threads i = .inTx body (.stmt run next) p₀ k ∧
      run (view (sv.db s.world) p₀) = .ok ws ∧ rest = next (view (sv.db s.world) p₀) ∧
      p = p₀ ++ ws ∧ s' = s.set i (.inTx body rest p k) s.world := by
  by_cases hsame : s'.threads i = s.threads i
  · exact .inl (hsame ▸ hi)
  -- the step is one of thread `i`
  have hmoved : ∀ j t w, s' = s.set j t w → j = i ∧ t = .inTx body rest p k := by
    rintro j t w rfl
    by_cases hj : j = i
    · subst hj
      rw [Sys.set_threads_self] at hi
      exact ⟨rfl, hi⟩
    · exact absurd (Sys.set_threads_ne s (Ne.symm hj) t w) hsame
  cases hs with
  | begin hj =>
    obtain ⟨rfl, ht⟩ := hmoved _ _ _ rfl
    cases ht
    exact .inr (.inl ⟨hj, rfl, rfl⟩)
  | stmt hj hrun _ =>
    obtain ⟨rfl, ht⟩ := hmoved _ _ _ rfl
    cases ht
    exact .inr (.inr ⟨_, _, _, _, hj, hrun, rfl, rfl, rfl⟩)
  | env => exact absurd rfl hsame
  | _ => cases (hmoved _ _ _ rfl).2

/-- On the way from `s₀` to `s` thread `i` has begun `body` and run its first statement, which read
`c` and wrote `ws`. -/
def Sys.FirstRead (sv : Service ι W σ ω ε ρ χ υ τ α) (s₀ s : Sys ι W σ ω ε ρ χ υ τ α) (i : ι)
    (body : Tx σ ω ε ρ) (c : σ) (ws : List ω) : Prop :=
  ∃ s₁ run next k, body = .stmt run next ∧ Reaches sv s₀ s₁ ∧
    s₁.threads i = .inTx body body [] k ∧ sv.db s₁.world = c ∧ run c = .ok ws ∧
    Step sv s₁ (s₁.set i (.inTx body (next c) ws k) s₁.world) ∧
    Reaches sv (s₁.set i (.inTx body (next c) ws k) s₁.world) s

lemma Sys.FirstRead.step {c : σ} {ws : List ω} (h : Sys.FirstRead sv s₀ s i body c ws)
    (hs : Step sv s s') : Sys.FirstRead sv s₀ s' i body c ws := by
  obtain ⟨s₁, run, next, k, hbody, h₁, hi, hc, hrun, hstep, h₂⟩ := h
  exact ⟨s₁, run, next, k, hbody, h₁, hi, hc, hrun, hstep, h₂.tail hs⟩

/-- A transaction is at its first statement, or goes on from what that statement has read. -/
theorem Sys.firstRead {w : W} {run : σ → Except ε (List ω)} {next : σ → Tx σ ω ε ρ}
    (hs : Reaches sv (Sys.init w) s) (hi : s.threads i = .inTx (.stmt run next) rest p k) :
    (rest = .stmt run next ∧ p = []) ∨
    ∃ c ws, run c = .ok ws ∧ Sys.FirstRead sv (Sys.init w) s i (.stmt run next) c ws ∧
      ∀ a q, rest.Returns p a q → (next c).Returns ws a q := by
  induction hs generalizing rest p with
  | refl => cases hi
  | @tail s₁ s₂ hreach hstep ih =>
    rcases hstep.inTx_cases hi with hi₁ | ⟨-, hrest, hp⟩ |
      ⟨run', next', p₀, ws, hi₁, hrun, hrest, hp, hs₂⟩
    · refine (ih hi₁).imp_right ?_
      rintro ⟨c, ws, hrun, hread, hreturns⟩
      exact ⟨c, ws, hrun, hread.step hstep, hreturns⟩
    · exact .inl ⟨hrest, hp⟩
    · right
      rcases ih hi₁ with ⟨hfirst, rfl⟩ | ⟨c, ws₀, hrun₀, hread, hreturns⟩
      · obtain ⟨rfl, rfl⟩ := Tx.stmt.inj hfirst
        rw [view_nil] at hrun hrest
        rw [List.nil_append] at hp
        subst hrest hp hs₂
        exact ⟨_, _, hrun, ⟨s₁, _, _, k, rfl, hreach, hi₁, rfl, hrun, hstep, .refl⟩,
          fun _ _ h => h⟩
      · refine ⟨c, ws₀, hrun₀, hread.step hstep, fun a q h => hreturns a q ?_⟩
        rw [hrest, hp] at h
        exact .stmt _ hrun h

end FirstRead

end Transactions
