import PeerLedger.Transactions.Machine

/-!
# Executions of a single program

`Prog.Exec` runs one program in surroundings that may do anything: every statement sees any contents,
every transaction fails or ends as its body allows (`Tx.Returns`), and every request is answered with
anything.  Whatever the other threads of a service do, each thread is such an execution of the program
that it has started (`reaches_executes`).

Two programs that do the same in all executions agree (`Prog.Agree`), also when they differ in a part
that no execution gets to.
-/

namespace Transactions

variable {ι W σ ω κ ε ρ χ υ τ α β : Type} [Store σ ω κ]

/-! ### Transactions -/

namespace Tx

/-- With the pending writes `p`, the body can return `a` with the pending writes `q`, when anything
may be committed before each of its statements. -/
inductive Returns : Tx σ ω ε α → List ω → α → List ω → Prop
  | ret (a p) : Returns (.ret a) p a p
  | stmt {run next p ws a q} (c : σ) : run (view c p) = .ok ws →
      Returns (next (view c p)) (p ++ ws) a q → Returns (.stmt run next) p a q

/-- What a sequence returns is what its second part returns after the first. -/
lemma Returns.bind_cases {x : Tx σ ω ε α} {f : α → Tx σ ω ε β} {p q : List ω} {b : β}
    (h : (x.bind f).Returns p b q) : ∃ a p', x.Returns p a p' ∧ (f a).Returns p' b q := by
  induction x generalizing p with
  | ret a => exact ⟨a, p, .ret a p, h⟩
  | abort e => cases h
  | stmt run next ih =>
    cases h with
    | stmt c hrun hnext =>
      obtain ⟨a, p', ha, hb⟩ := ih _ hnext
      exact ⟨a, p', .stmt c hrun ha, hb⟩

lemma Returns.of_ret {a b : α} {p q : List ω} (h : (Tx.ret a : Tx σ ω ε α).Returns p b q) :
    b = a ∧ q = p := by
  cases h
  exact ⟨rfl, rfl⟩

lemma Returns.of_query {f : σ → α} {a : α} {p q : List ω}
    (h : (query f : Tx σ ω ε α).Returns p a q) : ∃ c, a = f (view c p) ∧ q = p := by
  unfold query at h
  cases h with
  | stmt c hrun hnext =>
    obtain ⟨rfl, rfl⟩ := hnext.of_ret
    refine ⟨c, rfl, ?_⟩
    rw [← Except.ok.inj hrun, List.append_nil]

lemma Returns.of_ofExcept {x : Except ε α} {a : α} {p q : List ω}
    (h : (ofExcept x : Tx σ ω ε α).Returns p a q) : x = .ok a ∧ q = p := by
  cases x with
  | ok b =>
    obtain ⟨rfl, rfl⟩ := h.of_ret
    exact ⟨rfl, rfl⟩
  | error e => cases h

/-- How a transaction can end: with any error, or as its body allows. -/
def Ends (body : Tx σ ω ε ρ) (r : Except ε ρ) : Prop :=
  ∀ a, r = .ok a → ∃ ws, body.Returns [] a ws

lemma ends_error (body : Tx σ ω ε ρ) (e : ε) : body.Ends (.error e) := fun _ h => nomatch h

end Tx

/-! ### Programs -/

/-- What a program has done in one step. -/
inductive Act (σ ω ε ρ χ υ : Type) where
  | query (v : Except ε σ)
  | transaction (body : Tx σ ω ε ρ) (r : Except ε ρ)
  | call (q : χ) (u : υ)

namespace Prog

/-- The program goes on with another one after some acts. -/
inductive Exec : Prog σ ω ε ρ χ υ α → List (Act σ ω ε ρ χ υ) → Prog σ ω ε ρ χ υ α → Prop
  | refl (p) : Exec p [] p
  | query {k v acts p} : Exec (k v) acts p → Exec (.query k) (.query v :: acts) p
  | transaction {body k r acts p} : body.Ends r → Exec (k r) acts p →
      Exec (.transaction body k) (.transaction body r :: acts) p
  | call {q k u acts p} : Exec (k u) acts p → Exec (.call q k) (.call q u :: acts) p

variable {x x' p p' : Prog σ ω ε ρ χ υ α} {f g : Except ε α → Prog σ ω ε ρ χ υ β}
  {acts acts' : List (Act σ ω ε ρ χ υ)}

lemma Exec.trans {q : Prog σ ω ε ρ χ υ α} (h : p.Exec acts p') (h' : p'.Exec acts' q) :
    p.Exec (acts ++ acts') q := by
  induction h with
  | refl => exact h'
  | query _ ih => exact .query (ih h')
  | transaction hr _ ih => exact .transaction hr (ih h')
  | call _ ih => exact .call (ih h')

/-- A program has one way to go on after some acts. -/
lemma Exec.unique {q : Prog σ ω ε ρ χ υ α} (h : p.Exec acts p') (h' : p.Exec acts q) : p' = q := by
  induction h with
  | refl =>
    cases h'
    rfl
  | query _ ih =>
    cases h' with
    | query h' => exact ih h'
  | transaction _ _ ih =>
    cases h' with
    | transaction _ h' => exact ih h'
  | call _ ih =>
    cases h' with
    | call h' => exact ih h'

/-- An execution goes on after its first acts. -/
lemma Exec.split {q : Prog σ ω ε ρ χ υ α} (h : p.Exec (acts ++ acts') q) :
    ∃ p', p.Exec acts p' ∧ p'.Exec acts' q := by
  induction acts generalizing p with
  | nil => exact ⟨p, .refl p, h⟩
  | cons act acts ih =>
    rw [List.cons_append] at h
    cases h with
    | query h =>
      obtain ⟨p', h1, h2⟩ := ih h
      exact ⟨p', .query h1, h2⟩
    | transaction hr h =>
      obtain ⟨p', h1, h2⟩ := ih h
      exact ⟨p', .transaction hr h1, h2⟩
    | call h =>
      obtain ⟨p', h1, h2⟩ := ih h
      exact ⟨p', .call h1, h2⟩

/-- A program that has ended does nothing more. -/
lemma Exec.of_done {r : Except ε α} (h : (Prog.done r : Prog σ ω ε ρ χ υ α).Exec acts p) :
    acts = [] ∧ p = .done r := by
  cases h
  exact ⟨rfl, rfl⟩

/-- An execution of the first part is one of the sequence. -/
lemma Exec.attempt (h : x.Exec acts x') (f : Except ε α → Prog σ ω ε ρ χ υ β) :
    (x.attempt f).Exec acts (x'.attempt f) := by
  induction h with
  | refl => exact .refl _
  | query _ ih => exact .query ih
  | transaction hr _ ih => exact .transaction hr ih
  | call _ ih => exact .call ih

/-- An execution of a sequence is still in its first part, or has left it. -/
lemma Exec.attempt_cases {q : Prog σ ω ε ρ χ υ β} (h : (x.attempt f).Exec acts q) :
    (∃ x', x.Exec acts x' ∧ q = x'.attempt f) ∨
      ∃ before after r, acts = before ++ after ∧ x.Exec before (.done r) ∧ (f r).Exec after q := by
  induction x generalizing acts with
  | done r => exact .inr ⟨[], acts, r, rfl, .refl _, h⟩
  | query k ih =>
    cases h with
    | refl => exact .inl ⟨_, .refl _, rfl⟩
    | query h =>
      rcases ih _ h with ⟨x', hx, hq⟩ | ⟨before, after, r, rfl, hx, hf⟩
      · exact .inl ⟨x', .query hx, hq⟩
      · exact .inr ⟨_ :: before, after, r, rfl, .query hx, hf⟩
  | transaction body k ih =>
    cases h with
    | refl => exact .inl ⟨_, .refl _, rfl⟩
    | transaction hr h =>
      rcases ih _ h with ⟨x', hx, hq⟩ | ⟨before, after, r, rfl, hx, hf⟩
      · exact .inl ⟨x', .transaction hr hx, hq⟩
      · exact .inr ⟨_ :: before, after, r, rfl, .transaction hr hx, hf⟩
  | call q k ih =>
    cases h with
    | refl => exact .inl ⟨_, .refl _, rfl⟩
    | call h =>
      rcases ih _ h with ⟨x', hx, hq⟩ | ⟨before, after, r, rfl, hx, hf⟩
      · exact .inl ⟨x', .call hx, hq⟩
      · exact .inr ⟨_ :: before, after, r, rfl, .call hx, hf⟩

/-- A transaction of a sequence is one of its first part, or one of the rest. -/
lemma Exec.attempt_transaction {body : Tx σ ω ε ρ} {k : Except ε ρ → Prog σ ω ε ρ χ υ β}
    (h : (x.attempt f).Exec acts (.transaction body k)) :
    (∃ k', x.Exec acts (.transaction body k') ∧ k = fun r => (k' r).attempt f) ∨
      ∃ before after r, acts = before ++ after ∧ x.Exec before (.done r) ∧
        (f r).Exec after (.transaction body k) := by
  rcases h.attempt_cases with ⟨x', hx, hq⟩ | h
  · cases x' with
    | done r => exact .inr ⟨acts, [], r, by simp, hx, hq ▸ .refl _⟩
    | query k' => cases hq
    | transaction body' k' =>
      obtain ⟨rfl, rfl⟩ := Prog.transaction.inj hq
      exact .inl ⟨k', hx, rfl⟩
    | call q k' => cases hq
  · exact .inr h

/-- A sequence that has ended has gone through both of its parts. -/
lemma Exec.attempt_done {r : Except ε β} (h : (x.attempt f).Exec acts (.done r)) :
    ∃ before after r', acts = before ++ after ∧ x.Exec before (.done r') ∧
      (f r').Exec after (.done r) := by
  rcases h.attempt_cases with ⟨x', hx, hq⟩ | h
  · cases x' with
    | done r' => exact ⟨acts, [], r', by simp, hx, hq ▸ .refl _⟩
    | query k => cases hq
    | transaction body k => cases hq
    | call q k => cases hq
  · exact h

/-- A sequence that succeeds: its first part does, and then the rest. -/
lemma Exec.bind_ok {f : α → Prog σ ω ε ρ χ υ β} {b : β} (h : (x.bind f).Exec acts (.done (.ok b))) :
    ∃ before after a, acts = before ++ after ∧ x.Exec before (.done (.ok a)) ∧
      (f a).Exec after (.done (.ok b)) := by
  obtain ⟨before, after, r, rfl, hx, hf⟩ := h.attempt_done
  cases r with
  | ok a => exact ⟨before, after, a, rfl, hx, hf⟩
  | error e => cases hf

/-- The result of a transaction that was run. -/
lemma Exec.run_ok {body : Tx σ ω ε ρ} {r : ρ}
    (h : (Prog.run body : Prog σ ω ε ρ χ υ ρ).Exec acts (.done (.ok r))) :
    ∃ ws, body.Returns [] r ws := by
  unfold Prog.run at h
  cases h with
  | transaction hr h =>
    obtain ⟨-, heq⟩ := h.of_done
    exact hr r (Prog.done.inj heq).symm

lemma Exec.of_nil (h : p.Exec [] p') : p' = p := by
  cases h
  rfl

/-- One transaction of an execution. -/
lemma Exec.of_transaction {body : Tx σ ω ε ρ} {r : Except ε ρ}
    (h : p.Exec [.transaction body r] p') :
    ∃ k, p = .transaction body k ∧ body.Ends r ∧ p' = k r := by
  cases h with
  | transaction hr h => exact ⟨_, rfl, hr, h.of_nil⟩

/-! ### Programs that stop -/

/-- When a transaction ends as in `lost`, the program ends at once with `r₀`; the transactions at
which it does something else are those of `otherwise`. -/
def StopsOr (lost : Tx σ ω ε ρ → Except ε ρ → Prop) (r₀ : Except ε α)
    (otherwise : Prog σ ω ε ρ χ υ α → Prop) (p : Prog σ ω ε ρ χ υ α) : Prop :=
  ∀ acts body k r, p.Exec acts (.transaction body k) → body.Ends r → lost body r →
    k r = .done r₀ ∨ otherwise (.transaction body k)

/-- The program always ends at once when a transaction ends as in `lost`. -/
abbrev Stops (lost : Tx σ ω ε ρ → Except ε ρ → Prop) (r₀ : Except ε α)
    (p : Prog σ ω ε ρ χ υ α) : Prop :=
  p.StopsOr lost r₀ fun _ => False

variable {lost : Tx σ ω ε ρ → Except ε ρ → Prop} {r₀ : Except ε α} {e₀ : Except ε β}
  {otherwise : Prog σ ω ε ρ χ υ α → Prop} {otherwise' : Prog σ ω ε ρ χ υ β → Prop}

lemma stopsOr_done (r : Except ε α) : (Prog.done r).StopsOr lost r₀ otherwise := by
  intro acts body k r' h
  cases h

lemma StopsOr.call {q : χ} {k : υ → Prog σ ω ε ρ χ υ α} (h : ∀ u, (k u).StopsOr lost r₀ otherwise) :
    (Prog.call q k).StopsOr lost r₀ otherwise := by
  intro acts body k' r hexec
  cases hexec with
  | call hexec => exact h _ _ _ _ _ hexec

lemma StopsOr.query {k : Except ε σ → Prog σ ω ε ρ χ υ α}
    (h : ∀ v, (k v).StopsOr lost r₀ otherwise) : (Prog.query k).StopsOr lost r₀ otherwise := by
  intro acts body k' r hexec
  cases hexec with
  | query hexec => exact h _ _ _ _ _ hexec

lemma StopsOr.transaction {body : Tx σ ω ε ρ} {k : Except ε ρ → Prog σ ω ε ρ χ υ α}
    (hlost : ∀ r, body.Ends r → lost body r → k r = .done r₀)
    (h : ∀ r, body.Ends r → (k r).StopsOr lost r₀ otherwise) :
    (Prog.transaction body k).StopsOr lost r₀ otherwise := by
  intro acts body' k' r hexec
  cases hexec with
  | refl => exact fun hends hl => .inl (hlost r hends hl)
  | transaction hr hexec => exact h _ hr _ _ _ _ hexec

/-- A sequence stops when its first part does, with what the rest makes of that, and the rest does. -/
lemma StopsOr.attempt (hx : x.Stops lost r₀) (hstop : f r₀ = .done e₀)
    (hf : ∀ acts r, x.Exec acts (.done r) → (f r).StopsOr lost e₀ otherwise') :
    (x.attempt f).StopsOr lost e₀ otherwise' := by
  intro acts body k r hexec hends hlost
  rcases hexec.attempt_transaction with ⟨k', hx', rfl⟩ | ⟨before, after, r', rfl, hx', hf'⟩
  · have hk := (hx acts body k' r hx' hends hlost).resolve_right id
    refine .inl ?_
    change (k' r).attempt f = .done e₀
    rw [hk, Prog.attempt, hstop]
  · exact hf before r' hx' after body k r hf' hends hlost

/-- A sequence stops with an error when both of its parts do. -/
lemma Stops.bind {e : ε} {f : α → Prog σ ω ε ρ χ υ β} (hx : x.Stops lost (.error e))
    (hf : ∀ acts a, x.Exec acts (.done (.ok a)) → (f a).Stops lost (.error e)) :
    (x.bind f).Stops lost (.error e) := by
  refine StopsOr.attempt hx rfl fun acts r hr => ?_
  cases r with
  | ok a => exact hf acts a hr
  | error e' => exact stopsOr_done _

/-! ### Programs that do the same -/

/-- The two programs do the same in all executions. -/
inductive Agree : Prog σ ω ε ρ χ υ α → Prog σ ω ε ρ χ υ α → Prop
  | done (r) : Agree (.done r) (.done r)
  | query {k k'} : (∀ v, Agree (k v) (k' v)) → Agree (.query k) (.query k')
  | transaction {body k k'} : (∀ r, body.Ends r → Agree (k r) (k' r)) →
      Agree (.transaction body k) (.transaction body k')
  | call {q k k'} : (∀ u, Agree (k u) (k' u)) → Agree (.call q k) (.call q k')

lemma Agree.refl (p : Prog σ ω ε ρ χ υ α) : Agree p p := by
  induction p with
  | done r => exact .done r
  | query k ih => exact .query ih
  | transaction body k ih => exact .transaction fun r _ => ih r
  | call q k ih => exact .call ih

/-- Sequences agree when they go on alike after whatever their first part ends with. -/
lemma Agree.attempt (h : ∀ acts r, x.Exec acts (.done r) → Agree (f r) (g r)) :
    Agree (x.attempt f) (x.attempt g) := by
  induction x with
  | done r => exact h [] r (.refl _)
  | query k ih => exact .query fun v => ih v fun acts r hr => h _ r (.query hr)
  | transaction body k ih =>
    exact .transaction fun r hends => ih r fun acts r' hr' => h _ r' (.transaction hends hr')
  | call q k ih => exact .call fun u => ih u fun acts r hr => h _ r (.call hr)

lemma Agree.bind {f g : α → Prog σ ω ε ρ χ υ β}
    (h : ∀ acts a, x.Exec acts (.done (.ok a)) → Agree (f a) (g a)) :
    Agree (x.bind f) (x.bind g) := by
  refine .attempt fun acts r hr => ?_
  cases r with
  | ok a => exact h acts a hr
  | error e => exact .done _

/-- Programs that agree have the same executions. -/
lemma Agree.exec {q : Prog σ ω ε ρ χ υ α} (h : Agree p q) (hp : p.Exec acts p') :
    ∃ q', q.Exec acts q' ∧ Agree p' q' := by
  induction hp generalizing q with
  | refl => exact ⟨q, .refl q, h⟩
  | query _ ih =>
    cases h with
    | query hk =>
      obtain ⟨q', hq, ha⟩ := ih (hk _)
      exact ⟨q', .query hq, ha⟩
  | transaction hr _ ih =>
    cases h with
    | transaction hk =>
      obtain ⟨q', hq, ha⟩ := ih (hk _ hr)
      exact ⟨q', .transaction hr hq, ha⟩
  | call _ ih =>
    cases h with
    | call hk =>
      obtain ⟨q', hq, ha⟩ := ih (hk _)
      exact ⟨q', .call hq, ha⟩

end Prog

/-! ### The threads of a service -/

/-- The thread is in an execution of the program. -/
def Thread.Executes (p₀ : Prog σ ω ε ρ χ υ α) : Thread σ ω ε ρ χ υ τ α → Prop
  | .idle => True
  | .dead => True
  | .run p => ∃ acts, p₀.Exec acts p
  | .inTx body rest pending k => (∃ acts, p₀.Exec acts (.transaction body k)) ∧
      ∀ a ws, rest.Returns pending a ws → body.Returns [] a ws
  | .waiting q _ k => ∃ acts, p₀.Exec acts (.call q k)

/-- The programs that the threads have started, as the world records them. -/
structure Service.Records [DecidableEq ι] (sv : Service ι W σ ω ε ρ χ υ τ α)
    (started : W → ι → Option (Prog σ ω ε ρ χ υ α)) : Prop where
  commit : ∀ w c, started (sv.commit w c) = started w
  issue : ∀ w i q t w', sv.issue w i q t w' → started w' = started w
  env : ∀ w w', sv.env w w' → started w' = started w
  starts : ∀ w i p w', sv.starts w i p w' → started w' = Function.update (started w) i (some p)

section Threads

variable [DecidableEq ι] {sv : Service ι W σ ω ε ρ χ υ τ α} {s s' : Sys ι W σ ω ε ρ χ υ τ α}
  {started : W → ι → Option (Prog σ ω ε ρ χ υ α)}

/-- Every thread is in an execution of the program that it has started. -/
def Sys.Executing (started : W → ι → Option (Prog σ ω ε ρ χ υ α))
    (s : Sys ι W σ ω ε ρ χ υ τ α) : Prop :=
  ∀ i p, started s.world i = some p → (s.threads i).Executes p

/-- One thread goes on. -/
lemma Sys.Executing.set (h : s.Executing started) {i : ι} {t : Thread σ ω ε ρ χ υ τ α} {w : W}
    (hw : started w = started s.world)
    (ht : ∀ p, started s.world i = some p → (s.threads i).Executes p → t.Executes p) :
    (s.set i t w).Executing started := by
  intro j p hp
  rw [Sys.set_world, hw] at hp
  by_cases hj : j = i
  · subst hj
    rw [Sys.set_threads_self]
    exact ht p hp (h j p hp)
  · rw [Sys.set_threads_ne s hj]
    exact h j p hp

lemma Sys.Executing.step (hrec : sv.Records started) (h : s.Executing started)
    (hs : Step sv s s') : s'.Executing started := by
  cases hs with
  | @start i p w' hi hst =>
    intro j q hq
    rw [Sys.set_world, hrec.starts _ _ _ _ hst] at hq
    by_cases hj : j = i
    · subst hj
      rw [Function.update_self] at hq
      obtain rfl := Option.some.inj hq
      rw [Sys.set_threads_self]
      exact ⟨[], .refl p⟩
    · rw [Function.update_of_ne hj] at hq
      rw [Sys.set_threads_ne s hj]
      exact h j q hq
  | query hi =>
    refine h.set rfl fun p _ hp => ?_
    rw [hi] at hp
    obtain ⟨acts, hp⟩ := hp
    exact ⟨_, hp.trans (.query (.refl _))⟩
  | queryFail hi _ =>
    refine h.set rfl fun p _ hp => ?_
    rw [hi] at hp
    obtain ⟨acts, hp⟩ := hp
    exact ⟨_, hp.trans (.query (.refl _))⟩
  | begin hi =>
    refine h.set rfl fun p _ hp => ?_
    rw [hi] at hp
    exact ⟨hp, fun _ _ hr => hr⟩
  | stmt hi hrun _ =>
    refine h.set rfl fun p _ hp => ?_
    rw [hi] at hp
    exact ⟨hp.1, fun a ws hr => hp.2 a ws (.stmt _ hrun hr)⟩
  | stmtFail hi _ =>
    refine h.set rfl fun p _ hp => ?_
    rw [hi] at hp
    obtain ⟨⟨acts, hp⟩, -⟩ := hp
    exact ⟨_, hp.trans (.transaction (Tx.ends_error _ _) (.refl _))⟩
  | abort hi =>
    refine h.set rfl fun p _ hp => ?_
    rw [hi] at hp
    obtain ⟨⟨acts, hp⟩, -⟩ := hp
    exact ⟨_, hp.trans (.transaction (Tx.ends_error _ _) (.refl _))⟩
  | fail hi _ =>
    refine h.set rfl fun p _ hp => ?_
    rw [hi] at hp
    obtain ⟨⟨acts, hp⟩, -⟩ := hp
    exact ⟨_, hp.trans (.transaction (Tx.ends_error _ _) (.refl _))⟩
  | @commit i body r pending k hi _ =>
    refine h.set (hrec.commit _ _) fun p _ hp => ?_
    rw [hi] at hp
    obtain ⟨⟨acts, hp⟩, hends⟩ := hp
    refine ⟨_, hp.trans (.transaction (fun a ha => ⟨pending, hends a pending ?_⟩) (.refl _))⟩
    obtain rfl := Except.ok.inj ha
    exact .ret r pending
  | issue hi hq =>
    refine h.set (hrec.issue _ _ _ _ _ hq) fun p _ hp => ?_
    rw [hi] at hp
    exact hp
  | answer hi _ =>
    refine h.set rfl fun p _ hp => ?_
    rw [hi] at hp
    obtain ⟨acts, hp⟩ := hp
    exact ⟨_, hp.trans (.call (.refl _))⟩
  | crash => exact h.set rfl fun _ _ _ => trivial
  | env he =>
    intro j q hq
    exact h j q (hrec.env _ _ he ▸ hq)

/-- Whatever the others do, every thread is in an execution of the program that it has started. -/
theorem reaches_executes (hrec : sv.Records started) (h : s.Executing started)
    (hs : Reaches sv s s') : s'.Executing started := by
  induction hs with
  | refl => exact h
  | tail _ hstep ih => exact ih.step hrec hstep

/-- A thread without a recorded program has not started, or has crashed. -/
def Sys.Recorded (started : W → ι → Option (Prog σ ω ε ρ χ υ α))
    (s : Sys ι W σ ω ε ρ χ υ τ α) : Prop :=
  ∀ i, started s.world i = none → s.threads i = .idle ∨ s.threads i = .dead

/-- A thread that has started goes on. -/
lemma Sys.Recorded.set (h : s.Recorded started) {i : ι} {t : Thread σ ω ε ρ χ υ τ α} {w : W}
    (hw : started w = started s.world)
    (ht : s.threads i = .idle ∨ s.threads i = .dead → t = .idle ∨ t = .dead) :
    (s.set i t w).Recorded started := by
  intro j hj
  rw [Sys.set_world, hw] at hj
  by_cases hij : j = i
  · subst hij
    rw [Sys.set_threads_self]
    exact ht (h j hj)
  · rw [Sys.set_threads_ne s hij]
    exact h j hj

lemma Sys.Recorded.step (hrec : sv.Records started) (h : s.Recorded started)
    (hs : Step sv s s') : s'.Recorded started := by
  cases hs with
  | @start i p w' hi hst =>
    intro j hj
    rw [Sys.set_world, hrec.starts _ _ _ _ hst] at hj
    by_cases hij : j = i
    · subst hij
      rw [Function.update_self] at hj
      cases hj
    · rw [Function.update_of_ne hij] at hj
      rw [Sys.set_threads_ne s hij]
      exact h j hj
  | query hi => exact h.set rfl (by simp [hi])
  | queryFail hi _ => exact h.set rfl (by simp [hi])
  | begin hi => exact h.set rfl (by simp [hi])
  | stmt hi _ _ => exact h.set rfl (by simp [hi])
  | stmtFail hi _ => exact h.set rfl (by simp [hi])
  | abort hi => exact h.set rfl (by simp [hi])
  | fail hi _ => exact h.set rfl (by simp [hi])
  | commit hi _ => exact h.set (hrec.commit _ _) (by simp [hi])
  | issue hi hq => exact h.set (hrec.issue _ _ _ _ _ hq) (by simp [hi])
  | answer hi _ => exact h.set rfl (by simp [hi])
  | crash => exact h.set rfl fun _ => .inr rfl
  | env he =>
    intro j hj
    exact h j (hrec.env _ _ he ▸ hj)

/-- Every thread in a transaction is in one of the program that it has started. -/
lemma Sys.exec_of_inTx (hrec : sv.Records started) {w : W} (hw : started w = fun _ => none)
    (hs : Reaches sv (Sys.init w) s) {i : ι} {body rest : Tx σ ω ε ρ} {pending : List ω}
    {k : Except ε ρ → Prog σ ω ε ρ χ υ α} (hi : s.threads i = .inTx body rest pending k) :
    ∃ p acts, started s.world i = some p ∧ p.Exec acts (.transaction body k) ∧
      ∀ a ws, rest.Returns pending a ws → body.Returns [] a ws := by
  have hexec : s.Executing started := by
    refine reaches_executes hrec (fun j p hp => ?_) hs
    rw [Sys.init, hw] at hp
    cases hp
  have hrecorded : s.Recorded started := by
    clear hi hexec
    induction hs with
    | refl => exact fun _ _ => .inl rfl
    | tail _ hstep ih => exact ih.step hrec hstep
  cases hp : started s.world i with
  | none =>
    rcases hrecorded i hp with hidle | hdead
    · rw [hidle] at hi
      cases hi
    · rw [hdead] at hi
      cases hi
  | some p =>
    have hthread := hexec i p hp
    rw [hi] at hthread
    obtain ⟨⟨acts, hacts⟩, hreturns⟩ := hthread
    exact ⟨p, acts, rfl, hacts, hreturns⟩

end Threads

end Transactions
