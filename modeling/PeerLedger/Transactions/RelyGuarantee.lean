import PeerLedger.Transactions.Machine

/-!
# Rely-guarantee reasoning for transactions at READ COMMITTED

A `Protocol` names what the threads of a service owe each other: an invariant of the world, a
guarantee that every commit meets, a condition under which requests are sent, and what a finished
program has established.  `Tx.wp` and `Prog.wp` are weakest preconditions relative to it: before
every statement the other threads may have committed anything that meets the guarantee and does not
touch an index entry or row that the transaction occupies.

`Sys.Ok.step` is soundness: if every program that can start meets its weakest precondition, then in
every reachable state the invariant holds and every commit meets the guarantee.
-/

namespace Transactions

open Relation

variable {ι W σ ω κ ε ρ χ υ τ α β : Type}

/-- What the threads of a service owe each other. -/
structure Protocol (ι W σ ω ε ρ χ α : Type) where
  /-- The invariant of the world. -/
  inv : W → Prop
  /-- What every commit meets. -/
  guar : W → Commit ι σ ω ε ρ → Prop
  /-- When a thread sends a request. -/
  callOk : W → ι → χ → Prop
  /-- What a finished program has established. -/
  post : W → ι → Except ε α → Prop

section Rely

variable [Store σ ω κ] (sv : Service ι W σ ω ε ρ χ υ τ α) (pr : Protocol ι W σ ω ε ρ χ α)

/-- One step that the others can take while thread `i` has the pending writes `p`. -/
inductive Interferes (i : ι) (p : List ω) : W → W → Prop
  | env {w w'} : pr.inv w → sv.env w w' → Interferes i p w w'
  | commit {w c pending} : pr.inv w → c.thread ≠ i →
      List.Disjoint (locksOf (σ := σ) p) (locksOf (σ := σ) c.writes) → p ⊆ pending i →
      sv.admits w pending c → pr.guar w c → Interferes i p w (sv.commit w c)
  | issue {w w' j q t} : pr.inv w → j ≠ i → pr.callOk w j q → sv.issue w j q t w' →
      Interferes i p w w'
  | start {w w' j prog} : pr.inv w → j ≠ i → sv.starts w j prog w' → Interferes i p w w'

/-- The worlds in which thread `i` can find itself after any interference. -/
def Later (i : ι) (p : List ω) (w w' : W) : Prop :=
  ReflTransGen (Interferes sv pr i p) w w' ∧ pr.inv w'

variable {sv pr} {i : ι} {p : List ω} {w w' w'' : W}

lemma Later.refl (h : pr.inv w) : Later sv pr i p w w := ⟨.refl, h⟩

lemma Later.inv (h : Later sv pr i p w w') : pr.inv w' := h.2

lemma Later.trans (h : Later sv pr i p w w') (h' : Later sv pr i p w' w'') :
    Later sv pr i p w w'' := ⟨h.1.trans h'.1, h'.2⟩

lemma Interferes.later (h : Interferes sv pr i p w w') (hinv : pr.inv w') :
    Later sv pr i p w w' := ⟨.single h, hinv⟩

/-- With fewer pending writes there is more interference. -/
lemma Interferes.mono {q : List ω} (hpq : q ⊆ p) (h : Interferes sv pr i p w w') :
    Interferes sv pr i q w w' := by
  cases h with
  | env h he => exact .env h he
  | commit h hi hd hp ha hg =>
    refine .commit h hi (fun a ha' => hd ?_) (fun x hx => hp (hpq hx)) ha hg
    obtain ⟨x, hx, hxa⟩ := List.mem_flatMap.mp ha'
    exact List.mem_flatMap.mpr ⟨x, hpq hx, hxa⟩
  | issue h hj hc hi => exact .issue h hj hc hi
  | start h hj hs => exact .start h hj hs

lemma Later.mono {q : List ω} (hpq : q ⊆ p) (h : Later sv pr i p w w') : Later sv pr i q w w' :=
  ⟨h.1.lift id fun _ _ => Interferes.mono hpq, h.2⟩

/-- Interference with a transaction is interference with its thread. -/
lemma Later.nil (h : Later sv pr i p w w') : Later sv pr i [] w w' := h.mono (List.nil_subset p)

/-- A reflexive and transitive relation that every interfering step respects holds between the
ends of any interference. -/
lemma Later.rel {R : W → W → Prop} (hrefl : ∀ w, R w w) (htrans : ∀ a b c, R a b → R b c → R a c)
    (hstep : ∀ a b, Interferes sv pr i p a b → R a b) (h : Later sv pr i p w w') : R w w' := by
  obtain ⟨h, -⟩ := h
  induction h with
  | refl => exact hrefl _
  | tail _ hbc ih => exact htrans _ _ _ ih (hstep _ _ hbc)

end Rely

section Wp

variable [Store σ ω κ] (sv : Service ι W σ ω ε ρ χ υ τ α) (pr : Protocol ι W σ ω ε ρ χ α)

/-- Weakest precondition of a transaction body of thread `i`: whatever the others commit before
each statement, it returns with `Q` or throws with `E`. -/
def Tx.wp (i : ι) (Q : W → List ω → β → Prop) (E : W → ε → Prop) :
    Tx σ ω ε β → W → List ω → Prop
  | .ret r, w, p => Q w p r
  | .abort e, w, _ => E w e
  | .stmt run next, w, p => ∀ w', Later sv pr i p w w' →
      match run (view (sv.db w') p) with
      | .error e => E w' e
      | .ok ws => (next (view (sv.db w') p)).wp i Q E w' (p ++ ws)

/-- Weakest precondition of a program of thread `i`. -/
def Prog.wp (i : ι) (Φ : W → Except ε β → Prop) : Prog σ ω ε ρ χ υ β → W → Prop
  | .done r, w => Φ w r
  | .query k, w => ∀ w', Later sv pr i [] w w' →
      (k (.ok (sv.db w'))).wp i Φ w' ∧ ∀ e, sv.fails e → (k (.error e)).wp i Φ w'
  | .transaction body k, w => ∀ w', Later sv pr i [] w w' →
      body.wp sv pr i
        (fun w p r => ∀ w', Later sv pr i p w w' → sv.Admits w' ⟨i, body, p, r⟩ →
          pr.guar w' ⟨i, body, p, r⟩ ∧ (k (.ok r)).wp i Φ (sv.commit w' ⟨i, body, p, r⟩))
        (fun w e => (k (.error e)).wp i Φ w) w' [] ∧
      ∀ e, sv.fails e → (k (.error e)).wp i Φ w'
  | .call q k, w => ∀ w', Later sv pr i [] w w' →
      pr.callOk w' i q ∧ ∀ t w'', sv.issue w' i q t w'' → ∀ w''', Later sv pr i [] w'' w''' →
        ∀ u, sv.answer w''' i q t u → (k u).wp i Φ w'''

variable {sv pr} {i : ι}

/-! ### Structural rules -/

/-- The weakest precondition of a sequence of transaction bodies. -/
lemma Tx.wp_bind {Q : W → List ω → β → Prop} {E : W → ε → Prop} {γ : Type} (x : Tx σ ω ε γ)
    (f : γ → Tx σ ω ε β) (w : W) (p : List ω) :
    (x.bind f).wp sv pr i Q E w p ↔
      x.wp sv pr i (fun w p r => (f r).wp sv pr i Q E w p) E w p := by
  induction x generalizing w p with
  | ret r => rfl
  | abort e => rfl
  | stmt run next ih =>
    simp only [Tx.bind, Tx.wp]
    refine forall₂_congr fun w' _ => ?_
    cases run (view (sv.db w') p) with
    | error e => rfl
    | ok ws => exact ih _ _ _

/-- A reading statement reads what is committed at that moment and its own writes. -/
lemma Tx.wp_query {Q : W → List ω → β → Prop} {E : W → ε → Prop} (f : σ → β) (w : W)
    (p : List ω) :
    (Tx.query f : Tx σ ω ε β).wp sv pr i Q E w p ↔
      ∀ w', Later sv pr i p w w' → Q w' p (f (view (sv.db w') p)) := by
  simp [Tx.query, Tx.wp]

/-- A writing statement fails or adds its rows to the pending writes. -/
lemma Tx.wp_write {Q : W → List ω → Unit → Prop} {E : W → ε → Prop}
    (f : σ → Except ε (List ω)) (w : W) (p : List ω) :
    (Tx.write f : Tx σ ω ε Unit).wp sv pr i Q E w p ↔
      ∀ w', Later sv pr i p w w' →
        (∀ e, f (view (sv.db w') p) = .error e → E w' e) ∧
        ∀ ws, f (view (sv.db w') p) = .ok ws → Q w' (p ++ ws) () := by
  simp only [Tx.write, Tx.wp]
  refine forall₂_congr fun w' _ => ?_
  cases f (view (sv.db w') p) <;> simp

/-- A computation in memory. -/
lemma Tx.wp_ofExcept {Q : W → List ω → β → Prop} {E : W → ε → Prop} (x : Except ε β) (w : W)
    (p : List ω) :
    (Tx.ofExcept x : Tx σ ω ε β).wp sv pr i Q E w p ↔
      (∀ e, x = .error e → E w e) ∧ ∀ a, x = .ok a → Q w p a := by
  cases x <;> simp [Tx.ofExcept, Tx.wp]

/-- The weakest precondition of a body whose errors are rewritten. -/
lemma Tx.wp_mapError {Q : W → List ω → β → Prop} {E : W → ε → Prop} (f : ε → ε)
    (x : Tx σ ω ε β) (w : W) (p : List ω) :
    (x.mapError f).wp sv pr i Q E w p ↔ x.wp sv pr i Q (fun w e => E w (f e)) w p := by
  induction x generalizing w p with
  | ret r => rfl
  | abort e => rfl
  | stmt run next ih =>
    simp only [Tx.mapError, Tx.wp]
    refine forall₂_congr fun w' _ => ?_
    cases run (view (sv.db w') p) with
    | error e => rfl
    | ok ws => exact ih _ _ _

/-- The rule of consequence for transaction bodies. -/
lemma Tx.wp_mono {Q Q' : W → List ω → β → Prop} {E E' : W → ε → Prop} {x : Tx σ ω ε β} {w : W}
    {p : List ω} (hQ : ∀ w p r, Q w p r → Q' w p r) (hE : ∀ w e, E w e → E' w e)
    (h : x.wp sv pr i Q E w p) : x.wp sv pr i Q' E' w p := by
  induction x generalizing w p with
  | ret r => exact hQ _ _ _ h
  | abort e => exact hE _ _ h
  | stmt run next ih =>
    intro w' hw'
    have := h w' hw'
    revert this
    cases run (view (sv.db w') p) with
    | error e => exact hE _ _
    | ok ws => exact ih _

/-- What two proofs say of a body holds together. -/
lemma Tx.wp_and {Q Q' : W → List ω → β → Prop} {E E' : W → ε → Prop} {x : Tx σ ω ε β} {w : W}
    {p : List ω} (h : x.wp sv pr i Q E w p) (h' : x.wp sv pr i Q' E' w p) :
    x.wp sv pr i (fun w p r => Q w p r ∧ Q' w p r) (fun w e => E w e ∧ E' w e) w p := by
  induction x generalizing w p with
  | ret r => exact ⟨h, h'⟩
  | abort e => exact ⟨h, h'⟩
  | stmt run next ih =>
    intro w' hw'
    have hnext := h w' hw'
    have hnext' := h' w' hw'
    revert hnext hnext'
    cases run (view (sv.db w') p) with
    | error e => exact fun hE hE' => ⟨hE, hE'⟩
    | ok ws => exact ih _

/-- Interference keeps the weakest precondition of a body when it keeps what follows it. -/
lemma Tx.wp_later {Q : W → List ω → β → Prop} {E : W → ε → Prop} {x : Tx σ ω ε β} {w w' : W}
    {p : List ω} (hQ : ∀ w w' p r, Later sv pr i p w w' → Q w p r → Q w' p r)
    (hE : ∀ w w' e, Later sv pr i [] w w' → E w e → E w' e)
    (hw : Later sv pr i p w w') (h : x.wp sv pr i Q E w p) : x.wp sv pr i Q E w' p := by
  cases x with
  | ret r => exact hQ _ _ _ _ hw h
  | abort e => exact hE _ _ _ hw.nil h
  | stmt run next => exact fun w'' hw'' => h w'' (hw.trans hw'')

/-- The weakest precondition of a program followed by a handler of its outcome. -/
lemma Prog.wp_attempt {γ : Type} {Φ : W → Except ε β → Prop} (x : Prog σ ω ε ρ χ υ γ)
    (f : Except ε γ → Prog σ ω ε ρ χ υ β) (w : W) :
    (x.attempt f).wp sv pr i Φ w ↔ x.wp sv pr i (fun w r => (f r).wp sv pr i Φ w) w := by
  induction x generalizing w with
  | done r => rfl
  | query k ih => simp only [Prog.attempt, Prog.wp, ih]
  | transaction body k ih => simp only [Prog.attempt, Prog.wp, ih]
  | call q k ih => simp only [Prog.attempt, Prog.wp, ih]

/-- The weakest precondition of a sequence of programs. -/
lemma Prog.wp_bind {γ : Type} {Φ : W → Except ε β → Prop} (x : Prog σ ω ε ρ χ υ γ)
    (f : γ → Prog σ ω ε ρ χ υ β) (w : W) :
    (x.bind f).wp sv pr i Φ w ↔ x.wp sv pr i (fun w r =>
      match r with
      | .ok a => (f a).wp sv pr i Φ w
      | .error e => Φ w (.error e)) w := by
  rw [Prog.bind, Prog.wp_attempt]
  refine iff_of_eq (congrArg (fun Ψ => x.wp sv pr i Ψ w) ?_)
  funext w r
  cases r <;> rfl

/-- A reading statement outside any transaction. -/
lemma Prog.wp_read {Φ : W → Except ε β → Prop} (f : σ → β) (w : W) :
    (Prog.read f : Prog σ ω ε ρ χ υ β).wp sv pr i Φ w ↔ ∀ w', Later sv pr i [] w w' →
      Φ w' (.ok (f (sv.db w'))) ∧ ∀ e, sv.fails e → Φ w' (.error e) := Iff.rfl

/-- The rule of consequence for programs. -/
lemma Prog.wp_mono {Φ Φ' : W → Except ε β → Prop} {x : Prog σ ω ε ρ χ υ β} {w : W}
    (hΦ : ∀ w r, Φ w r → Φ' w r) (h : x.wp sv pr i Φ w) : x.wp sv pr i Φ' w := by
  induction x generalizing w with
  | done r => exact hΦ _ _ h
  | query k ih => exact fun w' hw' => ⟨ih _ (h w' hw').1, fun e he => ih _ ((h w' hw').2 e he)⟩
  | transaction body k ih =>
    refine fun w' hw' => ⟨Tx.wp_mono ?_ (fun w e => ih _) (h w' hw').1,
      fun e he => ih _ ((h w' hw').2 e he)⟩
    exact fun w p r hQ w'' hw'' ha => ⟨(hQ w'' hw'' ha).1, ih _ (hQ w'' hw'' ha).2⟩
  | call q k ih =>
    refine fun w' hw' => ⟨(h w' hw').1, fun t w'' hi w''' hw''' u hu => ih _ ?_⟩
    exact (h w' hw').2 t w'' hi w''' hw''' u hu

/-- The frame rule for transaction bodies: what interference keeps is still there. -/
lemma Tx.wp_frame {K : W → Prop} {Q : W → List ω → β → Prop} {E : W → ε → Prop} {x : Tx σ ω ε β}
    {w : W} {p : List ω} (hlater : ∀ w w' p, Later sv pr i p w w' → K w → K w') (hK : K w)
    (h : x.wp sv pr i Q E w p) :
    x.wp sv pr i (fun w p r => Q w p r ∧ K w) (fun w e => E w e ∧ K w) w p := by
  induction x generalizing w p with
  | ret r => exact ⟨h, hK⟩
  | abort e => exact ⟨h, hK⟩
  | stmt run next ih =>
    intro w' hw'
    have hw := h w' hw'
    have hK' := hlater _ _ _ hw' hK
    revert hw
    cases run (view (sv.db w') p) with
    | error e => exact fun hw => ⟨hw, hK'⟩
    | ok ws => exact ih _ hK'

/-- The frame rule for programs: what interference, the guaranteed commits and the requests keep is
still there in the end. -/
lemma Prog.wp_frame {K : W → Prop} {Φ : W → Except ε β → Prop} {x : Prog σ ω ε ρ χ υ β} {w : W}
    (hlater : ∀ w w' p, Later sv pr i p w w' → K w → K w')
    (hcommit : ∀ w c, pr.inv w → pr.guar w c → K w → K (sv.commit w c))
    (hissue : ∀ w q t w', sv.issue w i q t w' → K w → K w') (hK : K w)
    (h : x.wp sv pr i Φ w) : x.wp sv pr i (fun w r => Φ w r ∧ K w) w := by
  induction x generalizing w with
  | done r => exact ⟨h, hK⟩
  | query k ih =>
    intro w' hw'
    have hK' := hlater _ _ _ hw' hK
    exact ⟨ih _ hK' (h w' hw').1, fun e he => ih _ hK' ((h w' hw').2 e he)⟩
  | transaction body k ih =>
    intro w' hw'
    have hK' := hlater _ _ _ hw' hK
    refine ⟨?_, fun e he => ih _ hK' ((h w' hw').2 e he)⟩
    refine Tx.wp_mono (fun w p r hQ w'' hw'' ha => ?_) (fun w e hE => ih _ hE.2 hE.1)
      (Tx.wp_frame hlater hK' (h w' hw').1)
    obtain ⟨hguar, hwp⟩ := hQ.1 w'' hw'' ha
    exact ⟨hguar, ih _ (hcommit _ _ hw''.inv hguar (hlater _ _ _ hw'' hQ.2)) hwp⟩
  | call q k ih =>
    intro w₁ hw₁
    refine ⟨(h w₁ hw₁).1, fun t w₂ hi w₃ hw₃ u hu => ?_⟩
    have hK' := hlater _ _ _ hw₃ (hissue _ _ _ _ hi (hlater _ _ _ hw₁ hK))
    exact ih _ hK' ((h w₁ hw₁).2 t w₂ hi w₃ hw₃ u hu)

/-- Interference keeps the weakest precondition of a program when it keeps its postcondition. -/
lemma Prog.wp_later {Φ : W → Except ε β → Prop} {x : Prog σ ω ε ρ χ υ β} {w w' : W}
    (hΦ : ∀ w w' r, Later sv pr i [] w w' → Φ w r → Φ w' r)
    (hw : Later sv pr i [] w w') (h : x.wp sv pr i Φ w) : x.wp sv pr i Φ w' := by
  cases x with
  | done r => exact hΦ _ _ _ hw h
  | query k => exact fun w'' hw'' => h w'' (hw.trans hw'')
  | transaction body k => exact fun w'' hw'' => h w'' (hw.trans hw'')
  | call q k => exact fun w'' hw'' => h w'' (hw.trans hw'')

end Wp

/-! ### Soundness -/

section Sound

variable [Store σ ω κ] (sv : Service ι W σ ω ε ρ χ υ τ α) (pr : Protocol ι W σ ω ε ρ χ α)

/-- What a finished program has established, in every later world. -/
def Protocol.final (i : ι) (w : W) (r : Except ε α) : Prop :=
  ∀ w', Later sv pr i [] w w' → pr.post w' i r

/-- The obligations of a protocol: its invariant survives every step that meets the guarantees, and
every program that can start meets its weakest precondition. -/
structure Protocol.Sound : Prop where
  inv_env : ∀ w w', pr.inv w → sv.env w w' → pr.inv w'
  inv_commit : ∀ w c, pr.inv w → sv.Admits w c → pr.guar w c → pr.inv (sv.commit w c)
  inv_issue : ∀ w i q t w', pr.inv w → pr.callOk w i q → sv.issue w i q t w' → pr.inv w'
  inv_start : ∀ w i p w', pr.inv w → sv.starts w i p w' → pr.inv w'
  start_wp : ∀ w i p w', pr.inv w → sv.starts w i p w' → p.wp sv pr i (pr.final sv i) w'

/-- What is known of the remaining work of a thread. -/
def Thread.Ok (i : ι) (w : W) : Thread σ ω ε ρ χ υ τ α → Prop
  | .idle => True
  | .dead => True
  | .run p => p.wp sv pr i (pr.final sv i) w
  | .inTx body rest p k =>
      rest.wp sv pr i
        (fun w p r => ∀ w', Later sv pr i p w w' → sv.Admits w' ⟨i, body, p, r⟩ →
          pr.guar w' ⟨i, body, p, r⟩ ∧
            (k (.ok r)).wp sv pr i (pr.final sv i) (sv.commit w' ⟨i, body, p, r⟩))
        (fun w e => (k (.error e)).wp sv pr i (pr.final sv i) w) w p ∧
      ∀ e, sv.fails e → (k (.error e)).wp sv pr i (pr.final sv i) w
  | .waiting q t k => ∀ w', Later sv pr i [] w w' → ∀ u, sv.answer w' i q t u →
      (k u).wp sv pr i (pr.final sv i) w'

/-- The state of the system meets the protocol: the invariant holds, every thread meets its weakest
precondition, and open transactions occupy disjoint index entries and rows. -/
structure Sys.Ok (s : Sys ι W σ ω ε ρ χ υ τ α) : Prop where
  inv : pr.inv s.world
  thread : ∀ i, (s.threads i).Ok sv pr i s.world
  disjoint : ∀ i j, i ≠ j → List.Disjoint (locksOf (σ := σ) (s.threads i).pending)
    (locksOf (σ := σ) (s.threads j).pending)

variable {sv pr} {i : ι}

lemma Protocol.final_later {w w' : W} {r : Except ε α} (hw : Later sv pr i [] w w')
    (h : pr.final sv i w r) : pr.final sv i w' r := fun w'' hw'' => h w'' (hw.trans hw'')

lemma Prog.wp_final_later {x : Prog σ ω ε ρ χ υ α} {w w' : W} (hw : Later sv pr i [] w w')
    (h : x.wp sv pr i (pr.final sv i) w) : x.wp sv pr i (pr.final sv i) w' :=
  Prog.wp_later (fun _ _ _ => Protocol.final_later) hw h

/-- Interference keeps what is known of a thread. -/
lemma Thread.Ok.later {t : Thread σ ω ε ρ χ υ τ α} {w w' : W}
    (hw : Later sv pr i t.pending w w') (h : t.Ok sv pr i w) : t.Ok sv pr i w' := by
  cases t with
  | idle => trivial
  | dead => trivial
  | run p => exact Prog.wp_final_later hw h
  | inTx body rest p k =>
    refine ⟨Tx.wp_later (fun a b p r hab hQ w'' hw'' => hQ w'' (hab.trans hw''))
      (fun _ _ _ => Prog.wp_final_later) hw h.1, fun e he => ?_⟩
    exact Prog.wp_final_later hw.nil (h.2 e he)
  | waiting q t k => exact fun w'' hw'' => h w'' (hw.trans hw'')

/-- The initial state is in order. -/
lemma Sys.Ok.init {w : W} (h : pr.inv w) : (Sys.init w : Sys ι W σ ω ε ρ χ υ τ α).Ok sv pr :=
  ⟨h, fun _ => trivial, fun _ _ _ => by simp [Sys.init, Thread.pending, locksOf]⟩

/-- The commits of a system in order meet the guarantee. -/
lemma Sys.Ok.guar {s : Sys ι W σ ω ε ρ χ υ τ α} (h : s.Ok sv pr) {body : Tx σ ω ε ρ} {r : ρ}
    {p : List ω} {k : Except ε ρ → Prog σ ω ε ρ χ υ α}
    (hi : s.threads i = .inTx body (.ret r) p k) (ha : sv.Admits s.world ⟨i, body, p, r⟩) :
    pr.guar s.world ⟨i, body, p, r⟩ := by
  have hk := h.thread i
  rw [hi] at hk
  exact (hk.1 _ (.refl h.inv) ha).1

/-- The requests of a system in order are sent when they may be. -/
lemma Sys.Ok.callOk {s : Sys ι W σ ω ε ρ χ υ τ α} (h : s.Ok sv pr) {q : χ}
    {k : υ → Prog σ ω ε ρ χ υ α} (hi : s.threads i = .run (.call q k)) :
    pr.callOk s.world i q := by
  have hk := h.thread i
  rw [hi] at hk
  exact (hk _ (.refl h.inv)).1

/-- A finished program has established its postcondition. -/
lemma Sys.Ok.post {s : Sys ι W σ ω ε ρ χ υ τ α} (h : s.Ok sv pr) {r : Except ε α}
    (hi : s.threads i = .run (.done r)) : pr.post s.world i r := by
  have hk := h.thread i
  rw [hi] at hk
  exact hk _ (.refl h.inv)

variable [DecidableEq ι]

/-- After a step of thread `i` the system is still in order, provided that the step interferes with
the other threads only as the protocol allows. -/
lemma Sys.Ok.set {s : Sys ι W σ ω ε ρ χ υ τ α} (h : s.Ok sv pr) {t : Thread σ ω ε ρ χ υ τ α}
    {w : W} (hinv : pr.inv w) (ht : t.Ok sv pr i w)
    (hfree : ∀ j, j ≠ i → List.Disjoint (locksOf (σ := σ) (s.threads j).pending)
      (locksOf (σ := σ) t.pending))
    (hothers : ∀ j, j ≠ i → w = s.world ∨ Interferes sv pr j (s.threads j).pending s.world w) :
    (s.set i t w).Ok sv pr := by
  refine ⟨hinv, fun j => ?_, Sys.Apart.set h.disjoint w hfree⟩
  by_cases hj : j = i
  · subst hj
    simpa using ht
  · rw [Sys.set_threads_ne s hj, Sys.set_world]
    rcases hothers j hj with rfl | hint
    · exact h.thread j
    · exact (h.thread j).later (hint.later hinv)

/-- The pending writes of a thread that leaves its transaction occupy nothing. -/
private lemma disjoint_locksOf_nil (l : List κ) :
    List.Disjoint l (locksOf (σ := σ) ([] : List ω)) := by simp [locksOf]

/-- Every step of a thread keeps the system in order. -/
lemma Sys.Ok.step (hpr : pr.Sound sv) {s s' : Sys ι W σ ω ε ρ χ υ τ α} (h : s.Ok sv pr)
    (hs : Step sv s s') : s'.Ok sv pr := by
  cases hs with
  | @start i p w' hi hst =>
    refine h.set (hpr.inv_start _ _ _ _ h.inv hst) (hpr.start_wp _ _ _ _ h.inv hst)
      (fun j _ => disjoint_locksOf_nil _) fun j hj => .inr (.start h.inv hj.symm hst)
  | @query i k hi =>
    have hk := h.thread i
    rw [hi] at hk
    exact h.set h.inv (hk _ (.refl h.inv)).1 (fun j _ => disjoint_locksOf_nil _)
      fun _ _ => .inl rfl
  | @queryFail i k e hi he =>
    have hk := h.thread i
    rw [hi] at hk
    exact h.set h.inv ((hk _ (.refl h.inv)).2 e he) (fun j _ => disjoint_locksOf_nil _)
      fun _ _ => .inl rfl
  | @begin i body k hi =>
    have hk := h.thread i
    rw [hi] at hk
    exact h.set h.inv (hk _ (.refl h.inv)) (fun j _ => disjoint_locksOf_nil _)
      fun _ _ => .inl rfl
  | @stmt i body run next p k ws hi hrun hfree =>
    have hk := h.thread i
    rw [hi] at hk
    obtain ⟨hk, hf⟩ := hk
    have hnext := hk _ (.refl h.inv)
    rw [hrun] at hnext
    refine h.set h.inv ⟨hnext, hf⟩ (fun j hj => ?_) fun _ _ => .inl rfl
    have hp := h.disjoint j i hj
    rw [hi] at hp
    simp only [Thread.pending, locksOf, List.flatMap_append] at hp ⊢
    exact List.disjoint_append_right.mpr ⟨hp, hfree j hj⟩
  | @stmtFail i body run next p k e hi hrun =>
    have hk := h.thread i
    rw [hi] at hk
    have hnext := hk.1 _ (.refl h.inv)
    rw [hrun] at hnext
    exact h.set h.inv hnext (fun j _ => disjoint_locksOf_nil _) fun _ _ => .inl rfl
  | @abort i body e p k hi =>
    have hk := h.thread i
    rw [hi] at hk
    exact h.set h.inv hk.1 (fun j _ => disjoint_locksOf_nil _) fun _ _ => .inl rfl
  | @fail i body rest p k e hi he =>
    have hk := h.thread i
    rw [hi] at hk
    exact h.set h.inv (hk.2 e he) (fun j _ => disjoint_locksOf_nil _) fun _ _ => .inl rfl
  | @commit i body r p k hi ha =>
    have hk := h.thread i
    rw [hi] at hk
    obtain ⟨hg, hwp⟩ := hk.1 _ (.refl h.inv) ⟨_, ha⟩
    refine h.set (hpr.inv_commit _ _ h.inv ⟨_, ha⟩ hg) hwp (fun j _ => disjoint_locksOf_nil _)
      fun j hj => .inr (.commit h.inv hj.symm ?_ (List.Subset.refl _) ha hg)
    have hp := h.disjoint j i hj
    rwa [hi] at hp
  | @issue i q k t w' hi hq =>
    have hk := h.thread i
    rw [hi] at hk
    obtain ⟨hc, hwp⟩ := hk _ (.refl h.inv)
    refine h.set (hpr.inv_issue _ _ _ _ _ h.inv hc hq) (hwp _ _ hq)
      (fun j _ => disjoint_locksOf_nil _) fun j hj => .inr (.issue h.inv hj.symm hc hq)
  | @answer i q t k u hi hu =>
    have hk := h.thread i
    rw [hi] at hk
    exact h.set h.inv (hk _ (.refl h.inv) u hu) (fun j _ => disjoint_locksOf_nil _)
      fun _ _ => .inl rfl
  | @crash i =>
    exact h.set h.inv trivial (fun j _ => disjoint_locksOf_nil _) fun _ _ => .inl rfl
  | @env w' he =>
    have hinv := hpr.inv_env _ _ h.inv he
    exact ⟨hinv, fun j => (h.thread j).later ((Interferes.env h.inv he).later hinv), h.disjoint⟩

/-- Every reachable state is in order. -/
lemma Sys.Ok.reaches (hpr : pr.Sound sv) {s s' : Sys ι W σ ω ε ρ χ υ τ α} (h : s.Ok sv pr)
    (hs : Reaches sv s s') : s'.Ok sv pr := by
  induction hs with
  | refl => exact h
  | tail _ hstep ih => exact ih.step hpr hstep

/-- What a step does to the world of a system in order. -/
lemma Sys.Ok.world_cases {s s' : Sys ι W σ ω ε ρ χ υ τ α} (h : s.Ok sv pr) (hs : Step sv s s') :
    s'.world = s.world ∨
    (∃ c, sv.Admits s.world c ∧ pr.guar s.world c ∧ s'.world = sv.commit s.world c) ∨
    (∃ i q t, pr.callOk s.world i q ∧ sv.issue s.world i q t s'.world) ∨
    (∃ i p, sv.starts s.world i p s'.world) ∨
    sv.env s.world s'.world := by
  rcases hs.world_cases with he | ⟨i, body, r, p, k, hi, ha, he⟩ | ⟨i, q, k, t, hi, hq⟩ |
    ⟨i, p, -, hst⟩ | he
  · exact .inl he
  · exact .inr (.inl ⟨_, ⟨_, ha⟩, h.guar hi ⟨_, ha⟩, he⟩)
  · exact .inr (.inr (.inl ⟨i, q, t, h.callOk hi, hq⟩))
  · exact .inr (.inr (.inr (.inl ⟨i, p, hst⟩)))
  · exact .inr (.inr (.inr (.inr he)))

/-- A property of the world that every guaranteed commit, every request, every start and every step
of the world itself preserves holds in every reachable state. -/
lemma Sys.Ok.invariant (hpr : pr.Sound sv) {P : W → Prop}
    (hcommit : ∀ w c, pr.inv w → P w → sv.Admits w c → pr.guar w c → P (sv.commit w c))
    (hissue : ∀ w i q t w', pr.inv w → P w → pr.callOk w i q → sv.issue w i q t w' → P w')
    (hstart : ∀ w i p w', pr.inv w → P w → sv.starts w i p w' → P w')
    (henv : ∀ w w', pr.inv w → P w → sv.env w w' → P w')
    {s s' : Sys ι W σ ω ε ρ χ υ τ α} (h : s.Ok sv pr) (h0 : P s.world)
    (hs : Reaches sv s s') : P s'.world := by
  induction hs with
  | refl => exact h0
  | @tail a b hab hstep ih =>
    have hok := h.reaches hpr hab
    rcases hok.world_cases hstep with he | ⟨c, ha, hg, he⟩ | ⟨i, q, t, hc, hq⟩ | ⟨i, p, hst⟩ | he
    · exact he ▸ ih
    · exact he ▸ hcommit _ _ hok.inv ih ha hg
    · exact hissue _ _ _ _ _ hok.inv ih hc hq
    · exact hstart _ _ _ _ hok.inv ih hst
    · exact henv _ _ hok.inv ih he

end Sound

end Transactions
