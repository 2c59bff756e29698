import PeerLedger.Transactions.RelyGuarantee

/-!
# One service, other programs

A service can offer other programs than the ones that a protocol was proved for.  As long as a start
does to the world what one of the known starts does, the programs interfere with each other no more
than before (`Later.of_offering`): what was proved of a program stays true among the new ones
(`Prog.wp_offering`), and the invariant and the guarantee need no second proof
(`Protocol.Sound.offering`).
-/

namespace Transactions

variable {ι W σ ω κ ε ρ χ υ τ α β γ : Type}

/-- The service with other programs. -/
def Service.offering (sv : Service ι W σ ω ε ρ χ υ τ α)
    (starts : W → ι → Prog σ ω ε ρ χ υ β → W → Prop) : Service ι W σ ω ε ρ χ υ τ β where
  db := sv.db
  commit := sv.commit
  admits := sv.admits
  fails := sv.fails
  issue := sv.issue
  answer := sv.answer
  starts := starts
  env := sv.env

/-- The protocol with another postcondition. -/
def Protocol.ensuring (pr : Protocol ι W σ ω ε ρ χ α) (post : W → ι → Except ε β → Prop) :
    Protocol ι W σ ω ε ρ χ β where
  inv := pr.inv
  guar := pr.guar
  callOk := pr.callOk
  post := post

variable [Store σ ω κ] {sv : Service ι W σ ω ε ρ χ υ τ α} {pr : Protocol ι W σ ω ε ρ χ α}
  {starts : W → ι → Prog σ ω ε ρ χ υ β → W → Prop} {post : W → ι → Except ε β → Prop} {i : ι}

/-- Every start does to the world what a start of the service does. -/
def Service.Covers (sv : Service ι W σ ω ε ρ χ υ τ α)
    (starts : W → ι → Prog σ ω ε ρ χ υ β → W → Prop) : Prop :=
  ∀ w i p w', starts w i p w' → ∃ q, sv.starts w i q w'

lemma Interferes.of_offering (hcovers : sv.Covers starts) {p : List ω} {w w' : W}
    (h : Interferes (sv.offering starts) (pr.ensuring post) i p w w') :
    Interferes sv pr i p w w' := by
  cases h with
  | env hinv he => exact .env hinv he
  | commit hinv hne hdisj hp ha hg => exact .commit hinv hne hdisj hp ha hg
  | issue hinv hne hc hq => exact .issue hinv hne hc hq
  | start hinv hne hs =>
    obtain ⟨q, hq⟩ := hcovers _ _ _ _ hs
    exact .start hinv hne hq

/-- There is no more interference than among the programs of the service. -/
lemma Later.of_offering (hcovers : sv.Covers starts) {p : List ω} {w w' : W}
    (h : Later (sv.offering starts) (pr.ensuring post) i p w w') : Later sv pr i p w w' :=
  ⟨h.1.lift id fun _ _ => Interferes.of_offering hcovers, h.2⟩

/-- A transaction body keeps its weakest precondition among other programs. -/
lemma Tx.wp_offering (hcovers : sv.Covers starts) {Q : W → List ω → γ → Prop} {E : W → ε → Prop}
    {x : Tx σ ω ε γ} {w : W} {p : List ω} (h : x.wp sv pr i Q E w p) :
    x.wp (sv.offering starts) (pr.ensuring post) i Q E w p := by
  induction x generalizing w p with
  | ret r => exact h
  | abort e => exact h
  | stmt run next ih =>
    intro w' hw'
    have hnext := h w' (hw'.of_offering hcovers)
    have hdb : (sv.offering starts).db w' = sv.db w' := rfl
    rw [hdb]
    revert hnext
    cases run (view (sv.db w') p) with
    | error e => exact id
    | ok ws => exact ih _

/-- A program keeps its weakest precondition among other programs. -/
lemma Prog.wp_offering (hcovers : sv.Covers starts) {Φ : W → Except ε γ → Prop}
    {x : Prog σ ω ε ρ χ υ γ} {w : W} (h : x.wp sv pr i Φ w) :
    x.wp (sv.offering starts) (pr.ensuring post) i Φ w := by
  induction x generalizing w with
  | done r => exact h
  | query k ih =>
    intro w' hw'
    obtain ⟨hok, herror⟩ := h w' (hw'.of_offering hcovers)
    exact ⟨ih _ hok, fun e he => ih _ (herror e he)⟩
  | transaction body k ih =>
    intro w' hw'
    obtain ⟨hbody, herror⟩ := h w' (hw'.of_offering hcovers)
    refine ⟨Tx.wp_mono (fun w p r hQ w'' hw'' ha => ?_) (fun w e => ih _)
      (Tx.wp_offering hcovers hbody), fun e he => ih _ (herror e he)⟩
    obtain ⟨hguar, hk⟩ := hQ w'' (hw''.of_offering hcovers) ha
    exact ⟨hguar, ih _ hk⟩
  | call q k ih =>
    intro w' hw'
    obtain ⟨hcall, hanswer⟩ := h w' (hw'.of_offering hcovers)
    refine ⟨hcall, fun t w'' hq v hv u hu => ih _ ?_⟩
    exact hanswer t w'' hq v (hv.of_offering hcovers) u hu

/-- The programs of the service may be replaced by others that meet the postcondition. -/
theorem Protocol.Sound.offering (hpr : pr.Sound sv) (hcovers : sv.Covers starts)
    (hwp : ∀ w i p w', pr.inv w → starts w i p w' →
      p.wp sv pr i (fun w r => ∀ w', Later sv pr i [] w w' → post w' i r) w') :
    (pr.ensuring post).Sound (sv.offering starts) where
  inv_env := hpr.inv_env
  inv_commit := hpr.inv_commit
  inv_issue := hpr.inv_issue
  inv_start w i p w' hinv hs := by
    obtain ⟨q, hq⟩ := hcovers w i p w' hs
    exact hpr.inv_start w i q w' hinv hq
  start_wp w i p w' hinv hs := by
    refine Prog.wp_mono (fun w r hfinal w' hw' => ?_) (Prog.wp_offering hcovers (hwp w i p w' hinv hs))
    exact hfinal w' (hw'.of_offering hcovers)

/-! ### A program in the middle of a run -/

section Running

/-- What is known of a thread stays true among other programs. -/
lemma Thread.Ok.offering {starts : W → ι → Prog σ ω ε ρ χ υ α → W → Prop}
    {post : W → ι → Except ε α → Prop} (hcovers : sv.Covers starts)
    (hpost : ∀ w r, pr.final sv i w r → ∀ w', Later sv pr i [] w w' → post w' i r)
    {t : Thread σ ω ε ρ χ υ τ α} {w : W} (h : t.Ok sv pr i w) :
    t.Ok (sv.offering starts) (pr.ensuring post) i w := by
  have hprog : ∀ (x : Prog σ ω ε ρ χ υ α) w, x.wp sv pr i (pr.final sv i) w →
      x.wp (sv.offering starts) (pr.ensuring post) i
        ((pr.ensuring post).final (sv.offering starts) i) w := fun x w hx =>
    Prog.wp_mono (fun w r hr w' hw' => hpost w r hr w' (hw'.of_offering hcovers))
      (Prog.wp_offering hcovers hx)
  cases t with
  | idle => trivial
  | dead => trivial
  | run p => exact hprog p w h
  | inTx body rest p k =>
    refine ⟨Tx.wp_mono (fun w p r hQ w' hw' ha => ?_) (fun w e => hprog _ w)
      (Tx.wp_offering hcovers h.1), fun e he => hprog _ w (h.2 e he)⟩
    obtain ⟨hguar, hk⟩ := hQ w' (hw'.of_offering hcovers) ha
    exact ⟨hguar, hprog _ _ hk⟩
  | waiting q t k => exact fun w' hw' u hu => hprog _ _ (h w' (hw'.of_offering hcovers) u hu)

variable [DecidableEq ι] {s s' : Sys ι W σ ω ε ρ χ υ τ α}

/-- The starts of the threads other than `i`. -/
def Service.startsBut (sv : Service ι W σ ω ε ρ χ υ τ α) (i : ι) :
    W → ι → Prog σ ω ε ρ χ υ α → W → Prop :=
  fun w j p w' => j ≠ i ∧ sv.starts w j p w'

/-- A thread that has started does not start again. -/
lemma Step.startsBut (h : Step sv s s') (hi : s.threads i ≠ .idle) :
    Step (sv.offering (sv.startsBut i)) s s' ∧ s'.threads i ≠ .idle := by
  have hset : ∀ j t w, t ≠ Thread.idle → (s.set j t w).threads i ≠ .idle := by
    intro j t w ht
    by_cases hj : i = j
    · subst hj
      rwa [Sys.set_threads_self]
    · rwa [Sys.set_threads_ne s hj]
  cases h with
  | start hj hs =>
    refine ⟨.start hj ⟨fun heq => hi (heq ▸ hj), hs⟩, hset _ _ _ (by simp)⟩
  | query hj => exact ⟨.query hj, hset _ _ _ (by simp)⟩
  | queryFail hj he => exact ⟨.queryFail hj he, hset _ _ _ (by simp)⟩
  | begin hj => exact ⟨.begin hj, hset _ _ _ (by simp)⟩
  | stmt hj hrun hfree => exact ⟨.stmt hj hrun hfree, hset _ _ _ (by simp)⟩
  | stmtFail hj hrun => exact ⟨.stmtFail hj hrun, hset _ _ _ (by simp)⟩
  | abort hj => exact ⟨.abort hj, hset _ _ _ (by simp)⟩
  | fail hj he => exact ⟨.fail hj he, hset _ _ _ (by simp)⟩
  | commit hj ha => exact ⟨.commit hj ha, hset _ _ _ (by simp)⟩
  | issue hj hq => exact ⟨.issue hj hq, hset _ _ _ (by simp)⟩
  | answer hj hu => exact ⟨.answer hj hu, hset _ _ _ (by simp)⟩
  | crash => exact ⟨.crash, hset _ _ _ (by simp)⟩
  | env he => exact ⟨.env he, hi⟩

/-- What a program establishes from the middle of a run on: if it meets its weakest precondition
there, then its postcondition holds where it is done. -/
theorem Sys.Ok.done (hpr : pr.Sound sv) (h : s.Ok sv pr) {p : Prog σ ω ε ρ χ υ α}
    (hi : s.threads i = .run p) {Φ : W → Except ε α → Prop}
    (hstable : ∀ w w' r, Later sv pr i [] w w' → Φ w r → Φ w' r) (hwp : p.wp sv pr i Φ s.world)
    (hs : Reaches sv s s') {r : Except ε α} (hdone : s'.threads i = .run (.done r)) :
    Φ s'.world r := by
  have hcovers : sv.Covers (sv.startsBut i) := fun w j q w' hst => ⟨q, hst.2⟩
  -- only thread `i` owes the postcondition, and no thread `i` starts any more
  set post : W → ι → Except ε α → Prop := fun w j r => j = i → Φ w r
  have hpr' : (pr.ensuring post).Sound (sv.offering (sv.startsBut i)) := by
    refine hpr.offering hcovers fun w j q w' hinv hst => ?_
    refine Prog.wp_mono (fun _ _ _ _ _ hji => absurd hji hst.1) (hpr.start_wp w j q w' hinv hst.2)
  have hok : s.Ok (sv.offering (sv.startsBut i)) (pr.ensuring post) := by
    refine ⟨h.inv, fun j => ?_, h.disjoint⟩
    by_cases hj : j = i
    · subst hj
      rw [hi]
      refine Prog.wp_mono (fun w r hr w' hw' _ => ?_) (Prog.wp_offering hcovers hwp)
      exact hstable w w' r (hw'.of_offering hcovers) hr
    · exact (h.thread j).offering hcovers fun _ _ _ _ _ hji => absurd hji hj
  have hreaches : Reaches (sv.offering (sv.startsBut i)) s s' ∧ s'.threads i ≠ .idle := by
    clear hdone
    induction hs with
    | refl => exact ⟨.refl, by simp [hi]⟩
    | tail _ hstep ih =>
      obtain ⟨hstep', hidle⟩ := hstep.startsBut ih.2
      exact ⟨ih.1.tail hstep', hidle⟩
  exact (hok.reaches hpr' hreaches.1).post hdone rfl

end Running

end Transactions
