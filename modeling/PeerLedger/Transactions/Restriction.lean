import PeerLedger.Transactions.Machine

/-!
# Services within limits

`Service.restrict` lets a service start fewer programs and its surroundings do less; what it reaches,
the service reaches (`Reaches.of_restrict`).

`Limits` name the contents that programs find, and what they may write, reply and ask for when they
find such contents.  `Prog.Within` says that a program keeps to the limits, whatever else its
surroundings do; a service whose programs do so keeps every invariant that such commits and requests
keep (`Reaches.within`).
-/

namespace Transactions

variable {ι W σ ω κ ε ρ χ υ τ α β γ : Type}

/-! ### Fewer programs -/

/-- The service where fewer programs start and the surroundings do less. -/
def Service.restrict (sv : Service ι W σ ω ε ρ χ υ τ α)
    (starts : Prog σ ω ε ρ χ υ α → Prop) (env : W → W → Prop) : Service ι W σ ω ε ρ χ υ τ α :=
  { sv with
    starts := fun w i p w' => sv.starts w i p w' ∧ starts p
    env := fun w w' => sv.env w w' ∧ env w w' }

section Restrict

variable [DecidableEq ι] [Store σ ω κ] {sv : Service ι W σ ω ε ρ χ υ τ α}
  {s s' : Sys ι W σ ω ε ρ χ υ τ α} {starts starts' : Prog σ ω ε ρ χ υ α → Prop}
  {env env' : W → W → Prop}

/-- What starts and what the surroundings do can be weakened. -/
lemma Step.weaken {first first' : W → ι → Prog σ ω ε ρ χ υ α → W → Prop}
    (hfirst : ∀ w i p w', first w i p w' → first' w i p w')
    (henv : ∀ w w', env w w' → env' w w')
    (h : Step { sv with starts := first, env := env } s s') :
    Step { sv with starts := first', env := env' } s s' := by
  cases h with
  | start hi hs => exact .start hi (hfirst _ _ _ _ hs)
  | query hi => exact .query hi
  | queryFail hi he => exact .queryFail hi he
  | begin hi => exact .begin hi
  | stmt hi hrun hfree => exact .stmt hi hrun hfree
  | stmtFail hi hrun => exact .stmtFail hi hrun
  | abort hi => exact .abort hi
  | fail hi he => exact .fail hi he
  | commit hi ha => exact .commit hi ha
  | issue hi hq => exact .issue hi hq
  | answer hi hu => exact .answer hi hu
  | crash => exact .crash
  | env he => exact .env (henv _ _ he)

/-- A run of the restricted service is one of the service. -/
lemma Reaches.of_restrict (h : Reaches (sv.restrict starts env) s s') : Reaches sv s s' :=
  h.lift id fun _ _ => Step.weaken (fun _ _ _ _ hs => hs.1) fun _ _ he => he.1

/-- A run of the service with weaker restrictions. -/
lemma Reaches.restrict_mono (hstarts : ∀ p, starts p → starts' p)
    (henv : ∀ w w', env w w' → env' w w') (h : Reaches (sv.restrict starts env) s s') :
    Reaches (sv.restrict starts' env') s s' :=
  h.lift id fun _ _ => Step.weaken (fun _ _ _ _ hs => ⟨hs.1, hstarts _ hs.2⟩)
    fun _ _ he => ⟨he.1, henv _ _ he.2⟩

end Restrict

/-! ### Limits -/

variable [Store σ ω κ]

/-- The contents that programs find, and what they may write, reply and ask for.  Allowed writes keep
the contents. -/
structure Limits (σ ω κ ρ χ : Type) [Store σ ω κ] where
  contents : σ → Prop
  write : ω → Prop
  reply : ρ → Prop
  request : χ → Prop
  keeps : ∀ c y, contents c → write y → contents (Store.apply c y)

lemma Limits.view (L : Limits σ ω κ ρ χ) {c : σ} {ws : List ω} (hc : L.contents c)
    (hws : ∀ y ∈ ws, L.write y) : L.contents (view c ws) := by
  induction ws generalizing c with
  | nil => exact hc
  | cons y ws ih =>
    rw [view_cons]
    exact ih (L.keeps c y hc (hws y List.mem_cons_self))
      fun z hz => hws z (List.mem_cons_of_mem _ hz)

/-- The body keeps to the limits and returns what `Q` allows. -/
def Tx.Within (L : Limits σ ω κ ρ χ) (Q : β → Prop) : Tx σ ω ε β → Prop
  | .ret a => Q a
  | .abort _ => True
  | .stmt run next => ∀ v, L.contents v →
    (∀ ws, run v = .ok ws → ∀ y ∈ ws, L.write y) ∧ (next v).Within L Q

/-- The program keeps to the limits and returns what `Q` allows. -/
def Prog.Within (L : Limits σ ω κ ρ χ) (Q : β → Prop) : Prog σ ω ε ρ χ υ β → Prop
  | .done r => ∀ a, r = .ok a → Q a
  | .query k =>
    (∀ v, L.contents v → (k (.ok v)).Within L Q) ∧ ∀ e, (k (.error e)).Within L Q
  | .transaction body k => body.Within L L.reply ∧
    (∀ r, L.reply r → (k (.ok r)).Within L Q) ∧ ∀ e, (k (.error e)).Within L Q
  | .call q k => L.request q ∧ ∀ u, (k u).Within L Q

/-- What the thread has pending and still has to do keeps to the limits. -/
def Thread.Within (L : Limits σ ω κ ρ χ) : Thread σ ω ε ρ χ υ τ α → Prop
  | .idle => True
  | .dead => True
  | .run p => p.Within L fun _ => True
  | .inTx _ rest p k => rest.Within L L.reply ∧ (∀ y ∈ p, L.write y) ∧
    (∀ r, L.reply r → (k (.ok r)).Within L fun _ => True) ∧
    ∀ e, (k (.error e)).Within L fun _ => True
  | .waiting _ _ k => ∀ u, (k u).Within L fun _ => True

/-- Every thread keeps to the limits. -/
def Sys.Within (L : Limits σ ω κ ρ χ) (s : Sys ι W σ ω ε ρ χ υ τ α) : Prop :=
  ∀ i, (s.threads i).Within L

variable {L : Limits σ ω κ ρ χ} {Q : β → Prop}

/-! ### Programs within limits -/

namespace Tx

lemma Within.bind {P : γ → Prop} {x : Tx σ ω ε γ} {f : γ → Tx σ ω ε β} (hx : x.Within L P)
    (hf : ∀ a, P a → (f a).Within L Q) : (x.bind f).Within L Q := by
  induction x with
  | ret a => exact hf a hx
  | abort e => trivial
  | stmt run next ih => exact fun v hv => ⟨(hx v hv).1, ih v (hx v hv).2⟩

lemma within_write {f : σ → Except ε (List ω)} {P : Unit → Prop}
    (hf : ∀ v ws, f v = .ok ws → ∀ y ∈ ws, L.write y) (hP : P ()) :
    (write f : Tx σ ω ε Unit).Within L P :=
  fun v _ => ⟨hf v, hP⟩

end Tx

namespace Prog

lemma Within.attempt {P : γ → Prop} {x : Prog σ ω ε ρ χ υ γ} {f : Except ε γ → Prog σ ω ε ρ χ υ β}
    (hx : x.Within L P) (hok : ∀ a, P a → (f (.ok a)).Within L Q)
    (herror : ∀ e, (f (.error e)).Within L Q) : (x.attempt f).Within L Q := by
  induction x with
  | done r =>
    cases r with
    | ok a => exact hok a (hx a rfl)
    | error e => exact herror e
  | query k ih => exact ⟨fun v hv => ih _ (hx.1 v hv), fun e => ih _ (hx.2 e)⟩
  | transaction body k ih =>
    exact ⟨hx.1, fun r hr => ih _ (hx.2.1 r hr), fun e => ih _ (hx.2.2 e)⟩
  | call q k ih => exact ⟨hx.1, fun u => ih _ (hx.2 u)⟩

lemma within_error (e : ε) : (.done (.error e) : Prog σ ω ε ρ χ υ β).Within L Q :=
  fun _ h => nomatch h

lemma within_pure {a : β} (h : Q a) : (pure a : Prog σ ω ε ρ χ υ β).Within L Q := by
  intro b hb
  obtain rfl := Except.ok.inj hb
  exact h

lemma Within.bind {P : γ → Prop} {x : Prog σ ω ε ρ χ υ γ} {f : γ → Prog σ ω ε ρ χ υ β}
    (hx : x.Within L P) (hf : ∀ a, P a → (f a).Within L Q) : (x.bind f).Within L Q :=
  hx.attempt hf fun e => within_error e

lemma within_run {body : Tx σ ω ε ρ} (h : body.Within L L.reply) :
    (run body : Prog σ ω ε ρ χ υ ρ).Within L L.reply := by
  refine ⟨h, fun r hr => ?_, fun e => within_error e⟩
  intro a ha
  obtain rfl := Except.ok.inj ha
  exact hr

end Prog

/-! ### Runs -/

section Step

variable [DecidableEq ι] {sv : Service ι W σ ω ε ρ χ υ τ α} {s s' : Sys ι W σ ω ε ρ χ υ τ α}

lemma Sys.Within.set (h : s.Within L) {i : ι} {t : Thread σ ω ε ρ χ υ τ α} (w : W)
    (ht : t.Within L) : (s.set i t w).Within L := by
  intro j
  by_cases hj : j = i
  · subst hj
    rwa [Sys.set_threads_self]
  · rw [Sys.set_threads_ne s hj]
    exact h j

/-- An invariant that the programs of the service keep: they start within limits, and the contents,
the commits and the requests are within them. -/
structure Service.Keeps (sv : Service ι W σ ω ε ρ χ υ τ α) (L : Limits σ ω κ ρ χ) (I : W → Prop) :
    Prop where
  contents : ∀ w, I w → L.contents (sv.db w)
  starts : ∀ w i p w', I w → sv.starts w i p w' → (p.Within L fun _ => True) ∧ I w'
  commit : ∀ w c, I w → (∀ y ∈ c.writes, L.write y) → I (sv.commit w c)
  issue : ∀ w i q t w', I w → L.request q → sv.issue w i q t w' → I w'
  env : ∀ w w', I w → sv.env w w' → I w'

lemma Sys.Within.step {I : W → Prop} (hsv : sv.Keeps L I) (h : s.Within L) (hI : I s.world)
    (hs : Step sv s s') : s'.Within L ∧ I s'.world := by
  have hthread : ∀ {i t}, s.threads i = t → t.Within L := fun {i _} hi => hi ▸ h i
  cases hs with
  | start hi hst =>
    obtain ⟨hp, hw⟩ := hsv.starts _ _ _ _ hI hst
    exact ⟨h.set _ hp, hw⟩
  | query hi => exact ⟨h.set _ ((hthread hi).1 _ (hsv.contents _ hI)), hI⟩
  | queryFail hi he => exact ⟨h.set _ ((hthread hi).2 _), hI⟩
  | begin hi =>
    exact ⟨h.set _ ⟨(hthread hi).1, fun _ hy => (List.not_mem_nil hy).elim, (hthread hi).2⟩, hI⟩
  | stmt hi hrun hfree =>
    obtain ⟨hrest, hpending, hk⟩ := hthread hi
    obtain ⟨hws, hnext⟩ := hrest _ (L.view (hsv.contents _ hI) hpending)
    refine ⟨h.set _ ⟨hnext, fun y hy => ?_, hk⟩, hI⟩
    rcases List.mem_append.mp hy with hy | hy
    · exact hpending y hy
    · exact hws _ hrun y hy
  | stmtFail hi hrun => exact ⟨h.set _ ((hthread hi).2.2.2 _), hI⟩
  | abort hi => exact ⟨h.set _ ((hthread hi).2.2.2 _), hI⟩
  | fail hi he => exact ⟨h.set _ ((hthread hi).2.2.2 _), hI⟩
  | commit hi ha =>
    obtain ⟨hr, hpending, hok, -⟩ := hthread hi
    exact ⟨h.set _ (hok _ hr), hsv.commit _ _ hI hpending⟩
  | issue hi hq => exact ⟨h.set _ (hthread hi).2, hsv.issue _ _ _ _ _ hI (hthread hi).1 hq⟩
  | answer hi hu => exact ⟨h.set _ (hthread hi _), hI⟩
  | crash => exact ⟨h.set _ trivial, hI⟩
  | env he => exact ⟨h, hsv.env _ _ hI he⟩

/-- An invariant that the programs of the service keep holds in every reachable state. -/
theorem Reaches.within {I : W → Prop} {w : W} (hsv : sv.Keeps L I) (hw : I w)
    (hs : Reaches sv (Sys.init w) s) : I s.world := by
  have hall : s.Within L ∧ I s.world := by
    induction hs with
    | refl => exact ⟨fun _ => trivial, hw⟩
    | tail _ hstep ih => exact ih.1.step hsv ih.2 hstep
  exact hall.2

end Step

end Transactions
