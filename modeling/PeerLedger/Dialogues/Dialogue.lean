import Mathlib.Order.Defs.PartialOrder

/-!
# Programs that talk to a service

`Dialogue` is a program that asks a service, goes on with the answer, and finally returns or throws.
Time passes between a question and its answer, so a program is judged in a state of the world that
only grows: `Rules` say what may be asked in a state and how the service can answer in a state, and
`Meets` is the weakest precondition of a program relative to them.
-/

namespace Dialogues

variable {χ : Type} {υ : χ → Type} {ε α β W : Type}

/-- A program that asks questions `q`, each of which is answered with some `υ q`. -/
inductive Dialogue (χ : Type) (υ : χ → Type) (ε α : Type) where
  | done (r : Except ε α)
  | ask (q : χ) (k : υ q → Dialogue χ υ ε α)

namespace Dialogue

/-- Sequencing with access to the outcome, error or not. -/
def attempt : Dialogue χ υ ε α → (Except ε α → Dialogue χ υ ε β) → Dialogue χ υ ε β
  | .done r, f => f r
  | .ask q k, f => .ask q fun v => (k v).attempt f

/-- Sequencing: an error skips the rest. -/
def bind (x : Dialogue χ υ ε α) (f : α → Dialogue χ υ ε β) : Dialogue χ υ ε β :=
  x.attempt fun
    | .ok a => f a
    | .error e => .done (.error e)

/-- The handler `f` of the errors of a program. -/
def orElse (x : Dialogue χ υ ε α) (f : ε → Dialogue χ υ ε α) : Dialogue χ υ ε α :=
  x.attempt fun
    | .ok a => .done (.ok a)
    | .error e => f e

instance : Monad (Dialogue χ υ ε) where
  pure a := .done (.ok a)
  bind := Dialogue.bind

instance : MonadExceptOf ε (Dialogue χ υ ε) where
  throw e := .done (.error e)
  tryCatch := orElse

end Dialogue

/-! ### What a program does -/

/-- What may be asked, and how it can be answered, in the states of a world that only grows. -/
structure Rules [Preorder W] (χ : Type) (υ : χ → Type) where
  asks : W → χ → Prop
  answers : W → (q : χ) → υ q → Prop
  asks_mono : ∀ {w w' q}, w ≤ w' → asks w q → asks w' q

variable [Preorder W] (rules : Rules (W := W) χ υ)

namespace Dialogue

/-- From the state `w` on, the program asks only what it may, and ends with what `post` says. -/
def Meets (post : W → Except ε α → Prop) : W → Dialogue χ υ ε α → Prop
  | w, .done r => post w r
  | w, .ask q k => rules.asks w q ∧
      ∀ w', w ≤ w' → ∀ v, rules.answers w' q v → (k v).Meets post w'

variable {rules} {post : W → Except ε α → Prop} {w w' : W}

@[simp]
lemma meets_ask {q : χ} {k : υ q → Dialogue χ υ ε α} :
    (Dialogue.ask q k).Meets rules post w ↔ rules.asks w q ∧
      ∀ w', w ≤ w' → ∀ v, rules.answers w' q v → (k v).Meets rules post w' := Iff.rfl

/-- A program that is met in a state is met in every later one. -/
lemma Meets.mono {x : Dialogue χ υ ε α} (h : x.Meets rules post w) (hw : w ≤ w')
    (hpost : ∀ r, post w r → post w' r) : x.Meets rules post w' := by
  cases x with
  | done r => exact hpost r h
  | ask q k => exact ⟨rules.asks_mono hw h.1, fun w'' hw'' => h.2 w'' (le_trans hw hw'')⟩

/-- A program that is met ends with whatever its outcome implies. -/
lemma Meets.imp {post' : W → Except ε α → Prop} {x : Dialogue χ υ ε α}
    (h : x.Meets rules post w) (hpost : ∀ w r, post w r → post' w r) : x.Meets rules post' w := by
  induction x generalizing w with
  | done r => exact hpost w r h
  | ask q k ih => exact ⟨h.1, fun w' hw v hv => ih v (h.2 w' hw v hv)⟩

/-- The program goes on after its outcome. -/
lemma Meets.attempt {post' : W → Except ε β → Prop} {x : Dialogue χ υ ε α}
    {f : Except ε α → Dialogue χ υ ε β} (h : x.Meets rules post w)
    (hf : ∀ w', w ≤ w' → ∀ r, post w' r → (f r).Meets rules post' w') :
    (x.attempt f).Meets rules post' w := by
  induction x generalizing w with
  | done r => exact hf w le_rfl r h
  | ask q k ih =>
    refine ⟨h.1, fun w' hw v hv => ih v (h.2 w' hw v hv) fun w'' hw'' => ?_⟩
    exact hf w'' (le_trans hw hw'')

/-- A sequence: its first part returns what the rest can start with. -/
lemma Meets.bind {post' : W → Except ε β → Prop} {x : Dialogue χ υ ε α}
    {f : α → Dialogue χ υ ε β} (h : x.Meets rules post w)
    (hf : ∀ w', w ≤ w' → ∀ a, post w' (.ok a) → (f a).Meets rules post' w')
    (herror : ∀ w', w ≤ w' → ∀ e, post w' (.error e) → post' w' (.error e)) :
    (x.bind f).Meets rules post' w := by
  refine h.attempt fun w' hw r hr => ?_
  rcases r with e | a
  · exact herror w' hw e hr
  · exact hf w' hw a hr

/-- A program whose errors are handled. -/
lemma Meets.orElse {x : Dialogue χ υ ε α} {f : ε → Dialogue χ υ ε α} (h : x.Meets rules post w)
    (hf : ∀ w', w ≤ w' → ∀ e, post w' (.error e) → (f e).Meets rules post w') :
    (x.orElse f).Meets rules post w := by
  refine h.attempt fun w' hw r hr => ?_
  rcases r with e | a
  · exact hf w' hw e hr
  · exact hr

end Dialogue

end Dialogues
