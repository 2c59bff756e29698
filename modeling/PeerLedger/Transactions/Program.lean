import Mathlib.Data.List.Basic

/-!
# Programs that run database transactions

`Tx` is the body of one database transaction: a tree of statements, each of which reads what the
transaction sees, may fail, and adds rows to the transaction's own pending writes.  `Prog` is a
program of a service: it reads single statements outside any transaction, runs transactions, calls
other services, and finally returns or throws.

Both are trees, not functions of a state, so that the steps of many programs can be interleaved one
statement at a time.  `Tx.alone` and `Prog.alone` are the meaning of a program that nobody
interferes with.
-/

namespace Transactions

variable {σ ω κ ε ρ χ υ α β : Type}

/-- How the pending writes `ω` of a transaction act on the database contents `σ`, and which unique
index entries and row locks `κ` an uncommitted write occupies. -/
class Store (σ ω : Type) (κ : outParam Type) where
  /-- The contents after a write. -/
  apply : σ → ω → σ
  /-- The index entries and rows that the write occupies until its transaction ends. -/
  locks : ω → List κ

/-- What a transaction with pending writes `p` sees when `c` is committed. -/
def view [Store σ ω κ] (c : σ) (p : List ω) : σ := p.foldl Store.apply c

/-- The index entries and rows that pending writes occupy. -/
def locksOf [Store σ ω κ] (p : List ω) : List κ := p.flatMap (Store.locks σ)

@[simp]
lemma view_nil [Store σ ω κ] (c : σ) : view c ([] : List ω) = c := rfl

@[simp]
lemma view_cons [Store σ ω κ] (c : σ) (x : ω) (p : List ω) :
    view c (x :: p) = view (Store.apply c x) p := rfl

lemma view_append [Store σ ω κ] (c : σ) (p q : List ω) : view c (p ++ q) = view (view c p) q :=
  List.foldl_append

/-- The body of a transaction: it returns, throws (and rolls back), or executes a statement.  A
statement computes its writes from what the transaction sees and continues from the same view. -/
inductive Tx (σ ω ε ρ : Type) where
  | ret (r : ρ)
  | abort (e : ε)
  | stmt (run : σ → Except ε (List ω)) (next : σ → Tx σ ω ε ρ)

namespace Tx

/-- Sequencing of transaction bodies. -/
def bind : Tx σ ω ε α → (α → Tx σ ω ε β) → Tx σ ω ε β
  | .ret a, f => f a
  | .abort e, _ => .abort e
  | .stmt run next, f => .stmt run fun v => (next v).bind f

instance : Monad (Tx σ ω ε) where
  pure := Tx.ret
  bind := Tx.bind

@[simp]
lemma pure_eq (a : α) : (pure a : Tx σ ω ε α) = .ret a := rfl

@[simp]
lemma bind_eq (x : Tx σ ω ε α) (f : α → Tx σ ω ε β) : x >>= f = x.bind f := rfl

@[simp]
lemma ret_bind (a : α) (f : α → Tx σ ω ε β) : (Tx.ret a : Tx σ ω ε α).bind f = f a := rfl

@[simp]
lemma abort_bind (e : ε) (f : α → Tx σ ω ε β) : (Tx.abort e : Tx σ ω ε α).bind f = .abort e := rfl

/-- A reading statement. -/
def query (f : σ → α) : Tx σ ω ε α := .stmt (fun _ => .ok []) fun v => .ret (f v)

/-- A writing statement, which fails or yields the rows that it writes. -/
def write (f : σ → Except ε (List ω)) : Tx σ ω ε Unit := .stmt f fun _ => .ret ()

/-- A computation in memory: it returns or throws. -/
def ofExcept : Except ε α → Tx σ ω ε α
  | .ok a => .ret a
  | .error e => .abort e

@[simp]
lemma ofExcept_ok (a : α) : (ofExcept (.ok a) : Tx σ ω ε α) = .ret a := rfl

@[simp]
lemma ofExcept_error (e : ε) : (ofExcept (.error e) : Tx σ ω ε α) = .abort e := rfl

/-- The body with every error that it throws rewritten by `f`. -/
def mapError (f : ε → ε) : Tx σ ω ε α → Tx σ ω ε α
  | .ret a => .ret a
  | .abort e => .abort (f e)
  | .stmt run next => .stmt (fun v => (run v).mapError f) fun v => (next v).mapError f

/-- The body run on the contents `c` with pending writes `p` while nobody else commits: its error,
or its result and its pending writes. -/
def alone [Store σ ω κ] (c : σ) : Tx σ ω ε α → List ω → Except ε (α × List ω)
  | .ret a, p => .ok (a, p)
  | .abort e, _ => .error e
  | .stmt run next, p =>
    match run (view c p) with
    | .error e => .error e
    | .ok ws => (next (view c p)).alone c (p ++ ws)

/-- Running a sequence alone runs its first part and then the rest. -/
lemma alone_bind [Store σ ω κ] (c : σ) (x : Tx σ ω ε α) (f : α → Tx σ ω ε β) (p : List ω) :
    (x.bind f).alone c p = (x.alone c p).bind fun r => (f r.1).alone c r.2 := by
  induction x generalizing p with
  | ret a => rfl
  | abort e => rfl
  | stmt run next ih =>
    simp only [bind, alone]
    cases run (view c p) with
    | error e => rfl
    | ok ws => exact ih _ _

/-- A body that runs alone only adds to its pending writes. -/
lemma alone_pending [Store σ ω κ] {c : σ} {x : Tx σ ω ε α} {a : α} {p q : List ω}
    (h : x.alone c p = .ok (a, q)) : ∃ ws, q = p ++ ws := by
  induction x generalizing p with
  | ret b =>
    cases h
    exact ⟨[], (List.append_nil _).symm⟩
  | abort e => cases h
  | stmt run next ih =>
    simp only [alone] at h
    split at h
    · cases h
    · obtain ⟨ws, rfl⟩ := ih _ h
      exact ⟨_, List.append_assoc ..⟩

/-- Running the first part alone, and then the rest. -/
lemma alone_bind_ok [Store σ ω κ] {c : σ} {x : Tx σ ω ε α} {f : α → Tx σ ω ε β} {p q : List ω}
    {a : α} {r : Except ε (β × List ω)} (hx : x.alone c p = .ok (a, q))
    (hf : (f a).alone c q = r) : (x.bind f).alone c p = r := by
  rw [alone_bind, hx]
  exact hf

/-- A sequence that succeeds alone: its first part does, and then the rest. -/
lemma alone_bind_eq_ok [Store σ ω κ] {c : σ} {x : Tx σ ω ε α} {f : α → Tx σ ω ε β} {p q : List ω}
    {b : β} (h : (x.bind f).alone c p = .ok (b, q)) :
    ∃ a p', x.alone c p = .ok (a, p') ∧ (f a).alone c p' = .ok (b, q) := by
  rw [alone_bind] at h
  cases hx : x.alone c p with
  | error e =>
    rw [hx] at h
    cases h
  | ok r =>
    rw [hx] at h
    exact ⟨r.1, r.2, rfl, h⟩

@[simp]
lemma alone_query [Store σ ω κ] (c : σ) (f : σ → α) (p : List ω) :
    (query f : Tx σ ω ε α).alone c p = .ok (f (view c p), p) := by
  simp [query, alone]

/-- A writing statement that succeeds alone. -/
lemma alone_write_eq_ok [Store σ ω κ] {c : σ} {f : σ → Except ε (List ω)} {p q : List ω} {u : Unit}
    (h : (write f : Tx σ ω ε Unit).alone c p = .ok (u, q)) :
    ∃ ws, f (view c p) = .ok ws ∧ q = p ++ ws := by
  simp only [write, alone] at h
  cases hf : f (view c p) with
  | error e =>
    rw [hf] at h
    cases h
  | ok ws =>
    rw [hf] at h
    cases h
    exact ⟨ws, rfl, rfl⟩

lemma alone_write [Store σ ω κ] (c : σ) (f : σ → Except ε (List ω)) (p : List ω) :
    (write f : Tx σ ω ε Unit).alone c p = (f (view c p)).map fun ws => ((), p ++ ws) := by
  simp only [write, alone]
  cases f (view c p) <;> rfl

lemma alone_ofExcept [Store σ ω κ] (c : σ) (x : Except ε α) (p : List ω) :
    (ofExcept x : Tx σ ω ε α).alone c p = x.map fun a => (a, p) := by
  cases x <;> rfl

lemma alone_ofExcept_eq_ok [Store σ ω κ] {c : σ} {x : Except ε α} {p q : List ω} {a : α}
    (h : (ofExcept x : Tx σ ω ε α).alone c p = .ok (a, q)) : x = .ok a ∧ q = p := by
  cases x with
  | error e => cases h
  | ok b =>
    cases h
    exact ⟨rfl, rfl⟩

lemma alone_mapError [Store σ ω κ] (c : σ) (f : ε → ε) (x : Tx σ ω ε α) (p : List ω) :
    (x.mapError f).alone c p = (x.alone c p).mapError f := by
  induction x generalizing p with
  | ret a => rfl
  | abort e => rfl
  | stmt run next ih =>
    simp only [mapError, alone]
    cases run (view c p) with
    | error e => rfl
    | ok ws => exact ih _ _

end Tx

/-- A program of a service.  `query` is a single reading statement outside any transaction,
`transaction` runs a body and continues with its result or its error, and `call` asks another
service. -/
inductive Prog (σ ω ε ρ χ υ α : Type) where
  | done (r : Except ε α)
  | query (k : Except ε σ → Prog σ ω ε ρ χ υ α)
  | transaction (body : Tx σ ω ε ρ) (k : Except ε ρ → Prog σ ω ε ρ χ υ α)
  | call (q : χ) (k : υ → Prog σ ω ε ρ χ υ α)

namespace Prog

/-- Sequencing with access to the outcome, error or not. -/
def attempt : Prog σ ω ε ρ χ υ α → (Except ε α → Prog σ ω ε ρ χ υ β) → Prog σ ω ε ρ χ υ β
  | .done r, f => f r
  | .query k, f => .query fun v => (k v).attempt f
  | .transaction body k, f => .transaction body fun r => (k r).attempt f
  | .call q k, f => .call q fun u => (k u).attempt f

/-- Sequencing: an error skips the rest. -/
def bind (x : Prog σ ω ε ρ χ υ α) (f : α → Prog σ ω ε ρ χ υ β) : Prog σ ω ε ρ χ υ β :=
  x.attempt fun
    | .ok a => f a
    | .error e => .done (.error e)

instance : Monad (Prog σ ω ε ρ χ υ) where
  pure a := .done (.ok a)
  bind := Prog.bind

instance : MonadExceptOf ε (Prog σ ω ε ρ χ υ) where
  throw e := .done (.error e)
  tryCatch x h := x.attempt fun
    | .ok a => .done (.ok a)
    | .error e => h e

/-- A reading statement outside any transaction. -/
def read (f : σ → α) : Prog σ ω ε ρ χ υ α := .query fun v => .done (v.map f)

/-- Run a transaction and return its result. -/
def run (body : Tx σ ω ε ρ) : Prog σ ω ε ρ χ υ ρ := .transaction body .done

/-- Ask another service and return its answer. -/
def ask (q : χ) : Prog σ ω ε ρ χ υ υ := .call q fun u => .done (.ok u)

/-- A program that asks nobody, run on the contents `c` while nobody else commits: its outcome and
the contents after it. -/
def alone [Store σ ω κ] : Prog σ ω ε ρ Empty υ α → σ → Except ε α × σ
  | .done r, c => (r, c)
  | .query k, c => (k (.ok c)).alone c
  | .transaction body k, c =>
    match body.alone c [] with
    | .ok (r, ws) => (k (.ok r)).alone (view c ws)
    | .error e => (k (.error e)).alone c
  | .call q _, _ => nomatch q

/-- A program run on the contents `c` while nobody else commits and the other service answers with
`answer`: its outcome and the contents after it. -/
def against [Store σ ω κ] (answer : χ → υ) : Prog σ ω ε ρ χ υ α → σ → Except ε α × σ
  | .done r, c => (r, c)
  | .query k, c => (k (.ok c)).against answer c
  | .transaction body k, c =>
    match body.alone c [] with
    | .ok (r, ws) => (k (.ok r)).against answer (view c ws)
    | .error e => (k (.error e)).against answer c
  | .call q k, c => (k (answer q)).against answer c

@[simp]
lemma pure_eq (a : α) : (pure a : Prog σ ω ε ρ χ υ α) = .done (.ok a) := rfl

@[simp]
lemma bind_eq (x : Prog σ ω ε ρ χ υ α) (f : α → Prog σ ω ε ρ χ υ β) : x >>= f = x.bind f := rfl

@[simp]
lemma throw_eq (e : ε) : (throw e : Prog σ ω ε ρ χ υ α) = .done (.error e) := rfl

/-- Running a program alone, and then the handler of its outcome. -/
lemma alone_attempt [Store σ ω κ] (x : Prog σ ω ε ρ Empty υ α)
    (f : Except ε α → Prog σ ω ε ρ Empty υ β) (c : σ) :
    (x.attempt f).alone c = (f (x.alone c).1).alone (x.alone c).2 := by
  induction x generalizing c with
  | done r => rfl
  | query k ih => exact ih _ c
  | transaction body k ih =>
    simp only [attempt, alone]
    cases body.alone c [] with
    | error e => exact ih _ c
    | ok r => exact ih _ _
  | call q k => exact nomatch q

/-- A sequence whose first part succeeds alone. -/
lemma alone_bind_ok [Store σ ω κ] {x : Prog σ ω ε ρ Empty υ α} {a : α} {c c' : σ}
    (hx : x.alone c = (.ok a, c')) (f : α → Prog σ ω ε ρ Empty υ β) :
    (x.bind f).alone c = (f a).alone c' := by
  rw [Prog.bind, alone_attempt, hx]

/-- A sequence whose first part throws alone. -/
lemma alone_bind_error [Store σ ω κ] {x : Prog σ ω ε ρ Empty υ α} {e : ε} {c c' : σ}
    (hx : x.alone c = (.error e, c')) (f : α → Prog σ ω ε ρ Empty υ β) :
    (x.bind f).alone c = (.error e, c') := by
  rw [Prog.bind, alone_attempt, hx]
  rfl

@[simp]
lemma alone_bind_read [Store σ ω κ] (f : σ → α) (g : α → Prog σ ω ε ρ Empty υ β) (c : σ) :
    ((read f).bind g).alone c = (g (f c)).alone c := rfl

@[simp]
lemma alone_bind_done [Store σ ω κ] (a : α) (g : α → Prog σ ω ε ρ Empty υ β) (c : σ) :
    ((Prog.done (.ok a) : Prog σ ω ε ρ Empty υ α).bind g).alone c = (g a).alone c := rfl

/-- A transaction that succeeds alone. -/
lemma alone_transaction [Store σ ω κ] {c : σ} {body : Tx σ ω ε ρ} {r : ρ} {ws : List ω}
    (h : body.alone c [] = .ok (r, ws)) (k : Except ε ρ → Prog σ ω ε ρ Empty υ α) :
    (Prog.transaction body k).alone c = (k (.ok r)).alone (view c ws) := by
  simp only [alone, h]

end Prog

end Transactions
