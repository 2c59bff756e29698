import PeerLedger.Transactions.Statements

/-!
# Programs in a larger store

A service whose tables are only a part of the tables of a database: `Tx.embed` and `Prog.embed` run a
program of the service on its part.  The program sees its part, and writes to its part what it writes
by itself (`Prog.obeys_embed`).
-/

namespace Transactions

variable {σ ω κ σ' ω' κ' ε ρ χ υ α β : Type}

/-- A store that is a part of another one. -/
structure Embedding (σ ω κ σ' ω' κ' : Type) [Store σ ω κ] [Store σ' ω' κ'] where
  /-- The part of the contents. -/
  part : σ' → σ
  /-- A write to the part. -/
  write : ω → ω'
  /-- A write to the part does there what it does by itself, and so programs see their own writes. -/
  part_apply : ∀ c x, part (Store.apply c (write x)) = Store.apply (part c) x

variable [Store σ ω κ] [Store σ' ω' κ'] (e : Embedding σ ω κ σ' ω' κ')

/-- The body on a part of the store. -/
def Tx.embed : Tx σ ω ε α → Tx σ' ω' ε α
  | .ret a => .ret a
  | .abort err => .abort err
  | .stmt run next =>
    .stmt (fun v => (run (e.part v)).map (·.map e.write)) fun v => (next (e.part v)).embed

/-- The program on a part of the store. -/
def Prog.embed : Prog σ ω ε ρ χ υ α → Prog σ' ω' ε ρ χ υ α
  | .done r => .done r
  | .query k => .query fun v => (k (v.map e.part)).embed
  | .transaction body k => .transaction (body.embed e) fun r => (k r).embed
  | .call q k => .call q fun u => (k u).embed

/-- The statements of an embedded body write to the part, what they write by themselves. -/
lemma Tx.obeys_embed {P : ω → Prop} {x : Tx σ ω ε α} (h : x.Obeys fun _ ws => ∀ y ∈ ws, P y) :
    (x.embed e).Obeys fun _ ws => ∀ z ∈ ws, ∃ y, z = e.write y ∧ P y := by
  induction x with
  | ret a => trivial
  | abort err => trivial
  | stmt run next ih =>
    refine fun v => ⟨fun ws hws z hz => ?_, ih _ (h _).2⟩
    have hrun := (h (e.part v)).1
    dsimp only at hws
    cases hr : run (e.part v) with
    | error err =>
      rw [hr] at hws
      cases hws
    | ok ws₀ =>
      rw [hr] at hws
      obtain rfl := Except.ok.inj hws
      obtain ⟨y, hy, rfl⟩ := List.mem_map.mp hz
      exact ⟨y, rfl, hrun ws₀ hr y hy⟩

/-- The statements of an embedded program write to the part, what they write by themselves. -/
lemma Prog.obeys_embed {P : ω → Prop} {x : Prog σ ω ε ρ χ υ α}
    (h : x.Obeys fun _ ws => ∀ y ∈ ws, P y) :
    (x.embed e).Obeys fun _ ws => ∀ z ∈ ws, ∃ y, z = e.write y ∧ P y := by
  induction x with
  | done r => trivial
  | query k ih => exact fun v => ih _ (h _)
  | transaction body k ih => exact ⟨Tx.obeys_embed e h.1, fun r => ih r (h.2 r)⟩
  | call q k ih => exact fun u => ih u (h u)

end Transactions
