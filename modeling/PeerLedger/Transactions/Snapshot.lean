import PeerLedger.Transactions.Solo

/-!
# Transactions that read a snapshot

`Tx.serializable` runs a body at the isolation level SERIALIZABLE of PostgreSQL inside the machine of
READ COMMITTED: the body reads what was committed at its start together with its own writes, and a
write to a row that was changed since then fails.  The aborts with which PostgreSQL also prevents
write skew are errors of statements, which can occur at any time.
-/

namespace Transactions

variable {ι W σ ω κ ε ρ χ υ τ α : Type} [Store σ ω κ]

namespace Tx

/-- The rest of a body that reads the snapshot `snap` and has the pending writes `p`.  A statement
whose writes are in `conflict` with what has been committed since fails with `e`. -/
def atSnapshot (conflict : σ → σ → List ω → Bool) (e : ε) (snap : σ) :
    Tx σ ω ε α → List ω → Tx σ ω ε α
  | .ret a, _ => .ret a
  | .abort e', _ => .abort e'
  | .stmt run next, p =>
    match run (view snap p) with
    | .error e' => .abort e'
    | .ok ws =>
      .stmt (fun now => if conflict (view snap p) now ws then .error e else .ok ws) fun _ =>
        (next (view snap p)).atSnapshot conflict e snap (p ++ ws)

/-- The body at the isolation level SERIALIZABLE: its first statement takes the snapshot. -/
def serializable (conflict : σ → σ → List ω → Bool) (e : ε) (body : Tx σ ω ε α) : Tx σ ω ε α :=
  .stmt (fun _ => .ok []) fun snap => body.atSnapshot conflict e snap []

variable {conflict : σ → σ → List ω → Bool} {e : ε}

/-- While nobody else commits, the snapshot is what is committed. -/
lemma alone_atSnapshot (hconflict : ∀ c ws, conflict c c ws = false) (c : σ) (x : Tx σ ω ε α)
    (p : List ω) : (x.atSnapshot conflict e c p).alone c p = x.alone c p := by
  induction x generalizing p with
  | ret a => rfl
  | abort e' => rfl
  | stmt run next ih =>
    simp only [atSnapshot, alone]
    cases run (view c p) with
    | error e' => rfl
    | ok ws =>
      simp only [alone, hconflict, Bool.false_eq_true, if_false]
      exact ih _ _

/-- Alone, a body does at SERIALIZABLE what it does at READ COMMITTED. -/
lemma alone_serializable (hconflict : ∀ c ws, conflict c c ws = false) (c : σ) (x : Tx σ ω ε α) :
    (serializable conflict e x).alone c [] = x.alone c [] :=
  alone_atSnapshot hconflict c x []

/-- A statement of a body that reads a snapshot: it is one of the body, it is in no conflict, and the
rest goes on as the body would go on alone on the snapshot. -/
lemma atSnapshot_stmt {snap : σ} {x : Tx σ ω ε α} {p : List ω} {run : σ → Except ε (List ω)}
    {next : σ → Tx σ ω ε α} (h : x.atSnapshot conflict e snap p = .stmt run next) {now : σ}
    {ws : List ω} (hrun : run now = .ok ws) :
    conflict (view snap p) now ws = false ∧ ∃ rest : Tx σ ω ε α,
      next now = rest.atSnapshot conflict e snap (p ++ ws) ∧
      rest.alone snap (p ++ ws) = x.alone snap p := by
  cases x with
  | ret a => cases h
  | abort e' => cases h
  | stmt run' next' =>
    simp only [atSnapshot] at h
    cases hrun' : run' (view snap p) with
    | error e' =>
      rw [hrun'] at h
      cases h
    | ok ws' =>
      rw [hrun'] at h
      obtain ⟨rfl, rfl⟩ := Tx.stmt.inj h
      dsimp only at hrun
      split_ifs at hrun with hconflict
      obtain rfl := Except.ok.inj hrun
      refine ⟨by simpa using hconflict, next' (view snap p), rfl, ?_⟩
      simp only [alone, hrun']

/-- A body that reads a snapshot returns what it would return alone on the snapshot. -/
lemma atSnapshot_ret {snap : σ} {x : Tx σ ω ε α} {p : List ω} {a : α}
    (h : x.atSnapshot conflict e snap p = .ret a) : x = .ret a := by
  cases x with
  | ret b =>
    cases h
    rfl
  | abort e' => cases h
  | stmt run next =>
    simp only [atSnapshot] at h
    split at h <;> cases h

end Tx

end Transactions
