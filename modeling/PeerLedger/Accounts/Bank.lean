import Mathlib.Algebra.BigOperators.Finsupp.Basic
import Mathlib.Algebra.Order.Group.Defs
import Mathlib.Data.Finsupp.Basic
import Mathlib.Tactic.Abel

/-!
# Banks with holds

A bank keeps accounts, and an account keeps a balance and holds: amounts that are reserved and can
later be released again or collected.  Every operation of the bank is atomic, also a payment, which
collects a hold of one account and deposits with another one.

In every run that starts with no account the reserved amounts are covered by the balances
(`Bank.Run.covered`), the balances are what the operations have credited (`Bank.Run.balance_eq`), and a
hold is reserved once and then released or collected at most once, with the amount that was reserved
(`Bank.Run.life`).  All three are instances of `Bank.Run.invariant`.
-/

namespace PeerLedger

namespace Accounts

variable {α η M : Type*} [AddCommGroup M]

/-! ### Accounts -/

/-- An account: its balance, what is reserved under its open holds, and the ids of all its holds. -/
@[ext]
structure Account (η M : Type*) [AddCommGroup M] where
  balance : M
  reserved : η →₀ M
  used : Set η

/-- What is done to one account. -/
inductive Movement (η M : Type*) where
  | deposit (amount : M)
  | withdraw (amount : M)
  | reserve (hold : η) (amount : M)
  | release (hold : η) (amount : M)
  | collect (hold : η) (amount : M)

/-- What a movement adds to the balance. -/
def Movement.credit : Movement η M → M
  | .deposit amount => amount
  | .withdraw amount => -amount
  | .reserve _ _ => 0
  | .release _ _ => 0
  | .collect _ amount => -amount

/-- The hold that a movement is about. -/
def Movement.hold : Movement η M → Option η
  | .deposit _ => none
  | .withdraw _ => none
  | .reserve hold _ => some hold
  | .release hold _ => some hold
  | .collect hold _ => some hold

namespace Account

/-- An account with nothing in it. -/
def fresh : Account η M := ⟨0, 0, ∅⟩

/-- What is reserved under all holds. -/
noncomputable def held (x : Account η M) : M := x.reserved.sum fun _ amount => amount

/-- What can be spent. -/
noncomputable def available (x : Account η M) : M := x.balance - x.held

/-- The account after a movement. -/
noncomputable def after (x : Account η M) : Movement η M → Account η M
  | .deposit amount => { x with balance := x.balance + amount }
  | .withdraw amount => { x with balance := x.balance - amount }
  | .reserve hold amount =>
    { x with reserved := x.reserved.update hold amount, used := insert hold x.used }
  | .release hold _ => { x with reserved := x.reserved.update hold 0 }
  | .collect hold amount =>
    { x with balance := x.balance - amount, reserved := x.reserved.update hold 0 }

lemma after_balance (x : Account η M) (movement : Movement η M) :
    (x.after movement).balance = x.balance + movement.credit := by
  cases movement <;> simp [after, Movement.credit, sub_eq_add_neg]

/-- Reserving another amount under a hold. -/
lemma held_update (x : Account η M) (hold : η) (amount : M) :
    (x.reserved.update hold amount).sum (fun _ amount => amount) =
      x.held - x.reserved hold + amount := by
  have h := x.reserved.sum_update_add hold amount (fun _ amount => amount) (fun _ => rfl)
    fun _ _ _ => rfl
  rw [← eq_sub_iff_add_eq] at h
  rw [h, held]
  abel

variable [LinearOrder M]

/-- The movement is possible. -/
def Allows (x : Account η M) : Movement η M → Prop
  | .deposit amount => 0 < amount
  | .withdraw amount => 0 < amount ∧ amount ≤ x.available
  | .reserve hold amount => 0 < amount ∧ amount ≤ x.available ∧ hold ∉ x.used
  | .release hold amount => 0 < amount ∧ x.reserved hold = amount
  | .collect hold amount => 0 < amount ∧ x.reserved hold = amount

/-- What is reserved is covered by the balance, and reserved under ids that are used. -/
structure Covered (x : Account η M) : Prop where
  reserved_nonneg : ∀ hold, 0 ≤ x.reserved hold
  held_le : x.held ≤ x.balance
  used : ∀ hold, x.reserved hold ≠ 0 → hold ∈ x.used

lemma Covered.fresh : (fresh : Account η M).Covered where
  reserved_nonneg _ := le_rfl
  held_le := le_of_eq (by simp [held, Account.fresh])
  used _ h := absurd rfl h

/-- Changing what is reserved under one used id. -/
lemma Covered.update {x : Account η M} (h : x.Covered) {hold : η} {amount balance : M} {used : Set η}
    (hamount : 0 ≤ amount) (hle : x.held - x.reserved hold + amount ≤ balance)
    (hused : x.used ⊆ used) (hhold : amount ≠ 0 → hold ∈ used) :
    (⟨balance, x.reserved.update hold amount, used⟩ : Account η M).Covered := by
  classical
  refine ⟨fun other => ?_, ?_, fun other hother => ?_⟩
  · rw [Finsupp.update_apply]
    split_ifs
    · exact hamount
    · exact h.reserved_nonneg other
  · exact (held_update x hold amount).trans_le hle
  · rw [Finsupp.update_apply] at hother
    split_ifs at hother with heq
    · exact heq ▸ hhold hother
    · exact hused (h.used other hother)

variable [IsOrderedAddMonoid M]

/-- Every movement that is possible keeps the reserved amounts covered. -/
lemma Covered.after {x : Account η M} {movement : Movement η M} (h : x.Covered)
    (hallows : x.Allows movement) : (x.after movement).Covered := by
  cases movement with
  | deposit amount =>
    exact ⟨h.reserved_nonneg, h.held_le.trans (le_add_of_nonneg_right hallows.le), h.used⟩
  | withdraw amount => exact ⟨h.reserved_nonneg, le_sub_comm.mp hallows.2, h.used⟩
  | reserve hold amount =>
    obtain ⟨hpos, hle, hnew⟩ := hallows
    have hzero : x.reserved hold = 0 := not_not.mp fun hne => hnew (h.used hold hne)
    refine h.update hpos.le ?_ (Set.subset_insert _ _) fun _ => Set.mem_insert _ _
    rw [hzero, sub_zero]
    exact le_sub_iff_add_le'.mp hle
  | release hold amount =>
    obtain ⟨hpos, hreserved⟩ := hallows
    refine h.update le_rfl ?_ subset_rfl fun hne => absurd rfl hne
    rw [hreserved, add_zero]
    exact (sub_le_self _ hpos.le).trans h.held_le
  | collect hold amount =>
    obtain ⟨hpos, hreserved⟩ := hallows
    refine h.update le_rfl ?_ subset_rfl fun hne => absurd rfl hne
    rw [hreserved, add_zero]
    exact sub_le_sub_right h.held_le amount

end Account

/-! ### Banks -/

/-- What is done to a bank. -/
inductive Op (α η M : Type*) where
  | opened (account : α)
  | moved (account : α) (movement : Movement η M)
  | paid (sender : α) (hold : η) (amount : M) (receiver : α) (credited : M)

/-- The movements of an operation, with their accounts. -/
def Op.movements : Op α η M → List (α × Movement η M)
  | .opened _ => []
  | .moved account movement => [(account, movement)]
  | .paid sender hold amount receiver credited =>
    [(sender, .collect hold amount), (receiver, .deposit credited)]

/-- The accounts of a bank. -/
abbrev Bank (α η M : Type*) [AddCommGroup M] := α → Option (Account η M)

namespace Bank

/-- All movements of some operations. -/
def movements (ops : List (Op α η M)) : List (α × Movement η M) := ops.flatMap Op.movements

omit [AddCommGroup M] in
lemma movements_concat (ops : List (Op α η M)) (op : Op α η M) :
    movements (ops ++ [op]) = movements ops ++ op.movements := by
  simp [movements]

/-- A bank without accounts. -/
def empty : Bank α η M := fun _ => none

variable [LinearOrder M] [DecidableEq α]

/-- A movement of one account. -/
inductive Moves (b : Bank α η M) : α × Movement η M → Bank α η M → Prop
  | mk {account : α} {movement : Movement η M} {x : Account η M} : b account = some x →
      x.Allows movement →
      Moves b (account, movement) (Function.update b account (some (x.after movement)))

/-- An operation of the bank. -/
inductive Step (b : Bank α η M) : Op α η M → Bank α η M → Prop
  | opened {account : α} : b account = none →
      Step b (.opened account) (Function.update b account (some .fresh))
  | moved {account : α} {movement : Movement η M} {b' : Bank α η M} :
      Moves b (account, movement) b' → Step b (.moved account movement) b'
  | paid {sender receiver : α} {hold : η} {amount credited : M} {b' b'' : Bank α η M} :
      sender ≠ receiver → Moves b (sender, .collect hold amount) b' →
      Moves b' (receiver, .deposit credited) b'' →
      Step b (.paid sender hold amount receiver credited) b''

/-- Operations one after another. -/
inductive Run (b : Bank α η M) : List (Op α η M) → Bank α η M → Prop
  | nil : Run b [] b
  | snoc {ops : List (Op α η M)} {op : Op α η M} {b' b'' : Bank α η M} : Run b ops b' →
      Step b' op b'' → Run b (ops ++ [op]) b''

lemma Run.append {b b' b'' : Bank α η M} {ops ops' : List (Op α η M)} (h : Run b ops b')
    (h' : Run b' ops' b'') : Run b (ops ++ ops') b'' := by
  induction h' with
  | nil => rwa [List.append_nil]
  | snoc _ hstep ih =>
    rw [← List.append_assoc]
    exact ih.snoc hstep

/-- What opening an account keeps, and every movement, holds along every run. -/
lemma Run.invariant {P : List (α × Movement η M) → Bank α η M → Prop} {b b' : Bank α η M}
    {ops : List (Op α η M)} (h : Run b ops b') (h0 : P [] b)
    (hopen : ∀ ms b account, P ms b → b account = none →
      P ms (Function.update b account (some .fresh)))
    (hmove : ∀ ms b b' move, P ms b → Moves b move b' → P (ms ++ [move]) b') :
    P (movements ops) b' := by
  induction h with
  | nil => exact h0
  | @snoc ops op b' b'' _ hstep ih =>
    rw [movements_concat]
    cases hstep with
    | opened hnone =>
      rw [Op.movements, List.append_nil]
      exact hopen _ _ _ ih hnone
    | moved hmoves => exact hmove _ _ _ _ ih hmoves
    | paid _ hcollect hdeposit =>
      rw [Op.movements, List.append_cons]
      exact hmove _ _ _ _ (hmove _ _ _ _ ih hcollect) hdeposit

/-! ### Balances -/

/-- The balance of an account; nothing when it was not opened. -/
def balance (b : Bank α η M) (account : α) : M := (b account).elim 0 (·.balance)

/-- What a movement credits to the account. -/
def credit (account : α) (move : α × Movement η M) : M :=
  if move.1 = account then move.2.credit else 0

/-- A balance is what the operations have credited. -/
lemma Run.balance_eq {b : Bank α η M} {ops : List (Op α η M)} (h : Run empty ops b) (account : α) :
    b.balance account = ((movements ops).map (credit account)).sum := by
  refine h.invariant (P := fun ms b => b.balance account = (ms.map (credit account)).sum) rfl
    (fun ms b other ih hnone => ?_) fun ms b b' move ih hmoves => ?_
  · rw [← ih, balance, balance]
    by_cases heq : account = other
    · subst heq
      rw [Function.update_self, hnone]
      rfl
    · rw [Function.update_of_ne heq]
  · obtain ⟨hsome, -⟩ := hmoves
    rename_i other movement x
    rw [List.map_append, List.sum_append, ← ih, balance, balance]
    by_cases heq : account = other
    · subst heq
      simp [hsome, credit, Account.after_balance]
    · simp [credit, Function.update_of_ne heq, Ne.symm heq]

/-! ### Covered funds -/

/-- What is reserved in the accounts is covered. -/
def Covered (b : Bank α η M) : Prop := ∀ account x, b account = some x → x.Covered

lemma Covered.update {b : Bank α η M} (h : b.Covered) {account : α} {x : Account η M}
    (hx : x.Covered) : Covered (Function.update b account (some x)) := by
  intro other y hy
  by_cases heq : other = account
  · subst heq
    rw [Function.update_self] at hy
    exact Option.some.inj hy ▸ hx
  · rw [Function.update_of_ne heq] at hy
    exact h other y hy

/-- What is reserved is covered in every run. -/
lemma Run.covered [IsOrderedAddMonoid M] {b : Bank α η M} {ops : List (Op α η M)}
    (h : Run empty ops b) : b.Covered := by
  refine h.invariant (P := fun _ b => b.Covered) (fun _ _ h => nomatch h)
    (fun _ _ _ ih _ => ih.update .fresh) fun _ b _ _ ih hmoves => ?_
  obtain ⟨hsome, hallows⟩ := hmoves
  exact ih.update ((ih _ _ hsome).after hallows)

/-! ### Holds -/

/-- The movements of one hold. -/
def ofHold [DecidableEq η] (account : α) (hold : η) (ms : List (α × Movement η M)) :
    List (Movement η M) :=
  (ms.filter fun move => move.1 = account ∧ move.2.hold = some hold).map Prod.snd

/-- The movements that a hold has had, and what the account then says of it. -/
inductive Life (x : Option (Account η M)) (hold : η) : List (Movement η M) → Prop
  | unused : (∀ y, x = some y → hold ∉ y.used ∧ y.reserved hold = 0) → Life x hold []
  | reserved {y : Account η M} {amount : M} : x = some y → hold ∈ y.used →
      y.reserved hold = amount → 0 < amount → Life x hold [.reserve hold amount]
  | closed {y : Account η M} {amount : M} {closing : Movement η M} : x = some y → hold ∈ y.used →
      y.reserved hold = 0 → closing ∈ [.release hold amount, .collect hold amount] → 0 < amount →
      Life x hold [.reserve hold amount, closing]

/-- Movements that leave a hold alone. -/
lemma Life.congr {x y : Account η M} {hold : η} {ms : List (Movement η M)}
    (h : Life (some x) hold ms) (hused : hold ∈ y.used ↔ hold ∈ x.used)
    (hreserved : y.reserved hold = x.reserved hold) : Life (some y) hold ms := by
  cases h with
  | unused hnew =>
    refine .unused fun z hz => ?_
    obtain rfl := Option.some.inj hz
    exact ⟨fun h => (hnew x rfl).1 (hused.mp h), hreserved.trans (hnew x rfl).2⟩
  | reserved hx hmem heq hpos =>
    obtain rfl := Option.some.inj hx
    exact .reserved rfl (hused.mpr hmem) (hreserved.trans heq) hpos
  | closed hx hmem heq hclosing hpos =>
    obtain rfl := Option.some.inj hx
    exact .closed rfl (hused.mpr hmem) (hreserved.trans heq) hclosing hpos

/-- A hold with reserved funds has just been reserved. -/
lemma Life.of_reserved {x : Account η M} {hold : η} {ms : List (Movement η M)} {amount : M}
    (h : Life (some x) hold ms) (hreserved : x.reserved hold = amount) (hpos : 0 < amount) :
    hold ∈ x.used ∧ ms = [.reserve hold amount] := by
  cases h with
  | unused hnew => exact absurd (hreserved.symm.trans (hnew x rfl).2) hpos.ne'
  | reserved hx hmem heq _ =>
    obtain rfl := Option.some.inj hx
    exact ⟨hmem, by rw [← hreserved, heq]⟩
  | closed hx _ heq _ _ =>
    obtain rfl := Option.some.inj hx
    exact absurd (hreserved.symm.trans heq) hpos.ne'

/-- A movement of the account goes on with the lives of its holds. -/
lemma Life.after [DecidableEq η] {x : Account η M} {movement : Movement η M} {hold : η}
    {ms : List (Movement η M)} (h : Life (some x) hold ms) (hallows : x.Allows movement) :
    Life (some (x.after movement)) hold
      (ms ++ if movement.hold = some hold then [movement] else []) := by
  cases movement with
  | deposit amount =>
    rw [if_neg (by simp [Movement.hold]), List.append_nil]
    exact h.congr Iff.rfl rfl
  | withdraw amount =>
    rw [if_neg (by simp [Movement.hold]), List.append_nil]
    exact h.congr Iff.rfl rfl
  | reserve other amount =>
    obtain ⟨hpos, -, hnew⟩ := hallows
    by_cases heq : other = hold
    · subst heq
      have hms : ms = [] := by
        cases h with
        | unused => rfl
        | reserved hx hmem => exact absurd (Option.some.inj hx ▸ hmem) hnew
        | closed hx hmem => exact absurd (Option.some.inj hx ▸ hmem) hnew
      rw [hms, if_pos (by rfl)]
      exact .reserved rfl (Set.mem_insert _ _) (by simp [Account.after]) hpos
    · rw [if_neg (by simpa [Movement.hold] using heq), List.append_nil]
      refine h.congr ?_ ?_
      · simp [Account.after, Ne.symm heq]
      · simp [Account.after, Finsupp.update_apply, Ne.symm heq]
  | release other amount =>
    obtain ⟨hpos, hreserved⟩ := hallows
    by_cases heq : other = hold
    · subst heq
      obtain ⟨hmem, rfl⟩ := h.of_reserved hreserved hpos
      rw [if_pos (by rfl)]
      exact .closed rfl hmem (by simp [Account.after]) List.mem_cons_self hpos
    · rw [if_neg (by simpa [Movement.hold] using heq), List.append_nil]
      exact h.congr Iff.rfl (by simp [Account.after, Finsupp.update_apply, Ne.symm heq])
  | collect other amount =>
    obtain ⟨hpos, hreserved⟩ := hallows
    by_cases heq : other = hold
    · subst heq
      obtain ⟨hmem, rfl⟩ := h.of_reserved hreserved hpos
      rw [if_pos (by rfl)]
      exact .closed rfl hmem (by simp [Account.after])
        (List.mem_cons_of_mem _ List.mem_cons_self) hpos
    · rw [if_neg (by simpa [Movement.hold] using heq), List.append_nil]
      exact h.congr Iff.rfl (by simp [Account.after, Finsupp.update_apply, Ne.symm heq])

/-- A hold is reserved at most once, and then closed at most once with the same amount. -/
lemma Run.life [DecidableEq η] {b : Bank α η M} {ops : List (Op α η M)} (h : Run empty ops b)
    (account : α) (hold : η) : Life (b account) hold (ofHold account hold (movements ops)) := by
  refine h.invariant (P := fun ms b => Life (b account) hold (ofHold account hold ms))
    (.unused fun _ h => nomatch h) (fun ms b other ih hnone => ?_) fun ms b b' move ih hmoves => ?_
  · by_cases heq : account = other
    · subst heq
      rw [Function.update_self]
      rw [hnone] at ih
      cases h' : ofHold account hold ms with
      | nil =>
        refine .unused fun y hy => ?_
        obtain rfl := Option.some.inj hy
        exact ⟨id, rfl⟩
      | cons movement ms =>
        rw [h'] at ih
        cases ih with
        | reserved hx => cases hx
        | closed hx => cases hx
    · rwa [Function.update_of_ne heq]
  · obtain ⟨hsome, hallows⟩ := hmoves
    rename_i other movement x
    by_cases heq : account = other
    · subst heq
      rw [hsome] at ih
      rw [Function.update_self]
      convert ih.after hallows using 1
      simp only [ofHold, List.filter_append, List.map_append, List.filter_cons, List.filter_nil]
      split_ifs <;> simp_all
    · rw [Function.update_of_ne heq]
      simpa [ofHold, Ne.symm heq] using ih

end Bank

end Accounts

end PeerLedger
