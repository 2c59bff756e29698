import Mathlib.Algebra.BigOperators.Group.List.Lemmas
import Mathlib.Algebra.Order.Ring.Int
import Mathlib.Data.Int.Order.Basic
import Mathlib.Tactic.Linarith
import Mathlib.Tactic.Ring

/-!
# Quotients that are rounded half up

`halfUp n k` is the integer nearest to `n / k` for a positive `k`, the upper one of two that are
equally near (`halfUp_spec`, `eq_halfUp`).  Rounding the parts of a sum instead of the sum changes the
result by half a unit for each part and half a unit for the sum at most (`halfUp_drift`).
-/

namespace Numbers

/-- The quotient, rounded half up. -/
def halfUp (n k : ℤ) : ℤ := (n + k / 2) / k

variable {n m k : ℤ}

/-- The nearest integer, ties up: twice the error is above `-k` and at most `k`. -/
theorem halfUp_spec (hk : 0 < k) (n : ℤ) :
    -k < 2 * (halfUp n k * k - n) ∧ 2 * (halfUp n k * k - n) ≤ k := by
  unfold halfUp
  have hdiv := Int.mul_ediv_add_emod (n + k / 2) k
  have hlow := Int.emod_nonneg (n + k / 2) hk.ne'
  have hhigh := Int.emod_lt_of_pos (n + k / 2) hk
  have hcomm : (n + k / 2) / k * k = k * ((n + k / 2) / k) := Int.mul_comm _ _
  rw [hcomm]
  omega

/-- There is one such integer. -/
theorem eq_halfUp (hk : 0 < k) {q : ℤ} (hlow : -k < 2 * (q * k - n))
    (hhigh : 2 * (q * k - n) ≤ k) : q = halfUp n k := by
  obtain ⟨hlow', hhigh'⟩ := halfUp_spec hk n
  have hlt : (q - halfUp n k) * k < 1 * k := by
    rw [Int.sub_mul, Int.one_mul]
    omega
  have hgt : -1 * k < (q - halfUp n k) * k := by
    rw [Int.sub_mul]
    omega
  have habove := Int.lt_of_mul_lt_mul_right hlt hk.le
  have hbelow := Int.lt_of_mul_lt_mul_right hgt hk.le
  omega

/-- A larger number has no smaller quotient. -/
theorem halfUp_mono (hk : 0 < k) (h : n ≤ m) : halfUp n k ≤ halfUp m k := by
  unfold halfUp
  exact Int.ediv_le_ediv hk (by omega)

/-- A multiple has its exact quotient. -/
lemma halfUp_mul (hk : 0 < k) (n : ℤ) : halfUp (n * k) k = n :=
  (eq_halfUp hk (by omega) (by omega)).symm

/-- The quotient is positive from a half on. -/
lemma halfUp_pos_iff (hk : 0 < k) : 0 < halfUp n k ↔ k ≤ 2 * n := by
  obtain ⟨hlow, hhigh⟩ := halfUp_spec hk n
  constructor
  · intro hpos
    have hone : 1 * k ≤ halfUp n k * k := Int.mul_le_mul_of_nonneg_right hpos hk.le
    omega
  · intro h
    by_contra hnot
    have hle : halfUp n k * k ≤ 0 * k := Int.mul_le_mul_of_nonneg_right (not_lt.mp hnot) hk.le
    omega

/-- The errors of the parts add up. -/
lemma sum_halfUp_spec (hk : 0 < k) (parts : List ℤ) :
    -(parts.length * k) ≤ 2 * ((parts.map fun n => halfUp n k).sum * k - parts.sum) ∧
      2 * ((parts.map fun n => halfUp n k).sum * k - parts.sum) ≤ parts.length * k := by
  induction parts with
  | nil => simp
  | cons n parts ih =>
    obtain ⟨hlow, hhigh⟩ := halfUp_spec hk n
    simp only [List.map_cons, List.sum_cons, List.length_cons, Nat.cast_add, Nat.cast_one,
      Int.add_mul, Int.one_mul]
    omega

/-- The sum of the rounded parts differs from the rounded sum by at most half a unit for each part
and half a unit more. -/
theorem halfUp_drift (hk : 0 < k) (parts : List ℤ) :
    2 * |(parts.map fun n => halfUp n k).sum - halfUp parts.sum k| ≤ parts.length + 1 := by
  obtain ⟨hlow, hhigh⟩ := sum_halfUp_spec hk parts
  obtain ⟨hlow', hhigh'⟩ := halfUp_spec hk parts.sum
  set rounded := (parts.map fun n => halfUp n k).sum
  set total := halfUp parts.sum k
  have hupper : 2 * (rounded - total) * k ≤ (parts.length + 1) * k := by
    calc 2 * (rounded - total) * k = 2 * (rounded * k - parts.sum) - 2 * (total * k - parts.sum) := by
          ring
      _ ≤ parts.length * k + k := by omega
      _ = (parts.length + 1) * k := by ring
  have hlower : -((parts.length + 1) * k) ≤ 2 * (rounded - total) * k := by
    calc -((parts.length + 1) * k) = -(parts.length * k) - k := by ring
      _ ≤ 2 * (rounded * k - parts.sum) - 2 * (total * k - parts.sum) := by omega
      _ = 2 * (rounded - total) * k := by ring
  have hle : 2 * (rounded - total) ≤ parts.length + 1 := le_of_mul_le_mul_right hupper hk
  have hge : -(parts.length + 1 : ℤ) ≤ 2 * (rounded - total) := by
    refine le_of_mul_le_mul_right ?_ hk
    rw [neg_mul]
    exact hlower
  rcases abs_cases (rounded - total) with ⟨habs, -⟩ | ⟨habs, -⟩
  · rw [habs]
    exact hle
  · rw [habs]
    omega

end Numbers
