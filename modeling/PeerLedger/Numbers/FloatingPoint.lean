import Mathlib.Algebra.Order.Archimedean.Basic
import Mathlib.Algebra.Order.Round
import Mathlib.Data.Int.Log
import Mathlib.Tactic.FieldSimp
import Mathlib.Tactic.Linarith
import Mathlib.Tactic.NormNum
import Mathlib.Tactic.Positivity
import Mathlib.Tactic.Ring

/-!
# Numbers with finitely many binary digits

`roundTo p x` is the number with `p` binary digits that is nearest to `x`, the one with an even last
digit of two that are equally near.  The exponent is not bounded: this is the rounding of a
floating-point format as long as the result neither overflows nor becomes subnormal.

The numbers with `p` digits around `x` are the multiples of `ulp p x`.  Rounding moves a number by at
most half an `ulp` (`roundTo_error`), and a multiple that is nearer than that is the result
(`roundTo_eq`).
-/

namespace Numbers

variable {K : Type*} [Field K] [LinearOrder K] [IsStrictOrderedRing K] [FloorRing K]

/-- The nearest integer, the even one of two that are equally near. -/
def roundEven (x : K) : ℤ :=
  if x - ⌊x⌋ < 1 / 2 then ⌊x⌋
  else if 1 / 2 < x - ⌊x⌋ then ⌊x⌋ + 1
  else ⌊x⌋ + ⌊x⌋ % 2

/-- The distance between the numbers with `p` binary digits around `x`. -/
def ulp (p : ℕ) (x : K) : K := 2 ^ (Int.log 2 |x| + 1 - p)

/-- The nearest number with `p` binary digits. -/
def roundTo (p : ℕ) (x : K) : K := roundEven (x / ulp p x) * ulp p x

variable {x y : K} {p : ℕ}

/-! ### The nearest integer -/

lemma roundEven_error (x : K) : |roundEven x - x| ≤ 1 / 2 := by
  have hlow := Int.floor_le x
  have hhigh := Int.lt_floor_add_one x
  have heven : (0 : K) ≤ (⌊x⌋ % 2 : ℤ) := by
    exact_mod_cast Int.emod_nonneg ⌊x⌋ (by norm_num)
  have hodd : ((⌊x⌋ % 2 : ℤ) : K) ≤ 1 := by
    exact_mod_cast (by omega : ⌊x⌋ % 2 ≤ 1)
  rw [abs_le]
  unfold roundEven
  split_ifs <;> push_cast at * <;> constructor <;> linarith

/-- An integer that is nearer than a half is the nearest one. -/
lemma roundEven_eq {n : ℤ} (h : |n - x| < 1 / 2) : roundEven x = n := by
  have hclose : |((roundEven x - n : ℤ) : K)| < 1 := by
    have herror := roundEven_error x
    have hsplit : ((roundEven x - n : ℤ) : K) = (roundEven x - x) - (n - x) := by
      push_cast
      ring
    rw [hsplit]
    calc |(roundEven x - x) - (n - x)| ≤ |(roundEven x : K) - x| + |(n : K) - x| := abs_sub _ _
      _ < 1 := by linarith
  have hzero : |roundEven x - n| < 1 := by exact_mod_cast hclose
  rw [Int.abs_lt_one_iff] at hzero
  omega

/-! ### Rounding -/

lemma ulp_pos (p : ℕ) (x : K) : 0 < ulp p x := zpow_pos (by norm_num) _

/-- Below a power of two, the digits are at least as fine as there. -/
lemma ulp_le {e : ℤ} (hx : x ≠ 0) (h : |x| < 2 ^ e) : ulp p x ≤ 2 ^ (e - p) := by
  have hlog : Int.log 2 |x| < e := by
    refine (Int.lt_zpow_iff_log_lt (by norm_num) (abs_pos.mpr hx)).mp ?_
    exact_mod_cast h
  exact zpow_le_zpow_right₀ (by norm_num) (by omega)

/-- Between two successive powers of two, the digits are as fine as at the lower one. -/
lemma ulp_eq {e : ℤ} (hlow : 2 ^ e ≤ |x|) (hhigh : |x| < 2 ^ (e + 1)) :
    ulp p x = 2 ^ (e + 1 - p) := by
  have hx : 0 < |x| := (zpow_pos (by norm_num) e).trans_le hlow
  have hlt : Int.log 2 |x| < e + 1 := by
    refine (Int.lt_zpow_iff_log_lt (by norm_num) hx).mp ?_
    exact_mod_cast hhigh
  have hge : e ≤ Int.log 2 |x| := by
    refine (Int.zpow_le_iff_le_log (by norm_num) hx).mp ?_
    exact_mod_cast hlow
  rw [ulp, le_antisymm (Int.lt_add_one_iff.mp hlt) hge]

/-- Rounding moves a number by at most half an `ulp`. -/
lemma roundTo_error (p : ℕ) (x : K) : |roundTo p x - x| ≤ ulp p x / 2 := by
  have hpos := ulp_pos p x
  have hscaled : roundTo p x - x = (roundEven (x / ulp p x) - x / ulp p x) * ulp p x := by
    rw [roundTo, sub_mul, div_mul_cancel₀ _ hpos.ne']
  rw [hscaled, abs_mul, abs_of_pos hpos]
  calc |(roundEven (x / ulp p x) : K) - x / ulp p x| * ulp p x ≤ 1 / 2 * ulp p x :=
        mul_le_mul_of_nonneg_right (roundEven_error _) hpos.le
    _ = ulp p x / 2 := by ring

/-- A number with `p` digits that is nearer than half an `ulp` is the result. -/
lemma roundTo_eq {n : ℤ} (hy : y = n * ulp p x) (h : |y - x| < ulp p x / 2) : roundTo p x = y := by
  have hpos := ulp_pos p x
  have hscaled : y - x = (n - x / ulp p x) * ulp p x := by
    rw [hy, sub_mul, div_mul_cancel₀ _ hpos.ne']
  have hnear : |n - x / ulp p x| < 1 / 2 := by
    rw [hscaled, abs_mul, abs_of_pos hpos] at h
    refine lt_of_mul_lt_mul_right (h.trans_eq ?_) hpos.le
    ring
  rw [roundTo, roundEven_eq hnear, hy]

/-- A number below a power of two moves by at most half of what the digits there are apart. -/
lemma roundTo_near {e : ℤ} (hx : x ≠ 0) (h : |x| < 2 ^ e) :
    |roundTo p x - x| ≤ 2 ^ (e - p) / 2 :=
  (roundTo_error p x).trans (by linarith [ulp_le (p := p) hx h])

@[simp]
lemma roundTo_zero (p : ℕ) : roundTo p (0 : K) = 0 := by
  simp [roundTo, roundEven]

/-- Integers with at most `p` digits are not rounded. -/
lemma roundTo_intCast {n : ℤ} (h : |n| < 2 ^ p) : roundTo p (n : K) = n := by
  by_cases hn : n = 0
  · simp [hn]
  have hK : |(n : K)| < 2 ^ (p : ℤ) := by
    rw [zpow_natCast]
    exact_mod_cast h
  have hpos : 0 < |(n : K)| := by exact_mod_cast abs_pos.mpr hn
  -- the digits are at most 1 apart, so that their distance divides 1
  obtain ⟨k, hk⟩ : ∃ k : ℕ, ulp p (n : K) = 2 ^ (-(k : ℤ)) := by
    have hlog : Int.log 2 |(n : K)| < p := by
      refine (Int.lt_zpow_iff_log_lt (by norm_num) hpos).mp ?_
      exact_mod_cast hK
    refine ⟨(p - 1 - Int.log 2 |(n : K)|).toNat, ?_⟩
    rw [ulp]
    congr 1
    omega
  refine roundTo_eq (n := n * 2 ^ k) ?_ ?_
  · rw [hk, zpow_neg, zpow_natCast]
    push_cast
    field_simp
  · rw [sub_self, abs_zero]
    have := ulp_pos p (n : K)
    linarith

end Numbers
