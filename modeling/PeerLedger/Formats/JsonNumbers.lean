import PeerLedger.Formats.FixedPoint
import Mathlib.Data.Nat.Cast.Field
import Mathlib.Data.Nat.Factorization.Basic
import Mathlib.Tactic.FieldSimp

/-!
# Numbers in JSON text

`literal` writes a number in decimal, with as few places as it needs, and `readLiteral` is the number
of a literal.  A number that needs finitely many places, as every number of JavaScript does, is read
again as it was written (`readLiteral_literal`).
-/

namespace Formats

namespace JsonText

open IsoDate FixedPoint

/-! ### Writing -/

/-- Finitely many places write the number exactly. -/
def IsDecimal (q : ℚ) : Prop := ∃ places, q.den ∣ 10 ^ places

/-- The fewest places that write a number exactly. -/
def places (q : ℚ) : Nat := ((List.range (q.den + 1)).find? fun k => q.den ∣ 10 ^ k).getD 0

/-- The text of a number that is not negative, of which `n` is the number of last places. -/
def magnitude (places n : Nat) : List Char :=
  if places = 0 then Nat.toDigits 10 n else text places n

/-- The text of a number. -/
def literal (q : ℚ) : List Char :=
  (if q < 0 then ['-'] else []) ++
    magnitude (places q) (q.num.natAbs * 10 ^ places q / q.den)

/-! ### Reading -/

/-- The power of ten of an exponent. -/
def readPower : List Char → ℤ
  | _ :: '-' :: ds => -(FixedPoint.value ds : ℤ)
  | _ :: '+' :: ds => FixedPoint.value ds
  | _ :: ds => FixedPoint.value ds
  | [] => 0

/-- The digits after a point, if there is one, and the text after them. -/
def readPlaces : List Char → List Char × List Char
  | '.' :: rest => rest.span Char.isDigit
  | rest => ([], rest)

/-- The number of a literal without sign. -/
def readMagnitude (literal : List Char) : ℚ :=
  let whole := literal.span Char.isDigit
  let places := readPlaces whole.2
  (FixedPoint.value whole.1 + FixedPoint.value places.1 / 10 ^ places.1.length) *
    10 ^ readPower places.2

/-- The number of a literal. -/
def readLiteral : List Char → ℚ
  | '-' :: magnitude => -readMagnitude magnitude
  | magnitude => readMagnitude magnitude

/-! ### The places are enough -/

/-- A divisor of some power of ten divides that with the divisor as exponent. -/
lemma dvd_ten_pow_self {d k : Nat} (h : d ∣ 10 ^ k) : d ∣ 10 ^ d := by
  have hd : d ≠ 0 := by
    rintro rfl
    exact absurd (Nat.eq_zero_of_zero_dvd h) (Nat.pow_pos (by decide)).ne'
  have hpow : 10 ^ d ≠ 0 := (Nat.pow_pos (by decide)).ne'
  rw [← Nat.factorization_prime_le_iff_dvd hd hpow]
  intro p hp
  rw [Nat.factorization_pow, Finsupp.smul_apply, smul_eq_mul]
  by_cases hdvd : p ∣ d
  · have hten : p ∣ 10 := hp.dvd_of_dvd_pow (hdvd.trans h)
    have hpos : 0 < (10 : Nat).factorization p := hp.factorization_pos_of_dvd (by decide) hten
    exact (Nat.factorization_lt p hd).le.trans (Nat.le_mul_of_pos_right d hpos)
  · rw [Nat.factorization_eq_zero_of_not_dvd hdvd]
    exact Nat.zero_le _

lemma den_dvd_places {q : ℚ} (h : IsDecimal q) : q.den ∣ 10 ^ places q := by
  obtain ⟨k, hk⟩ := h
  unfold places
  cases hfind : (List.range (q.den + 1)).find? fun k => q.den ∣ 10 ^ k with
  | some k =>
    have hk := List.find?_some hfind
    exact of_decide_eq_true hk
  | none =>
    have hself := List.find?_eq_none.mp hfind q.den (List.mem_range.mpr (Nat.lt_succ_self _))
    exact absurd (decide_eq_true (dvd_ten_pow_self hk)) hself

/-- The number of last places, over a whole. -/
lemma magnitude_eq {q : ℚ} (h : IsDecimal q) :
    ((q.num.natAbs * 10 ^ places q / q.den : ℕ) : ℚ) / 10 ^ places q = |q| := by
  have hdvd : q.den ∣ q.num.natAbs * 10 ^ places q := (den_dvd_places h).mul_left _
  have hden : (q.den : ℚ) ≠ 0 := Nat.cast_ne_zero.mpr q.den_ne_zero
  have hten : (10 : ℚ) ^ places q ≠ 0 := by positivity
  have habs : |q| = (q.num.natAbs : ℚ) / q.den := by
    rw [Rat.abs_def, Rat.divInt_eq_div]
    rfl
  rw [Nat.cast_div hdvd hden, habs, Nat.cast_mul, Nat.cast_pow, Nat.cast_ofNat, div_right_comm,
    mul_div_cancel_right₀ _ hten]

/-! ### What is written is read again -/

lemma span_digits {ds rest : List Char} (hds : AllDigits ds)
    (hrest : ∀ c tail, rest = c :: tail → c.isDigit = false) :
    (ds ++ rest).span Char.isDigit = (ds, rest) := by
  have htail : rest.takeWhile Char.isDigit = [] ∧ rest.dropWhile Char.isDigit = rest := by
    cases rest with
    | nil => exact ⟨rfl, rfl⟩
    | cons c tail =>
      have hc := hrest c tail rfl
      simp [hc]
  rw [List.span_eq_takeWhile_dropWhile, List.takeWhile_append_of_pos hds,
    List.dropWhile_append_of_pos hds, htail.1, htail.2, List.append_nil]

lemma not_digit_point (rest : List Char) :
    ∀ c tail, '.' :: rest = c :: tail → c.isDigit = false := by
  intro c tail h
  rw [← (List.cons.inj h).1]
  rfl

lemma readMagnitude_magnitude (places n : Nat) :
    readMagnitude (magnitude places n) = (n : ℚ) / 10 ^ places := by
  have hdigits : ∀ n, AllDigits (Nat.toDigits 10 n) := fun n => (plain_toDigits n).allDigits
  have hvalue : ∀ n, FixedPoint.value (Nat.toDigits 10 n) = n := fun n =>
    Nat.ofDigitChars_ten_toDigits
  unfold magnitude readMagnitude
  split_ifs with hzero
  · subst hzero
    have hspan := @span_digits _ [] (hdigits n) fun c tail h => absurd h (by simp)
    rw [List.append_nil] at hspan
    rw [hspan]
    simp [readPlaces, readPower, FixedPoint.value]
  · have hplaces : readPlaces ('.' :: digits places n) = (digits places n, []) := by
      have hspan := @span_digits _ [] (allDigits_digits places n)
        fun c tail h => absurd h (by simp)
      rw [List.append_nil] at hspan
      rw [readPlaces, hspan]
    rw [text, span_digits (hdigits _) (not_digit_point _)]
    dsimp only
    rw [hplaces, hvalue, value_digits, length_digits]
    have hsplit := Nat.div_add_mod n (10 ^ places)
    have hten : (10 : ℚ) ^ places ≠ 0 := by positivity
    simp only [readPower, zpow_zero, mul_one]
    rw [eq_div_iff hten, add_mul, div_mul_cancel₀ _ hten]
    exact_mod_cast (Nat.mul_comm _ _ ▸ hsplit : n / 10 ^ places * 10 ^ places + n % 10 ^ places = n)

lemma magnitude_head (places n : Nat) :
    ∃ c tail, magnitude places n = c :: tail ∧ c.isDigit = true := by
  obtain ⟨c, ds, hds⟩ := List.exists_cons_of_ne_nil (plain_toDigits (n / 10 ^ places)).ne_nil
  have hc := (plain_toDigits (n / 10 ^ places)).allDigits c (by rw [hds]; exact List.mem_cons_self)
  unfold magnitude
  split_ifs with hzero
  · subst hzero
    rw [Nat.pow_zero, Nat.div_one] at hds
    exact ⟨c, ds, hds, hc⟩
  · exact ⟨c, _, by rw [text, hds]; rfl, hc⟩

/-- A number is read again as it was written. -/
theorem readLiteral_literal {q : ℚ} (h : IsDecimal q) : readLiteral (literal q) = q := by
  unfold literal
  split_ifs with hneg
  · rw [List.singleton_append, readLiteral, readMagnitude_magnitude, magnitude_eq h,
      abs_of_neg hneg, neg_neg]
  · obtain ⟨c, tail, hhead, hc⟩ := magnitude_head (places q) (q.num.natAbs * 10 ^ places q / q.den)
    have hminus : c ≠ '-' := by
      rintro rfl
      exact absurd hc (by decide)
    rw [List.nil_append, hhead, readLiteral.eq_2 _ fun rest h => hminus (List.cons.inj h).1, ← hhead,
      readMagnitude_magnitude, magnitude_eq h, abs_of_nonneg (not_lt.mp hneg)]

/-! ### What is written is a literal -/

lemma someDigits_append {ds rest : List Char} (hne : ds ≠ []) (hds : AllDigits ds)
    (hrest : ∀ c tail, rest = c :: tail → c.isDigit = false) :
    someDigits (ds ++ rest) = some (ds, rest) := by
  obtain ⟨c, tail, rfl⟩ := List.exists_cons_of_ne_nil hne
  rw [someDigits, span_digits hds hrest]

lemma wholePart_append {ds rest : List Char} (hds : Plain ds)
    (hrest : ∀ c tail, rest = c :: tail → c.isDigit = false) :
    wholePart (ds ++ rest) = some (ds, rest) := by
  have hsome := someDigits_append hds.ne_nil hds.allDigits hrest
  obtain ⟨c, tail, rfl⟩ := List.exists_cons_of_ne_nil hds.ne_nil
  by_cases hzero : c = '0'
  · subst hzero
    rw [hds.head tail rfl]
    rfl
  · rw [List.cons_append, wholePart.eq_2 _ fun rest h => hzero (List.cons.inj h).1]
    exact hsome

lemma fraction_ends {rest : List Char} (h : Ends rest) : fraction rest = some ([], rest) := by
  cases rest with
  | nil => rfl
  | cons c tail =>
    exact fraction.eq_2 _ fun rest hpoint => (h c tail rfl).2.1 (List.cons.inj hpoint).1

lemma exponent_ends {rest : List Char} (h : Ends rest) : exponent rest = some ([], rest) := by
  cases rest with
  | nil => rfl
  | cons c tail =>
    obtain ⟨-, -, hsmall, hlarge⟩ := h c tail rfl
    have hne : ¬ (c = 'e' ∨ c = 'E') := not_or.mpr ⟨hsmall, hlarge⟩
    cases tail with
    | nil => exact if_neg hne
    | cons d tail => exact if_neg hne

/-- A magnitude is read to its end. -/
lemma unsigned_magnitude (places n : Nat) {rest : List Char} (h : Ends rest) :
    unsigned (magnitude places n ++ rest) = some (magnitude places n, rest) := by
  unfold magnitude unsigned
  split_ifs with hzero
  · rw [wholePart_append (plain_toDigits n) fun c tail hc => (h c tail hc).1]
    simp only [Option.bind_eq_bind, Option.bind_some, fraction_ends h, exponent_ends h,
      List.append_nil]
    rfl
  · have hne : digits places n ≠ [] := by
      rw [← List.length_pos_iff, length_digits]
      exact Nat.pos_of_ne_zero hzero
    have hpart : fraction ('.' :: (digits places n ++ rest)) =
        some ('.' :: digits places n, rest) := by
      rw [fraction, someDigits_append hne (allDigits_digits places n) fun c tail hc =>
        (h c tail hc).1]
      rfl
    rw [text, List.append_assoc, List.cons_append, wholePart_append (plain_toDigits _) (not_digit_point _)]
    simp only [Option.bind_eq_bind, Option.bind_some, hpart, exponent_ends h, List.append_nil]
    rfl

/-- The text of a number is a proper literal. -/
theorem isLiteral_literal (q : ℚ) : IsLiteral (literal q) := by
  obtain ⟨c, tail, hhead, hc⟩ := magnitude_head (places q) (q.num.natAbs * 10 ^ places q / q.den)
  unfold literal
  split_ifs with hneg
  · refine ⟨⟨'-', _, rfl, .inl rfl⟩, fun rest hrest => ?_⟩
    rw [List.singleton_append, List.cons_append, number, unsigned_magnitude _ _ hrest]
    rfl
  · refine ⟨⟨c, tail, hhead, .inr hc⟩, fun rest hrest => ?_⟩
    have hminus : c ≠ '-' := by
      rintro rfl
      exact absurd hc (by decide)
    have hread := unsigned_magnitude (places q) (q.num.natAbs * 10 ^ places q / q.den) hrest
    rw [List.nil_append, hhead] at *
    rw [List.cons_append] at hread ⊢
    rw [number.eq_2 _ fun rest h => hminus (List.cons.inj h).1, hread]
    rfl

/-- A natural number is written with its digits. -/
lemma literal_natCast (n : ℕ) : literal (n : ℚ) = (toString n).toList := by
  have hplaces : places (n : ℚ) = 0 := by
    simp [places, Rat.den_natCast, List.range_succ_eq_map]
  have hdigits : (toString n).toList = Nat.toDigits 10 n := Nat.toList_repr
  have hpos : ¬ (n : ℚ) < 0 := not_lt.mpr (Nat.cast_nonneg n)
  rw [literal, if_neg hpos, hplaces, hdigits, magnitude, if_pos rfl, Rat.num_natCast,
    Rat.den_natCast, Int.natAbs_natCast, pow_zero, Nat.mul_one, Nat.div_one, List.nil_append]

lemma isLiteral_natCast (n : ℕ) : IsLiteral (toString n).toList :=
  literal_natCast n ▸ isLiteral_literal n

lemma readLiteral_natCast (n : ℕ) : readLiteral (toString n).toList = n := by
  rw [← literal_natCast, readLiteral_literal ⟨0, by simp⟩]

end JsonText

end Formats
