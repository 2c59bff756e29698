import PeerLedger.Formats.IsoDate
import Mathlib.Data.List.Induction

/-!
# Numbers with a fixed number of decimal places

A number of units, of which `10 ^ places` make one whole, is written by `text places` as its whole
part, a point and the digits after it.  The whole part is `Plain`: it has no leading zero.
`eq_text` says which texts are written, and `text_injective` that none of them is written for two
numbers.
-/

namespace Formats

namespace FixedPoint

open IsoDate

/-! ### Digits -/

/-- Every character is a decimal digit. -/
def AllDigits (ds : List Char) : Prop := ∀ c ∈ ds, c.isDigit = true

/-- Digits of which the first is not `0`, unless it is the only one. -/
structure Plain (ds : List Char) : Prop where
  ne_nil : ds ≠ []
  allDigits : AllDigits ds
  head : ∀ rest, ds = '0' :: rest → rest = []

/-- The number that some digits write. -/
def value (ds : List Char) : Nat := Nat.ofDigitChars 10 ds 0

lemma digit_toNat_sub {c : Char} (h : c.isDigit = true) :
    c.toNat - 48 < 10 ∧ digit (c.toNat - 48) = c ∧ Nat.digitChar (c.toNat - 48) = c := by
  rw [Char.isDigit, Bool.and_eq_true, decide_eq_true_eq, decide_eq_true_eq] at h
  have hrange : 48 ≤ c.toNat ∧ c.toNat ≤ 57 :=
    ⟨UInt32.le_iff_toNat_le.mp h.1, UInt32.le_iff_toNat_le.mp h.2⟩
  have hchar : c = Char.ofNat c.toNat := (Char.ofNat_toNat c).symm
  have hlt : c.toNat - 48 < 10 := by omega
  have hall : ∀ n < 10, digit n = Char.ofNat (n + 48) ∧ Nat.digitChar n = Char.ofNat (n + 48) := by
    decide
  obtain ⟨hdigit, hdigitChar⟩ := hall _ hlt
  have hback : c.toNat - 48 + 48 = c.toNat := by omega
  rw [hback, ← hchar] at hdigit hdigitChar
  exact ⟨hlt, hdigit, hdigitChar⟩

lemma value_cons (c : Char) (ds : List Char) :
    value (c :: ds) = (c.toNat - 48) * 10 ^ ds.length + value ds := by
  unfold value
  rw [Nat.ofDigitChars_cons, Nat.ofDigitChars_eq_ofDigitChars_zero, Nat.mul_zero, Nat.zero_add,
    Nat.mul_comm]
  rfl

lemma value_concat (ds : List Char) (c : Char) :
    value (ds ++ [c]) = 10 * value ds + (c.toNat - 48) := by
  unfold value
  rw [Nat.ofDigitChars_append]
  rfl

/-- Digits write a number that has no more digits than they are. -/
lemma value_lt {ds : List Char} (h : AllDigits ds) : value ds < 10 ^ ds.length := by
  induction ds with
  | nil => decide
  | cons c ds ih =>
    have hc := (digit_toNat_sub (h c List.mem_cons_self)).1
    have hrest := ih fun d hd => h d (List.mem_cons_of_mem c hd)
    rw [value_cons, List.length_cons, Nat.pow_succ]
    calc (c.toNat - 48) * 10 ^ ds.length + value ds
        < (c.toNat - 48) * 10 ^ ds.length + 10 ^ ds.length := Nat.add_lt_add_left hrest _
      _ = (c.toNat - 48 + 1) * 10 ^ ds.length := by ring
      _ ≤ 10 * 10 ^ ds.length := Nat.mul_le_mul_right _ hc
      _ = 10 ^ ds.length * 10 := Nat.mul_comm _ _

/-- Only the last digits of a number are written. -/
lemma digits_add (width k n : Nat) : digits width (k * 10 ^ width + n) = digits width n := by
  induction width generalizing k with
  | zero => rfl
  | succ width ih =>
    have hsplit : k * 10 ^ (width + 1) + n = k * 10 * 10 ^ width + n := by ring
    have hpos : 0 < 10 ^ width := Nat.pow_pos (by decide)
    rw [digits, digits, hsplit, ih, Nat.add_comm, Nat.add_mul_div_right _ _ hpos,
      Nat.add_mul_mod_self_right]

lemma digits_mod (width n : Nat) : digits width (n % 10 ^ width) = digits width n := by
  have h := digits_add width (n / 10 ^ width) (n % 10 ^ width)
  rwa [Nat.mul_comm, Nat.div_add_mod, eq_comm] at h

/-- Digits are those of the number that they write. -/
lemma digits_value {ds : List Char} (h : AllDigits ds) : digits ds.length (value ds) = ds := by
  induction ds with
  | nil => rfl
  | cons c ds ih =>
    obtain ⟨hc, hdigit, -⟩ := digit_toNat_sub (h c List.mem_cons_self)
    have hrest : AllDigits ds := fun d hd => h d (List.mem_cons_of_mem c hd)
    have hpos : 0 < 10 ^ ds.length := Nat.pow_pos (by decide)
    rw [List.length_cons, digits, value_cons, digits_add, ih hrest, Nat.add_comm,
      Nat.add_mul_div_right _ _ hpos, Nat.div_eq_of_lt (value_lt hrest), Nat.zero_add,
      Nat.mod_eq_of_lt hc, hdigit]

lemma length_digits (width n : Nat) : (digits width n).length = width := by
  induction width with
  | zero => rfl
  | succ width ih => rw [digits, List.length_cons, ih]

lemma allDigits_digits (width n : Nat) : AllDigits (digits width n) := by
  induction width with
  | zero => exact fun c hc => absurd hc List.not_mem_nil
  | succ width ih =>
    intro c hc
    rw [digits, List.mem_cons] at hc
    rcases hc with rfl | hc
    · exact (digit_spec (Nat.mod_lt _ (by decide))).1
    · exact ih c hc

/-- The digits that are written have the value of the number, up to those that are left out. -/
lemma value_digits (width n : Nat) : value (digits width n) = n % 10 ^ width := by
  induction width with
  | zero => simp [digits, value, Nat.mod_one]
  | succ width ih =>
    rw [digits, value_cons, length_digits, ih, (digit_spec (Nat.mod_lt _ (by decide))).2,
      Nat.mod_pow_succ, Nat.mul_comm, Nat.add_comm]

/-- A numeral, padded with zeros. -/
lemma replicate_append_toDigits {width n : Nat} (hwidth : 0 < width) (h : n < 10 ^ width) :
    List.replicate (width - (Nat.toDigits 10 n).length) '0' ++ Nat.toDigits 10 n = digits width n := by
  have hlength : (Nat.toDigits 10 n).length ≤ width :=
    (Nat.length_toDigits_le_iff (by decide) hwidth).mpr h
  have hall :
      AllDigits (List.replicate (width - (Nat.toDigits 10 n).length) '0' ++ Nat.toDigits 10 n) := by
    intro c hc
    rcases List.mem_append.mp hc with hc | hc
    · rw [(List.mem_replicate.mp hc).2]
      rfl
    · exact Nat.isDigit_of_mem_toDigits (by decide) (by decide) hc
  have hvalue :
      value (List.replicate (width - (Nat.toDigits 10 n).length) '0' ++ Nat.toDigits 10 n) = n := by
    unfold value
    rw [Nat.ofDigitChars_append, Nat.ofDigitChars_replicate_zero, Nat.mul_zero,
      Nat.ofDigitChars_ten_toDigits]
  have hback := digits_value hall
  rw [hvalue, List.length_append, List.length_replicate, Nat.sub_add_cancel hlength] at hback
  exact hback.symm

/-! ### Numerals -/

lemma toDigits_head {n : Nat} {rest : List Char} (h : Nat.toDigits 10 n = '0' :: rest) :
    rest = [] := by
  induction n using Nat.strong_induction_on generalizing rest with
  | _ n ih =>
    rcases Nat.lt_or_ge n 10 with hlt | hge
    · rw [Nat.toDigits_of_lt_base hlt] at h
      exact (List.cons.inj h).2.symm
    · rw [Nat.toDigits_of_base_le (by decide) hge] at h
      -- the digits before the last one start with the same digit, and they write no zero
      obtain ⟨rest', hrest', -⟩ : ∃ rest', Nat.toDigits 10 (n / 10) = '0' :: rest' ∧
          rest = rest' ++ [Nat.digitChar (n % 10)] := by
        rcases List.append_eq_cons_iff.mp h with ⟨hnil, -⟩ | ⟨rest', hrest', hrest⟩
        · exact absurd hnil Nat.toDigits_ne_nil
        · exact ⟨rest', hrest', hrest⟩
      obtain rfl := ih (n / 10) (Nat.div_lt_self (by omega) (by decide)) hrest'
      have hzero : n / 10 = 0 := by
        rw [← Nat.ofDigitChars_ten_toDigits (n := n / 10), hrest']
        rfl
      omega

/-- The numeral of a number is plain. -/
lemma plain_toDigits (n : Nat) : Plain (Nat.toDigits 10 n) :=
  ⟨Nat.toDigits_ne_nil, fun _ hc => Nat.isDigit_of_mem_toDigits (by decide) (by decide) hc,
    fun _ h => toDigits_head h⟩

lemma Plain.value_pos {ds : List Char} (h : Plain ds) (hne : ds ≠ ['0']) : 0 < value ds := by
  obtain ⟨c, rest, rfl⟩ := List.exists_cons_of_ne_nil h.ne_nil
  have hc : c ≠ '0' := by
    rintro rfl
    exact hne (by rw [h.head rest rfl])
  obtain ⟨-, hdigit, -⟩ := digit_toNat_sub (h.allDigits c List.mem_cons_self)
  have hpos : 0 < c.toNat - 48 := by
    rw [Nat.pos_iff_ne_zero]
    intro hzero
    rw [hzero] at hdigit
    exact hc hdigit.symm
  rw [value_cons]
  exact Nat.add_pos_left (Nat.mul_pos hpos (Nat.pow_pos (by decide))) _

/-- Plain digits are the numeral of the number that they write. -/
lemma Plain.toDigits_value {ds : List Char} (h : Plain ds) : Nat.toDigits 10 (value ds) = ds := by
  induction ds using List.reverseRecOn with
  | nil => exact absurd rfl h.ne_nil
  | append_singleton ds c ih =>
    obtain ⟨hlt, -, hchar⟩ := digit_toNat_sub (h.allDigits c (by simp))
    rw [value_concat]
    rcases eq_or_ne ds [] with rfl | hne
    · rw [show 10 * value [] + (c.toNat - 48) = c.toNat - 48 from Nat.zero_add _,
        Nat.toDigits_of_lt_base hlt, hchar]
      rfl
    · have hds : Plain ds := by
        refine ⟨hne, fun d hd => h.allDigits d (List.mem_append_left _ hd), ?_⟩
        rintro rest rfl
        exact absurd (h.head (rest ++ [c]) rfl) (by simp)
      have hpos : 0 < value ds := by
        refine hds.value_pos ?_
        rintro rfl
        exact absurd (h.head [c] rfl) (by simp)
      rw [← Nat.toDigits_append_toDigits (by decide) hpos hlt, ih hds,
        Nat.toDigits_of_lt_base hlt, hchar]

/-! ### Texts -/

/-- The whole part of a number of units, a point and the places after it. -/
def text (places n : Nat) : List Char := Nat.toDigits 10 (n / 10 ^ places) ++ '.' :: digits places n

/-- The texts that are written: a plain whole part, a point and as many digits as there are
places. -/
theorem eq_text {places n : Nat} {s : List Char} :
    s = text places n ↔ ∃ whole fraction, s = whole ++ '.' :: fraction ∧ Plain whole ∧
      AllDigits fraction ∧ fraction.length = places ∧
      n = value whole * 10 ^ places + value fraction := by
  constructor
  · rintro rfl
    refine ⟨_, _, rfl, plain_toDigits _, allDigits_digits places n, length_digits places n, ?_⟩
    rw [value_digits]
    unfold value
    rw [Nat.ofDigitChars_ten_toDigits, Nat.mul_comm]
    exact (Nat.div_add_mod n (10 ^ places)).symm
  · rintro ⟨whole, fraction, rfl, hwhole, hfraction, rfl, rfl⟩
    have hpos : 0 < 10 ^ fraction.length := Nat.pow_pos (by decide)
    unfold text
    rw [digits_add, digits_value hfraction, Nat.add_comm, Nat.add_mul_div_right _ _ hpos,
      Nat.div_eq_of_lt (value_lt hfraction), Nat.zero_add, hwhole.toDigits_value]

/-- The parts of a text that is written determine it. -/
theorem text_injective (places : Nat) : Function.Injective (text places) := by
  intro m n h
  obtain ⟨whole, fraction, hm, -, -, hlength, rfl⟩ := eq_text.mp (rfl : text places m = _)
  obtain ⟨whole', fraction', hn, -, -, hlength', rfl⟩ := eq_text.mp (rfl : text places n = _)
  rw [hm, hn] at h
  obtain ⟨rfl, htail⟩ := List.append_inj' h (by
    rw [List.length_cons, List.length_cons, hlength, hlength'])
  rw [(List.cons.inj htail).2]

/-- A text has no sign. -/
lemma text_ne_minus (places n : Nat) (rest : List Char) : text places n ≠ '-' :: rest := by
  intro h
  obtain ⟨c, ds, hds⟩ := List.exists_cons_of_ne_nil (plain_toDigits (n / 10 ^ places)).ne_nil
  have hc : c.isDigit = true :=
    (plain_toDigits (n / 10 ^ places)).allDigits c (by rw [hds]; exact List.mem_cons_self)
  rw [text, hds] at h
  rw [(List.cons.inj h).1] at hc
  exact absurd hc (by decide)

example : text 2 7 = "0.07".toList := by decide +kernel

end FixedPoint

end Formats
