import PeerLedger.Payments.SplitBills

/-!
# Amounts as text

The totals and shares of a split bill come as text and are parsed by `parseMoneyToMinor`, and the
views show amounts by `formatMinorUnits`.  Both are the `FixedPoint` text with two places: a text is
accepted exactly when it is the one of a positive amount that is not too large
(`parseMoneyToMinor_ok`), and the ledger writes its amounts in the same way (`money_text`).
-/

namespace PeerLedger

namespace Payments

open Formats Formats.FixedPoint

/-! ### Writing -/

/-- The two services write an amount that is not negative in the same way. -/
lemma formatMinorUnits_eq {m : Int} (h : 0 ≤ m) :
    formatMinorUnits m = Ledger.formatMinorUnits m := by
  obtain ⟨n, rfl⟩ := Int.eq_ofNat_of_zero_le h
  have hsign : ¬ (n : Int) < 0 := Int.not_lt.mpr (Int.natCast_nonneg n)
  rw [formatMinorUnits, Ledger.formatMinorUnits]
  simp only [if_neg hsign, String.empty_append, Int.natAbs_natCast]
  rfl

lemma toList_formatMinorUnits {m : Int} (h : 0 ≤ m) :
    (formatMinorUnits m).toList = text 2 m.toNat := by
  have habs : m.natAbs = m.toNat := by omega
  rw [formatMinorUnits_eq h, Ledger.toList_formatMinorUnits, if_neg (not_lt.mpr h), habs]
  rfl

/-! ### Reading -/

/-- The whole part of the pattern has no leading zero. -/
lemma isWhole_iff {ds : List Char} : isWhole ds = true ↔ Plain ds := by
  cases ds with
  | nil => exact ⟨fun h => absurd h (by decide), fun h => absurd rfl h.ne_nil⟩
  | cons c rest =>
    simp only [isWhole, Bool.or_eq_true, Bool.and_eq_true, decide_eq_true_eq,
      List.isEmpty_iff, List.all_eq_true]
    constructor
    · rintro (⟨rfl, rfl⟩ | ⟨⟨hne, hc⟩, hrest⟩)
      · exact ⟨by simp, by simp [AllDigits], by simp⟩
      · refine ⟨by simp, ?_, fun rest' h => absurd (List.cons.inj h).1 hne⟩
        intro d hd
        rcases List.mem_cons.mp hd with rfl | hd
        · exact hc
        · exact hrest d hd
    · intro h
      by_cases hzero : c = '0'
      · subst hzero
        exact .inl ⟨rfl, h.head rest rfl⟩
      · exact .inr ⟨⟨hzero, h.allDigits c List.mem_cons_self⟩,
          fun d hd => h.allDigits d (List.mem_cons_of_mem c hd)⟩

/-- The texts that match the pattern, and their parts. -/
lemma moneyParts_eq_some {s : String} {w f : Nat} :
    moneyParts s = some (w, f) ↔ ∃ whole a b, s.toList = whole ++ ['.', a, b] ∧ Plain whole ∧
      a.isDigit = true ∧ b.isDigit = true ∧ w = value whole ∧ f = value [a, b] := by
  constructor
  · intro h
    rw [moneyParts] at h
    split at h
    next a b htail =>
      split at h
      next hdigits =>
        rw [Bool.and_eq_true, Bool.and_eq_true] at hdigits
        obtain ⟨rfl, rfl⟩ := Prod.mk.inj (Option.some.inj h)
        refine ⟨_, a, b, ?_, isWhole_iff.mp hdigits.1.1, hdigits.1.2, hdigits.2, rfl, rfl⟩
        rw [← htail, List.take_append_drop]
      · cases h
    · cases h
  · rintro ⟨whole, a, b, hs, hwhole, ha, hb, rfl, rfl⟩
    have hlength : s.toList.length - 3 = whole.length := by
      rw [hs, List.length_append]
      rfl
    rw [moneyParts, hlength, hs, List.take_left, List.drop_left]
    simp only [isWhole_iff.mpr hwhole, ha, hb, Bool.and_true, if_true]
    rfl

/-- A text matches the pattern exactly when it is written for a number, which its parts make up. -/
lemma toList_eq_text {s : String} {n : Nat} :
    s.toList = text 2 n ↔ ∃ w f, moneyParts s = some (w, f) ∧ n = w * 100 + f := by
  rw [eq_text]
  constructor
  · rintro ⟨whole, fraction, hs, hwhole, hfraction, hlength, rfl⟩
    obtain ⟨a, b, rfl⟩ := List.length_eq_two.mp hlength
    exact ⟨_, _, moneyParts_eq_some.mpr ⟨whole, a, b, hs, hwhole, hfraction a (by simp),
      hfraction b (by simp), rfl, rfl⟩, rfl⟩
  · rintro ⟨w, f, hparts, rfl⟩
    obtain ⟨whole, a, b, hs, hwhole, ha, hb, rfl, rfl⟩ := moneyParts_eq_some.mp hparts
    refine ⟨whole, [a, b], hs, hwhole, ?_, rfl, rfl⟩
    intro d hd
    rcases List.mem_cons.mp hd with rfl | hd
    · exact ha
    · rw [List.mem_singleton.mp hd]
      exact hb

/-- The texts that are accepted: those of the positive amounts that are not too large. -/
lemma parseMoneyToMinor_ok {s field : String} {m : Int} :
    parseMoneyToMinor s field = .ok m ↔
      0 < m ∧ m ≤ Ledger.MAX_SAFE_INTEGER ∧ s.toList = text 2 m.toNat := by
  rw [toList_eq_text, parseMoneyToMinor]
  constructor
  · intro h
    split at h
    · cases h
    next w f hparts =>
      dsimp only at h
      split_ifs at h with hpositive hlarge
      obtain rfl := Except.ok.inj h
      exact ⟨not_le.mp hpositive, not_lt.mp hlarge, w, f, hparts, by omega⟩
  · rintro ⟨hpositive, hlarge, w, f, hparts, hm⟩
    have hminor : (w : Int) * 100 + f = m := by omega
    rw [hparts]
    dsimp only
    rw [hminor, if_neg (not_le.mpr hpositive), if_neg (not_lt.mpr hlarge)]

lemma parseMoneyToMinor_pos {value field : String} {minor : Int}
    (h : parseMoneyToMinor value field = .ok minor) : 0 < minor :=
  (parseMoneyToMinor_ok.mp h).1

lemma parseMoneyToMinor_le {value field : String} {minor : Int}
    (h : parseMoneyToMinor value field = .ok minor) : minor ≤ Ledger.MAX_SAFE_INTEGER :=
  (parseMoneyToMinor_ok.mp h).2.1

/-- An accepted amount is written as it was read. -/
lemma formatMinorUnits_of_parse {s field : String} {m : Int}
    (h : parseMoneyToMinor s field = .ok m) : formatMinorUnits m = s := by
  obtain ⟨hpositive, -, hs⟩ := parseMoneyToMinor_ok.mp h
  rw [← String.toList_inj, toList_formatMinorUnits hpositive.le, hs]

/-- A positive amount that is not too large is read as it was written. -/
lemma parse_formatMinorUnits {m : Int} (hpositive : 0 < m) (hlarge : m ≤ Ledger.MAX_SAFE_INTEGER)
    (field : String) : parseMoneyToMinor (formatMinorUnits m) field = .ok m :=
  parseMoneyToMinor_ok.mpr ⟨hpositive, hlarge, toList_formatMinorUnits hpositive.le⟩

/-- Reading and writing amounts are inverse to each other between the accepted texts and the positive
amounts up to `MAX_SAFE_INTEGER`; the ledger writes every amount that is not negative in the same
way, and different integers in different ways. -/
theorem money_text (field : String) :
    (∀ m, 0 < m → m ≤ Ledger.MAX_SAFE_INTEGER →
      parseMoneyToMinor (formatMinorUnits m) field = .ok m) ∧
    (∀ s m, parseMoneyToMinor s field = .ok m → formatMinorUnits m = s) ∧
    (∀ s, (∃ m, parseMoneyToMinor s field = .ok m) ↔
      ∃ m, 0 < m ∧ m ≤ Ledger.MAX_SAFE_INTEGER ∧ formatMinorUnits m = s) ∧
    (∀ m, 0 ≤ m → Ledger.formatMinorUnits m = formatMinorUnits m) ∧
    Function.Injective Ledger.formatMinorUnits := by
  refine ⟨fun m hpositive hlarge => parse_formatMinorUnits hpositive hlarge field,
    fun s m h => formatMinorUnits_of_parse h, fun s => ⟨?_, ?_⟩,
    fun m h => (formatMinorUnits_eq h).symm, fun m n h => Ledger.formatMinorUnits_inj.mp h⟩
  · rintro ⟨m, h⟩
    obtain ⟨hpositive, hlarge, -⟩ := parseMoneyToMinor_ok.mp h
    exact ⟨m, hpositive, hlarge, formatMinorUnits_of_parse h⟩
  · rintro ⟨m, hpositive, hlarge, rfl⟩
    exact ⟨m, parse_formatMinorUnits hpositive hlarge field⟩

/-- Under one unit, at the limit, and a negative amount under one unit. -/
example : formatMinorUnits 7 = "0.07" ∧
    formatMinorUnits Ledger.MAX_SAFE_INTEGER = "90071992547409.91" ∧
    Ledger.formatMinorUnits (-7) = "-0.07" := by decide +kernel

end Payments

end PeerLedger
