import PeerLedger.Numbers.Rounding
import PeerLedger.Payments.CreationRaces
import Mathlib.Algebra.BigOperators.Ring.List

/-!
# The amounts of FX quotes

`quoteTransfer` rounds the exact quotient half up (`quoteTransfer_ok_iff`).  The bounds of
`Numbers.halfUp` give the bounds of the quoted amounts.
-/

namespace PeerLedger

namespace Payments

open Numbers

/-- The amount of a quote. -/
def convert (source : Int) (sourceCurrency destinationCurrency : String) : Int :=
  halfUp (source * MICRO_USD_VALUE sourceCurrency) (MICRO_USD_VALUE destinationCurrency)

variable {source quotedAt : Int} {sourceCurrency destinationCurrency : String} {quote : FxQuote}

lemma MICRO_USD_VALUE_le {currency : String} (h : isSupportedCurrency currency = true) :
    24390 ≤ MICRO_USD_VALUE currency ∧ MICRO_USD_VALUE currency ≤ 1087000 := by
  simp only [isSupportedCurrency, SUPPORTED_CURRENCIES, decide_eq_true_eq, List.mem_cons,
    List.not_mem_nil, or_false] at h
  rcases h with rfl | rfl | rfl <;> decide

/-- The truncated quotient of the code is the one that is rounded down. -/
lemma tdiv_eq_convert (hsource : isSupportedCurrency sourceCurrency = true)
    (hdestination : isSupportedCurrency destinationCurrency = true) (hpositive : 0 < source) :
    (source * MICRO_USD_VALUE sourceCurrency +
      (MICRO_USD_VALUE destinationCurrency).tdiv 2).tdiv (MICRO_USD_VALUE destinationCurrency) =
      convert source sourceCurrency destinationCurrency := by
  have hnum := MICRO_USD_VALUE_pos hsource
  have hden := MICRO_USD_VALUE_pos hdestination
  have hhalf : (MICRO_USD_VALUE destinationCurrency).tdiv 2 = MICRO_USD_VALUE destinationCurrency / 2 :=
    Int.tdiv_eq_ediv_of_nonneg hden.le
  rw [hhalf, Int.tdiv_eq_ediv_of_nonneg (by positivity)]
  rfl

/-- A quote is given if and only if the converted amount is positive, and it carries that amount. -/
lemma quoteTransfer_ok_iff (hsource : isSupportedCurrency sourceCurrency = true)
    (hdestination : isSupportedCurrency destinationCurrency = true) (hpositive : 0 < source) :
    quoteTransfer source sourceCurrency destinationCurrency quotedAt = .ok quote ↔
      0 < convert source sourceCurrency destinationCurrency ∧ quote =
        { destinationAmountMinor := convert source sourceCurrency destinationCurrency
          rateNumerator := MICRO_USD_VALUE sourceCurrency
          rateDenominator := MICRO_USD_VALUE destinationCurrency
          displayRate := formatRate (MICRO_USD_VALUE sourceCurrency)
            (MICRO_USD_VALUE destinationCurrency)
          quotedAt, expiresAt := quotedAt + 15 * 60000 } := by
  have hsupported : (!isSupportedCurrency sourceCurrency ||
      !isSupportedCurrency destinationCurrency) = false := by
    rw [hsource, hdestination]
    rfl
  unfold quoteTransfer
  simp only [hsupported, Bool.false_eq_true, if_false, if_neg (not_le.mpr hpositive),
    tdiv_eq_convert hsource hdestination hpositive]
  split_ifs with hnone
  · exact iff_of_false (fun h => h.elim) fun h => not_le.mpr h.1 hnone
  · constructor
    · intro h
      exact ⟨not_le.mp hnone, (Except.ok.inj h).symm⟩
    · rintro ⟨-, rfl⟩
      rfl

/-- A quoted amount is the converted one. -/
lemma quoteTransfer_amount (hdestination : isSupportedCurrency destinationCurrency = true)
    (h : quoteTransfer source sourceCurrency destinationCurrency quotedAt = .ok quote) :
    0 < source ∧ 0 < convert source sourceCurrency destinationCurrency ∧
      quote.destinationAmountMinor = convert source sourceCurrency destinationCurrency := by
  obtain ⟨hsource, hpositive, -, -⟩ := quoteTransfer_ok h
  obtain ⟨hamount, rfl⟩ := (quoteTransfer_ok_iff hsource hdestination hpositive).mp h
  exact ⟨hpositive, hamount, rfl⟩

/-- The converted amount of every safe integer fits a column of 64 bits. -/
lemma convert_fits (hsource : isSupportedCurrency sourceCurrency = true)
    (hdestination : isSupportedCurrency destinationCurrency = true) (hpositive : 0 < source)
    (hsafe : source ≤ Ledger.MAX_SAFE_INTEGER) :
    Ledger.fitsBigint (convert source sourceCurrency destinationCurrency) := by
  unfold Ledger.MAX_SAFE_INTEGER at hsafe
  obtain ⟨-, hnum⟩ := MICRO_USD_VALUE_le hsource
  obtain ⟨hden, -⟩ := MICRO_USD_VALUE_le hdestination
  have hdenpos := MICRO_USD_VALUE_pos hdestination
  obtain ⟨hlow, hhigh⟩ :=
    halfUp_spec hdenpos (source * MICRO_USD_VALUE sourceCurrency)
  change -_ < 2 * (convert source sourceCurrency destinationCurrency * _ - _) at hlow
  change 2 * (convert source sourceCurrency destinationCurrency * _ - _) ≤ _ at hhigh
  generalize convert source sourceCurrency destinationCurrency = d at hlow hhigh ⊢
  have hproduct : source * MICRO_USD_VALUE sourceCurrency ≤ 9007199254740991 * 1087000 :=
    Int.mul_le_mul hsafe hnum (MICRO_USD_VALUE_pos hsource).le (by decide)
  have hnonneg : 0 < source * MICRO_USD_VALUE sourceCurrency :=
    Int.mul_pos hpositive (MICRO_USD_VALUE_pos hsource)
  constructor
  · by_contra hsmall
    have hle : d * MICRO_USD_VALUE destinationCurrency ≤ -1 * MICRO_USD_VALUE destinationCurrency :=
      Int.mul_le_mul_of_nonneg_right (by omega) hdenpos.le
    omega
  · by_contra hlarge
    have hle : 2 ^ 63 * MICRO_USD_VALUE destinationCurrency ≤
        d * MICRO_USD_VALUE destinationCurrency :=
      Int.mul_le_mul_of_nonneg_right (by omega) hdenpos.le
    omega

/-- The accepted amounts of some quotes are summed up and quoted together. -/
lemma convert_sum_pos (hdestination : isSupportedCurrency destinationCurrency = true)
    {quotes : List (Int × FxQuote)} (hne : quotes ≠ [])
    (hquotes : ∀ p ∈ quotes, ∃ quotedAt,
      quoteTransfer p.1 sourceCurrency destinationCurrency quotedAt = .ok p.2) :
    0 < (quotes.map Prod.fst).sum ∧
      0 < convert (quotes.map Prod.fst).sum sourceCurrency destinationCurrency := by
  have hpositive : ∀ p ∈ quotes, 0 < p.1 := by
    intro p hp
    obtain ⟨quotedAt, hquote⟩ := hquotes p hp
    exact (quoteTransfer_amount hdestination hquote).1
  obtain ⟨p, rest, rfl⟩ := List.exists_cons_of_ne_nil hne
  have hrest : 0 ≤ (rest.map Prod.fst).sum := by
    refine List.sum_nonneg fun n hn => ?_
    obtain ⟨q, hq, rfl⟩ := List.mem_map.mp hn
    exact (hpositive q (List.mem_cons_of_mem p hq)).le
  have hp := hpositive p List.mem_cons_self
  obtain ⟨quotedAt, hquote⟩ := hquotes p List.mem_cons_self
  obtain ⟨hsource, -, -, -⟩ := quoteTransfer_ok hquote
  have hamount := (quoteTransfer_amount hdestination hquote).2.1
  rw [List.map_cons, List.sum_cons]
  refine ⟨by omega, lt_of_lt_of_le hamount ?_⟩
  refine halfUp_mono (MICRO_USD_VALUE_pos hdestination) ?_
  exact Int.mul_le_mul_of_nonneg_right (by omega) (MICRO_USD_VALUE_pos hsource).le

/-- The amounts of the quotes are the rounded parts. -/
lemma map_destinationAmountMinor (hdestination : isSupportedCurrency destinationCurrency = true)
    {quotes : List (Int × FxQuote)} (hquotes : ∀ p ∈ quotes, ∃ quotedAt,
      quoteTransfer p.1 sourceCurrency destinationCurrency quotedAt = .ok p.2) :
    quotes.map (fun p => p.2.destinationAmountMinor) =
      ((quotes.map Prod.fst).map (· * MICRO_USD_VALUE sourceCurrency)).map
        fun n => halfUp n (MICRO_USD_VALUE destinationCurrency) := by
  rw [List.map_map, List.map_map]
  refine List.map_congr_left fun p hp => ?_
  obtain ⟨quotedAt, hquote⟩ := hquotes p hp
  exact (quoteTransfer_amount hdestination hquote).2.2

/-- The conversion between two supported currencies is exact half-up rounding: a quote is given from
half a minor unit on, its amount is the nearest one with ties rounded up, it is monotone, it is the
source amount within one currency, and it fits a column of 64 bits for every safe integer.  Some quotes
differ in sum from the quote of the sum by half a unit each and half a unit more at most. -/
theorem fx_conversion (hsource : isSupportedCurrency sourceCurrency = true)
    (hdestination : isSupportedCurrency destinationCurrency = true) :
    (∀ source quotedAt, 0 < source →
      ((∃ quote, quoteTransfer source sourceCurrency destinationCurrency quotedAt = .ok quote) ↔
        MICRO_USD_VALUE destinationCurrency ≤ 2 * source * MICRO_USD_VALUE sourceCurrency)) ∧
    (∀ source quotedAt quote,
      quoteTransfer source sourceCurrency destinationCurrency quotedAt = .ok quote →
      -MICRO_USD_VALUE destinationCurrency <
          2 * (quote.destinationAmountMinor * MICRO_USD_VALUE destinationCurrency -
            source * MICRO_USD_VALUE sourceCurrency) ∧
        2 * (quote.destinationAmountMinor * MICRO_USD_VALUE destinationCurrency -
            source * MICRO_USD_VALUE sourceCurrency) ≤ MICRO_USD_VALUE destinationCurrency ∧
        (sourceCurrency = destinationCurrency → quote.destinationAmountMinor = source) ∧
        (source ≤ Ledger.MAX_SAFE_INTEGER → Ledger.fitsBigint quote.destinationAmountMinor)) ∧
    (∀ source source' quotedAt quotedAt' quote quote', source ≤ source' →
      quoteTransfer source sourceCurrency destinationCurrency quotedAt = .ok quote →
      quoteTransfer source' sourceCurrency destinationCurrency quotedAt' = .ok quote' →
      quote.destinationAmountMinor ≤ quote'.destinationAmountMinor) ∧
    (∀ quotes : List (Int × FxQuote), quotes ≠ [] →
      (∀ p ∈ quotes, ∃ quotedAt,
        quoteTransfer p.1 sourceCurrency destinationCurrency quotedAt = .ok p.2) →
      ∀ quotedAt, ∃ total, quoteTransfer (quotes.map Prod.fst).sum sourceCurrency
          destinationCurrency quotedAt = .ok total ∧
        2 * |(quotes.map fun p => p.2.destinationAmountMinor).sum - total.destinationAmountMinor| ≤
          quotes.length + 1) := by
  have hden := MICRO_USD_VALUE_pos hdestination
  refine ⟨?_, ?_, ?_, ?_⟩
  · intro source quotedAt hpositive
    have hhalf := halfUp_pos_iff (n := source * MICRO_USD_VALUE sourceCurrency) hden
    rw [← Int.mul_assoc] at hhalf
    rw [← hhalf]
    constructor
    · rintro ⟨quote, hquote⟩
      exact (quoteTransfer_amount hdestination hquote).2.1
    · intro hamount
      exact ⟨_, (quoteTransfer_ok_iff hsource hdestination hpositive).mpr ⟨hamount, rfl⟩⟩
  · intro source quotedAt quote hquote
    obtain ⟨hpositive, -, hamount⟩ := quoteTransfer_amount hdestination hquote
    obtain ⟨hlow, hhigh⟩ := halfUp_spec hden (source * MICRO_USD_VALUE sourceCurrency)
    rw [hamount]
    refine ⟨hlow, hhigh, ?_, convert_fits hsource hdestination hpositive⟩
    rintro rfl
    exact halfUp_mul hden source
  · intro source source' quotedAt quotedAt' quote quote' hle hquote hquote'
    rw [(quoteTransfer_amount hdestination hquote).2.2,
      (quoteTransfer_amount hdestination hquote').2.2]
    refine halfUp_mono hden ?_
    exact Int.mul_le_mul_of_nonneg_right hle (MICRO_USD_VALUE_pos hsource).le
  · intro quotes hne hquotes quotedAt
    obtain ⟨hpositive, hamount⟩ := convert_sum_pos hdestination hne hquotes
    refine ⟨_, (quoteTransfer_ok_iff hsource hdestination hpositive).mpr ⟨hamount, rfl⟩, ?_⟩
    have hdrift := halfUp_drift hden
      ((quotes.map Prod.fst).map (· * MICRO_USD_VALUE sourceCurrency))
    have hsum : ((quotes.map Prod.fst).map (· * MICRO_USD_VALUE sourceCurrency)).sum =
        (quotes.map Prod.fst).sum * MICRO_USD_VALUE sourceCurrency := by
      rw [List.sum_map_mul_right, List.map_id']
    rw [List.length_map, List.length_map, hsum] at hdrift
    rw [map_destinationAmountMinor hdestination hquotes]
    exact hdrift

/-- Half a cent is more than twenty kopiykas. -/
theorem fx_conversion_uah_usd :
    (¬ ∃ quote, quoteTransfer 20 "UAH" "USD" 0 = .ok quote) ∧
      ∃ quote, quoteTransfer 21 "UAH" "USD" 0 = .ok quote := by
  have hsource : isSupportedCurrency "UAH" = true := by decide
  have hdestination : isSupportedCurrency "USD" = true := by decide
  have haccepted := (fx_conversion hsource hdestination).1
  exact ⟨(haccepted 20 0 (by decide)).not.mpr (by decide), (haccepted 21 0 (by decide)).mpr (by decide)⟩

end Payments

end PeerLedger
