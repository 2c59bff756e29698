import PeerLedger.Numbers.FloatingPoint
import PeerLedger.Payments.Amounts
import PeerLedger.Payments.Scripts

/-!
# Amounts as JavaScript numbers

The other modules compute with the exact amounts of requests.  In the source they are JavaScript
numbers: `LedgerHttpClient` sends `Number(amountMinor) / 100`, and both services multiply what they
receive by 100 and round.  Here each operation rounds to 53 binary digits.

The errors of the two operations stay below half a minor unit up to `100 * 2 ^ 45`, so that the
ledger books what the transfer says (`minorUnits_sent`).  The payments service also tests that an
amount has at most two decimal places; amounts up to `100 * 2 ^ 20` pass the test
(`minorUnits_entered`).  Both bounds are sharp.
-/

namespace PeerLedger

/-- The JavaScript number that is nearest to `x`; the exponents of amounts are in its range. -/
def double (x : ℚ) : ℚ := Numbers.roundTo 53 x

namespace Ledger

/-- `amountToMinorUnits` of a JavaScript number. -/
def amountToMinorUnitsOfNumber (amount : ℚ) : Except String Int :=
  let rounded := mathRound (double (amount * 100))
  if -MAX_SAFE_INTEGER ≤ rounded ∧ rounded ≤ MAX_SAFE_INTEGER then .ok rounded
  else .error "Amount exceeds the supported monetary range"

end Ledger

namespace Payments

open Transactions

/-- `Number(amountMinor) / 100`. -/
def amountNumber (amountMinor : Int) : ℚ := double (double amountMinor / 100)

/-- `amountToMinorUnits` of a JavaScript number. -/
def amountToMinorUnitsOfNumber (amount : ℚ) : Except PaymentsError Int :=
  let scaled := double (amount * 100)
  let rounded := Ledger.mathRound scaled
  if amount ≤ 0 ∨ ¬ (-Ledger.MAX_SAFE_INTEGER ≤ rounded ∧ rounded ≤ Ledger.MAX_SAFE_INTEGER) ∨
      double (1 / 10 ^ 8) < |double (scaled - rounded)| then
    .error (.badRequest "Invalid transfer amount")
  else .ok rounded

variable {n : Int} {x : ℚ}

/-! ### Errors of the two operations -/

/-- `Number(amountMinor)` is exact. -/
lemma double_intCast (h : |n| ≤ Ledger.MAX_SAFE_INTEGER) : double n = n := by
  refine Numbers.roundTo_intCast ?_
  unfold Ledger.MAX_SAFE_INTEGER at h
  omega

/-- `Math.round` finds an integer that is nearer than a half. -/
lemma mathRound_eq (h : |x - n| < 1 / 2) : Ledger.mathRound x = n := by
  obtain ⟨hlow, hhigh⟩ := abs_lt.mp h
  rw [Ledger.mathRound, Int.floor_eq_iff]
  constructor <;> linarith

/-- The amount as a number, in minor units again, before the second rounding. -/
lemma amountNumber_near {e : ℤ} (hpos : 0 < n) (hsafe : n ≤ Ledger.MAX_SAFE_INTEGER)
    (h : (n : ℚ) < 100 * 2 ^ e) : |amountNumber n * 100 - n| ≤ 50 * 2 ^ (e - 53) := by
  have hn : (0 : ℚ) < n / 100 := by
    have : (0 : ℚ) < n := by exact_mod_cast hpos
    positivity
  have hlt : |(n / 100 : ℚ)| < 2 ^ e := by
    rw [abs_of_pos hn]
    linarith
  have herror := @Numbers.roundTo_near ℚ _ _ _ _ (n / 100) 53 e hn.ne' hlt
  have hexact : double n = n := double_intCast (by rw [abs_of_pos hpos]; exact hsafe)
  have hscaled : amountNumber n * 100 - n = (double (n / 100) - n / 100) * 100 := by
    rw [amountNumber, hexact]
    ring
  rw [hscaled, abs_mul, abs_of_pos (by norm_num : (0 : ℚ) < 100)]
  calc |double (n / 100) - n / 100| * 100 ≤ 2 ^ (e - (53 : ℕ)) / 2 * 100 := by
        exact mul_le_mul_of_nonneg_right herror (by norm_num)
    _ = 50 * 2 ^ (e - 53) := by push_cast; ring

/-! ### What the ledger reads -/

/-- The number that the ledger rounds is nearer than a half to the amount. -/
lemma scaled_near (hpos : 0 < n) (h : n < 100 * 2 ^ 45) :
    |double (amountNumber n * 100) - n| < 1 / 2 := by
  have hn : (1 : ℚ) ≤ n := by exact_mod_cast hpos
  have hlt : (n : ℚ) < 100 * 2 ^ (45 : ℤ) := by exact_mod_cast h
  have hnear := amountNumber_near hpos (by unfold Ledger.MAX_SAFE_INTEGER; omega) hlt
  norm_num at hlt hnear
  obtain ⟨hlow, hhigh⟩ := abs_le.mp hnear
  have hscaled : 0 < amountNumber n * 100 := by linarith
  have hround : |double (amountNumber n * 100) - amountNumber n * 100| ≤ 1 / 4 := by
    have hbelow : |amountNumber n * 100| < 2 ^ (52 : ℤ) := by
      rw [abs_of_pos hscaled]
      norm_num
      linarith
    have := @Numbers.roundTo_near ℚ _ _ _ _ _ 53 52 hscaled.ne' hbelow
    norm_num at this
    exact this
  calc |double (amountNumber n * 100) - n|
      ≤ |double (amountNumber n * 100) - amountNumber n * 100| + |amountNumber n * 100 - n| :=
        abs_sub_le _ _ _
    _ < 1 / 2 := by linarith

/-- The ledger reads the amount that was sent. -/
lemma minorUnits_sent (hpos : 0 < n) (h : n < 100 * 2 ^ 45) :
    Ledger.amountToMinorUnitsOfNumber (amountNumber n) = .ok n := by
  have hround := mathRound_eq (scaled_near hpos h)
  simp only [Ledger.amountToMinorUnitsOfNumber, hround]
  rw [if_pos]
  unfold Ledger.MAX_SAFE_INTEGER
  omega

/-! ### What a user may enter -/

/-- Below `100 * 2 ^ 20` the two roundings together pass the test for two decimal places. -/
lemma scaled_close (hpos : 0 < n) (h : n < 100 * 2 ^ 20) :
    |double (amountNumber n * 100) - n| ≤ 955 / 10 ^ 11 := by
  have hn : (1 : ℚ) ≤ n := by exact_mod_cast hpos
  have hlt : (n : ℚ) < 100 * 2 ^ (20 : ℤ) := by exact_mod_cast h
  have hnear := amountNumber_near hpos (by unfold Ledger.MAX_SAFE_INTEGER; omega) hlt
  norm_num at hlt hnear
  obtain ⟨hlow, hhigh⟩ := abs_le.mp hnear
  have hscaled : 0 < amountNumber n * 100 := by linarith
  by_cases hsmall : amountNumber n * 100 < 2 ^ (26 : ℤ)
  · -- the digits are fine enough for both errors
    have hbelow : |amountNumber n * 100| < 2 ^ (26 : ℤ) := by rwa [abs_of_pos hscaled]
    have hround := @Numbers.roundTo_near ℚ _ _ _ _ _ 53 26 hscaled.ne' hbelow
    norm_num at hround
    calc |double (amountNumber n * 100) - n|
        ≤ |double (amountNumber n * 100) - amountNumber n * 100| + |amountNumber n * 100 - n| :=
          abs_sub_le _ _ _
      _ ≤ 955 / 10 ^ 11 := by
          refine (add_le_add hround hnear).trans ?_
          norm_num
  · -- the digits are so coarse that the second rounding undoes the first
    have hulp : Numbers.ulp 53 (amountNumber n * 100) = 2 ^ (-26 : ℤ) := by
      refine Numbers.ulp_eq (e := 26) ?_ ?_
      · rw [abs_of_pos hscaled]
        exact not_lt.mp hsmall
      · rw [abs_of_pos hscaled]
        norm_num
        linarith
    have hexact : double (amountNumber n * 100) = n := by
      refine Numbers.roundTo_eq (n := n * 2 ^ 26) ?_ ?_
      · rw [hulp]
        push_cast
        norm_num
        ring
      · rw [hulp, abs_sub_comm]
        refine hnear.trans_lt ?_
        norm_num
    rw [hexact, sub_self, abs_zero]
    norm_num

/-- The payments service reads the amount that was entered. -/
lemma minorUnits_entered (hpos : 0 < n) (h : n < 100 * 2 ^ 20) :
    amountToMinorUnitsOfNumber (amountNumber n) = .ok n := by
  have hround := mathRound_eq (scaled_near hpos (by omega))
  have hclose := scaled_close hpos h
  have hpositive : 0 < amountNumber n := by
    have hn : (1 : ℚ) ≤ n := by exact_mod_cast hpos
    have hnear := @amountNumber_near n 20 hpos (by unfold Ledger.MAX_SAFE_INTEGER; omega)
      (by exact_mod_cast h)
    norm_num at hnear
    linarith [(abs_le.mp hnear).1]
  -- the difference is rounded once more
  have htest : |double (double (amountNumber n * 100) - n)| ≤ double (1 / 10 ^ 8) := by
    have hbound : (96 : ℚ) / 10 ^ 10 ≤ double (1 / 10 ^ 8) := by decide +kernel
    refine le_trans ?_ hbound
    by_cases hzero : double (amountNumber n * 100) - n = 0
    · rw [hzero, double, Numbers.roundTo_zero, abs_zero]
      norm_num
    · have hbelow : |double (amountNumber n * 100) - n| < 2 ^ (-26 : ℤ) := by
        refine hclose.trans_lt ?_
        norm_num
      have hlast := @Numbers.roundTo_near ℚ _ _ _ _ _ 53 (-26) hzero hbelow
      norm_num at hlast
      have htriangle := abs_sub_abs_le_abs_sub (double (double (amountNumber n * 100) - n))
        (double (amountNumber n * 100) - n)
      rw [double] at htriangle
      rw [double]
      norm_num at hclose ⊢
      linarith
  simp only [amountToMinorUnitsOfNumber, hround]
  rw [if_neg]
  rintro (hnonpos | hunsafe | hlarge)
  · exact absurd hpositive (not_lt.mpr hnonpos)
  · refine hunsafe ?_
    unfold Ledger.MAX_SAFE_INTEGER
    omega
  · exact absurd htest (not_le.mpr hlarge)

/-- What JavaScript numbers do to amounts.  Every amount in minor units below `100 * 2 ^ 20` that is
entered with its two decimal places is the amount of the transfer, and every amount below
`100 * 2 ^ 45` that the payments service sends is what the ledger books.  A little above these bounds
the payments service refuses an amount, and the ledger books another one. -/
theorem numbers_carry_amounts :
    (∀ n : Int, 0 < n → n < 100 * 2 ^ 20 → amountToMinorUnitsOfNumber (amountNumber n) = .ok n) ∧
    (∀ n : Int, 0 < n → n < 100 * 2 ^ 45 →
      Ledger.amountToMinorUnitsOfNumber (amountNumber n) = .ok n) ∧
    amountToMinorUnitsOfNumber (amountNumber (100 * 2 ^ 20 + 9)) =
      .error (.badRequest "Invalid transfer amount") ∧
    Ledger.amountToMinorUnitsOfNumber (amountNumber (100 * 2 ^ 45 + 2)) =
      .ok (100 * 2 ^ 45 + 3) :=
  ⟨fun _ hpos h => minorUnits_entered hpos h, fun _ hpos h => minorUnits_sent hpos h,
    by decide +kernel, by decide +kernel⟩

/-! ### The amounts of transfers -/

/-- No rate is above 45. -/
lemma quoteTransfer_range {source quotedAt : Int} {sourceCurrency destinationCurrency : String}
    {quote : FxQuote}
    (h : quoteTransfer source sourceCurrency destinationCurrency quotedAt = .ok quote) :
    0 < source ∧ 0 < quote.destinationAmountMinor ∧ quote.destinationAmountMinor ≤ 45 * source := by
  have hok := h
  rw [quoteTransfer] at h
  split at h
  · cases h
  next hsupported =>
  split at h
  · cases h
  dsimp only at h
  split at h
  · cases h
  next hdestination =>
  obtain rfl := Except.ok.inj h
  obtain ⟨-, hpositive, -, -⟩ := quoteTransfer_ok hok
  refine ⟨hpositive, not_le.mp hdestination, ?_⟩
  -- the values of the supported currencies
  have hvalue : ∀ {currency}, isSupportedCurrency currency = true →
      24390 ≤ MICRO_USD_VALUE currency ∧ MICRO_USD_VALUE currency ≤ 1087000 := by
    intro currency hcurrency
    simp only [isSupportedCurrency, SUPPORTED_CURRENCIES, decide_eq_true_eq, List.mem_cons,
      List.not_mem_nil, or_false] at hcurrency
    rcases hcurrency with rfl | rfl | rfl <;> decide
  rw [Bool.or_eq_true, not_or, Bool.not_eq_true', Bool.not_eq_true'] at hsupported
  obtain ⟨-, hnum⟩ := hvalue (by simpa using hsupported.1)
  obtain ⟨hden, -⟩ := hvalue (by simpa using hsupported.2)
  dsimp only
  set num := MICRO_USD_VALUE sourceCurrency
  set den := MICRO_USD_VALUE destinationCurrency
  have hnumpos : 0 < num := MICRO_USD_VALUE_pos (by simpa using hsupported.1)
  have hhalf : den.tdiv 2 = den / 2 := Int.tdiv_eq_ediv_of_nonneg (by omega)
  have hprod : 0 < source * num := Int.mul_pos hpositive hnumpos
  rw [hhalf, Int.tdiv_eq_ediv_of_nonneg (by omega)]
  refine Int.le_of_lt_add_one (Int.ediv_lt_of_lt_mul (by omega) ?_)
  calc source * num + den / 2 ≤ source * 1087000 + den / 2 := by
        have := Int.mul_le_mul_of_nonneg_left hnum hpositive.le
        omega
    _ < 45 * source * 24390 + den := by omega
    _ ≤ 45 * source * den + den := by
        have := Int.mul_le_mul_of_nonneg_left hden (by omega : 0 ≤ 45 * source)
        omega
    _ = (45 * source + 1) * den := by ring

/-- The ledger reads the number of an amount as it reads the exact amount. -/
lemma sent_eq_exact {n : Int} (hpos : 0 < n) (h : n < 100 * 2 ^ 45) :
    Ledger.amountToMinorUnitsOfNumber (amountNumber n) = .ok n ∧
      Ledger.amountToMinorUnits (amount n) = .ok n := by
  refine ⟨minorUnits_sent hpos h, ?_⟩
  have hround : Ledger.mathRound (amount n * 100) = n := by
    rw [amount, div_mul_cancel₀ _ (by norm_num), mathRound_intCast]
  rw [Ledger.amountToMinorUnits, hround, if_pos]
  unfold Ledger.MAX_SAFE_INTEGER
  omega

/-- In every reachable state, for every transfer of at most `7 * 10 ^ 13` minor units: what the ledger
reads from the JavaScript numbers of its two amounts are these amounts, as with exact numbers. -/
theorem transfer_amounts_cross (setting : Setting) (users : List Ledger.User) {s : System}
    (hs : Reaches (payments setting) (Sys.init (.initial users)) s) {row : Transfer}
    (hrow : row ∈ s.world.db.transfers) (hmax : row.amountMinor ≤ 7 * 10 ^ 13) :
    ∀ n ∈ [row.amountMinor, row.destinationAmountMinor],
      Ledger.amountToMinorUnitsOfNumber (amountNumber n) = .ok n ∧
        Ledger.amountToMinorUnits (amount n) = .ok n := by
  obtain ⟨quote, hquote, hdestination⟩ := reaches_quoted hs row hrow
  obtain ⟨hsource, hpositive, hrate⟩ := quoteTransfer_range hquote
  intro n hn
  rcases List.mem_cons.mp hn with rfl | hn
  · exact sent_eq_exact hsource (by omega)
  · obtain rfl := List.mem_singleton.mp hn
    rw [hdestination]
    exact sent_eq_exact hpositive (by omega)

/-- Ann's four dollars. -/
theorem transfer_amounts_cross_ann : ∃ s row,
    Reaches (payments scripted) (Sys.init (.initial Ledger.annAndBob)) s ∧
      row ∈ s.world.db.transfers ∧ row.amountMinor = 400 ∧
      Ledger.amountToMinorUnitsOfNumber (amountNumber row.amountMinor) = .ok row.amountMinor := by
  obtain ⟨s, hs, hp⟩ := scriptedRun.exists_reaches Ledger.annAndBob opening
    (fun s => s.world.db.transfers.any fun row => row.amountMinor = 400) (by decide +kernel)
  obtain ⟨row, hrow, hamount⟩ := List.any_eq_true.mp hp
  have hfour := of_decide_eq_true hamount
  exact ⟨s, row, hs, hrow, hfour, (transfer_amounts_cross scripted _ hs hrow (by omega)
    row.amountMinor List.mem_cons_self).1⟩

end Payments

end PeerLedger
