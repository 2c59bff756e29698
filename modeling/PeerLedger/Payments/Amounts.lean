import PeerLedger.Payments.Settling

/-!
# Amounts and quotes

What the payments service quotes is what the ledger books.  An amount in minor units is sent as a
decimal number and read back exactly (`toPositiveMinorUnits_amount`); a quote within one currency
leaves the amount as it is (`quoteTransfer_same`); every transfer keeps the quote that it was created
with (`reaches_quoted`); and a receipt of the ledger has the amounts and currencies of its transfer
(`reaches_receipts`).
-/

namespace PeerLedger

namespace Payments

open Transactions

variable {setting : Setting} {w w' : World}

/-! ### Amounts -/

/-- Rounding leaves integers alone. -/
@[simp]
lemma mathRound_intCast (n : Int) : Ledger.mathRound n = n := by
  rw [Ledger.mathRound, Int.floor_intCast_add]
  norm_num

/-- An amount that is sent in major units is read back in the same minor units. -/
lemma toPositiveMinorUnits_amount {n m : Int}
    (h : Ledger.toPositiveMinorUnits (amount n) = .ok m) : m = n := by
  have hround : Ledger.mathRound (amount n * 100) = n := by
    rw [amount, div_mul_cancel₀ _ (by norm_num), mathRound_intCast]
  rw [Ledger.toPositiveMinorUnits, Ledger.toMinorUnits, Ledger.amountToMinorUnits, hround] at h
  by_cases hsafe : -Ledger.MAX_SAFE_INTEGER ≤ n ∧ n ≤ Ledger.MAX_SAFE_INTEGER
  · rw [if_pos hsafe] at h
    dsimp only at h
    by_cases hpositive : n ≤ 0
    · rw [if_pos hpositive] at h
      cases h
    · rw [if_neg hpositive] at h
      exact (Except.ok.inj h).symm
  · rw [if_neg hsafe] at h
    cases h

/-! ### Quotes -/

/-- Supported currencies have a value. -/
lemma MICRO_USD_VALUE_pos {currency : String} (h : isSupportedCurrency currency = true) :
    0 < MICRO_USD_VALUE currency := by
  simp only [isSupportedCurrency, SUPPORTED_CURRENCIES, decide_eq_true_eq, List.mem_cons,
    List.not_mem_nil, or_false] at h
  rcases h with rfl | rfl | rfl <;> decide

/-- What a quote was computed from. -/
lemma quoteTransfer_ok {source quotedAt : Int} {sourceCurrency destinationCurrency : String}
    {quote : FxQuote}
    (h : quoteTransfer source sourceCurrency destinationCurrency quotedAt = .ok quote) :
    isSupportedCurrency sourceCurrency = true ∧ 0 < source ∧ quote.quotedAt = quotedAt ∧
      quote.destinationAmountMinor = (source * MICRO_USD_VALUE sourceCurrency +
        (MICRO_USD_VALUE destinationCurrency).tdiv 2).tdiv
          (MICRO_USD_VALUE destinationCurrency) := by
  rw [quoteTransfer] at h
  split at h
  · cases h
  next hsupported =>
  split at h
  · cases h
  next hpositive =>
  dsimp only at h
  split at h
  · cases h
  obtain rfl := Except.ok.inj h
  refine ⟨?_, not_le.mp hpositive, rfl, rfl⟩
  by_contra hnot
  exact hsupported (by simp [hnot])

/-- Half a unit is lost in rounding. -/
lemma tdiv_half {n k : Int} (hn : 0 < n) (hk : 0 < k) : (n * k + k.tdiv 2).tdiv k = n := by
  have hhalf : k.tdiv 2 = k / 2 := Int.tdiv_eq_ediv_of_nonneg hk.le
  have hlt : k / 2 < k := Int.ediv_lt_self_of_pos_of_ne_one hk (by omega)
  have hnonneg : 0 ≤ k / 2 := by omega
  rw [hhalf, Int.tdiv_eq_ediv_of_nonneg (by positivity), Int.add_comm,
    Int.add_mul_ediv_right _ _ hk.ne', Int.ediv_eq_zero_of_lt hnonneg hlt, zero_add]

/-- Within one currency, what arrives is what is sent. -/
lemma quoteTransfer_same {source quotedAt : Int} {currency : String} {quote : FxQuote}
    (h : quoteTransfer source currency currency quotedAt = .ok quote) :
    quote.destinationAmountMinor = source := by
  obtain ⟨hsupported, hpositive, -, heq⟩ := quoteTransfer_ok h
  rw [heq, tdiv_half hpositive (MICRO_USD_VALUE_pos hsupported)]

/-- The transfer has the destination amount of its quote. -/
def Quoted (row : Transfer) : Prop :=
  ∃ quote, quoteTransfer row.amountMinor row.currency row.destinationCurrency row.fxQuotedAt =
    .ok quote ∧ row.destinationAmountMinor = quote.destinationAmountMinor

lemma Quoted.same {row : Transfer} (h : Quoted row)
    (hcurrency : row.destinationCurrency = row.currency) :
    row.destinationAmountMinor = row.amountMinor := by
  obtain ⟨quote, hquote, heq⟩ := h
  rw [hcurrency] at hquote
  rw [heq, quoteTransfer_same hquote]

lemma Quoted.evolves {a b : Transfer} (h : Quoted a) (he : a.Evolves b) : Quoted b :=
  (Transfer.congr_terms he.terms Quoted fun _ => rfl).symm ▸ h

/-- The quote of a new transfer is made when it is created. -/
lemma IsNew.quoted {config : Config} {db : Database} {job : Job} {row : Transfer}
    (h : IsNew config db job row) : Quoted row := by
  obtain ⟨canonical, key, quote, -, hquote, rfl⟩ := h
  have hquotedAt := (quoteTransfer_ok hquote).2.2.1
  refine ⟨quote, ?_, rfl⟩
  rw [← hquotedAt] at hquote
  exact hquote

/-- The commands of all threads are served. -/
def World.Serves (setting : Setting) (w : World) : Prop :=
  ∀ i job, w.jobs i = some job → setting.serves job.command

lemma World.Serves.start {i : Nat} {command : Command} {draw : Draw} (h : w.Serves setting)
    (hserves : setting.serves command) : (w.start i command draw).Serves setting := by
  intro j job hjob
  change Function.update w.jobs i _ j = _ at hjob
  by_cases hji : j = i
  · subst hji
    rw [Function.update_self] at hjob
    obtain rfl := Option.some.inj hjob
    exact hserves
  · rw [Function.update_of_ne hji] at hjob
    exact h j job hjob

/-- What holds of the new transfers, and stays true of the later versions of a row, holds of all
transfers. -/
lemma reaches_rows {Q : Database → Transfer → Prop}
    (hkeeps : ∀ db db' row row', db.Extends db' → row.Evolves row' → Q db row → Q db' row')
    (hnew : ∀ db job row, setting.serves job.command → IsNew setting.config db job row → Q db row)
    {users : List Ledger.User} {s : System}
    (hs : Reaches (payments setting) (Sys.init (.initial users)) s) :
    ∀ row ∈ s.world.db.transfers, Q s.world.db row := by
  refine (reaches_invariant (P := fun w : World =>
    w.Serves setting ∧ ∀ row ∈ w.db.transfers, Q w.db row) (reaches_ok .refl)
    ⟨(fun _ _ h => nomatch h), fun _ h => nomatch h⟩
    (fun w c job hinv hw _ hjob hmove _ => ⟨hw.1, fun row' hrow' => ?_⟩) (fun _ _ _ hw _ => hw)
    (fun w i command draw _ hw _ hserves _ => ⟨hw.1.start hserves, hw.2⟩)
    (fun w w' _ hw hledger => ?_) hs).2
  · have he := hmove.extends hinv.tables
    rcases hmove.row_cases hrow' with hmem | ⟨-, hisNew, -⟩ | ⟨row, hrow, -, hstep⟩
    · exact hkeeps _ _ _ _ he (.refl row') (hw.2 row' hmem)
    · exact hkeeps _ _ _ _ he (.refl row') (hnew _ job row' (hw.1 _ job hjob) hisNew)
    · exact hkeeps _ _ _ _ he hstep.evolves (hw.2 row hrow)
  · cases hledger <;> exact hw

/-- Every transfer keeps the quote that it was created with. -/
lemma reaches_quoted {users : List Ledger.User} {s : System}
    (hs : Reaches (payments setting) (Sys.init (.initial users)) s) :
    ∀ row ∈ s.world.db.transfers, Quoted row :=
  reaches_rows (Q := fun _ => Quoted) (fun _ _ _ _ _ he h => h.evolves he)
    (fun _ _ _ _ h => h.quoted) hs

/-! ### Receipts -/

/-- The receipt has the amounts and currencies of the transfer. -/
structure ReceiptOf (row : Transfer) (receipt : Ledger.LedgerTransferSettlement) : Prop where
  transferId : receipt.transferId = row.id
  senderWalletId : receipt.senderWalletId = row.senderWalletId
  amountMinor : receipt.amountMinor = row.amountMinor
  currency : receipt.currency = row.currency
  destinationAmountMinor : receipt.destinationAmountMinor = row.destinationAmountMinor
  destinationCurrency : receipt.destinationCurrency = row.destinationCurrency

/-- A settlement of a transfer has its terms. -/
lemma settleDto_matches {row : Transfer} {receiverWalletId : String}
    {receipt : Ledger.LedgerTransferSettlement}
    (h : (settleDto row receiverWalletId).Matches receipt) (hid : receipt.transferId = row.id) :
    ReceiptOf row receipt := by
  obtain ⟨hsender, -, hamount, hcurrency, hdestination, hdestinationCurrency⟩ := h
  exact
    { transferId := hid
      senderWalletId := hsender
      amountMinor := toPositiveMinorUnits_amount hamount
      currency := hcurrency
      destinationAmountMinor := toPositiveMinorUnits_amount hdestination
      destinationCurrency := hdestinationCurrency }

/-- Every receipt is that of a transfer, and has its amounts. -/
lemma Traffic.receiptOf (h : Traffic w) {receipt : Ledger.LedgerTransferSettlement}
    (hmem : receipt ∈ w.ledger.world.db.settlements) :
    ∃ row ∈ w.db.transfers, ReceiptOf row receipt := by
  obtain ⟨⟨request, hrequest, dto, hcommand, hmatches⟩, -⟩ := h.receipts receipt hmem
  obtain ⟨row, hrow, receiverWalletId, hid, -, rfl, -⟩ :=
    (h.sent request hrequest).settle_cases hcommand
  exact ⟨row, hrow, settleDto_matches hmatches hid.symm⟩

end Payments

end PeerLedger
