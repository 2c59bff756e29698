import PeerLedger.Ledger.Balances
import PeerLedger.Payments.Amounts

/-!
# Conservation of money

The ledger itself does not check that a settlement within one currency credits what it debits; this
follows from the quotes of the payments service.  So the balances of a currency add up to what owners
have deposited, less what they have withdrawn or consumed, and what settlements between currencies
have brought in and out (`money_is_conserved`).
-/

namespace PeerLedger

namespace Payments

open Transactions

variable {setting : Setting} {users : List Ledger.User} {s s' : System} {w w' : World}

/-- What settlements from other currencies have brought in. -/
def exchangedIn (db : Ledger.Database) (currency : String) : Int :=
  ((db.settlements.filter fun receipt => receipt.destinationCurrency = currency ∧
    receipt.currency ≠ currency).map (·.destinationAmountMinor)).sum

/-- What settlements to other currencies have brought out. -/
def exchangedOut (db : Ledger.Database) (currency : String) : Int :=
  ((db.settlements.filter fun receipt => receipt.currency = currency ∧
    receipt.destinationCurrency ≠ currency).map (·.amountMinor)).sum

/-- The money of a currency. -/
structure Conserved (setting : Setting) (s : System) (currency : String) : Prop where
  total : s.world.ledger.world.db.totalMinor currency =
    s.world.ledger.world.depositsMinor currency - s.world.ledger.world.withdrawalsMinor currency -
      s.world.ledger.world.consumedMinor currency +
      exchangedIn s.world.ledger.world.db currency - exchangedOut s.world.ledger.world.db currency
  /-- The ledger shows the balances that are summed up. -/
  shown : ∀ wallet ∈ s.world.ledger.world.db.wallets,
    ∃ projection ∈ s.world.ledger.world.db.projections, projection.walletId = wallet.id ∧
      projection.balanceMinor = s.world.ledger.world.db.balanceMinor wallet.id
  /-- A settlement within one currency leaves the total of every currency alone. -/
  settled : ∀ s', Step (payments setting) s s' → ∀ receipt,
    s'.world.ledger.world.db.settlements = s.world.ledger.world.db.settlements ++ [receipt] →
    receipt.destinationCurrency = receipt.currency →
    s'.world.ledger.world.db.totalMinor currency = s.world.ledger.world.db.totalMinor currency

/-! ### The books in every state -/

lemma LedgerChange.booked (h : LedgerChange setting w w') (hinv : Inv setting w)
    (hbooked : Ledger.Booked w.ledger.world) : Ledger.Booked w'.ledger.world := by
  cases h with
  | @same l hworld =>
    change Ledger.Booked l.world
    rwa [hworld]
  | @commit l c _ _ hjob _ heffect hworld =>
    change Ledger.Booked l.world
    rw [hworld]
    exact hbooked.commit hjob heffect
  | owner _ _ _ hcan => exact hbooked.start hinv.ledger.inv hcan.jobs
  | deliver _ hcan => exact hbooked.start hinv.ledger.inv hcan.jobs

lemma reaches_booked (hs : Reaches (payments setting) (Sys.init (.initial users)) s) :
    Ledger.Booked s.world.ledger.world :=
  reaches_invariant (P := fun w : World => Ledger.Booked w.ledger.world) (reaches_ok .refl)
    (Ledger.Booked.initial users) (fun _ _ _ _ hw _ _ _ _ => hw) (fun _ _ _ hw _ => hw)
    (fun _ _ _ _ _ hw _ _ _ => hw) (fun _ _ hinv hw hledger => hledger.booked hinv hw) hs

/-! ### Settlements within one currency -/

/-- A receipt within one currency credits what it debits. -/
lemma reaches_same_currency (hs : Reaches (payments setting) (Sys.init (.initial users)) s)
    {receipt : Ledger.LedgerTransferSettlement}
    (hmem : receipt ∈ s.world.ledger.world.db.settlements)
    (hcurrency : receipt.destinationCurrency = receipt.currency) :
    receipt.destinationAmountMinor = receipt.amountMinor := by
  obtain ⟨row, hrow, hof⟩ := (reaches_traffic hs).receiptOf hmem
  rw [hof.destinationCurrency, hof.currency] at hcurrency
  rw [hof.destinationAmountMinor, hof.amountMinor, (reaches_quoted hs row hrow).same hcurrency]

/-- Receipts within the currency bring in what they bring out. -/
lemma exchanged_eq (receipts : List Ledger.LedgerTransferSettlement) (currency : String)
    (h : ∀ receipt ∈ receipts, receipt.destinationCurrency = receipt.currency →
      receipt.destinationAmountMinor = receipt.amountMinor) :
    ((receipts.filter fun receipt => receipt.destinationCurrency = currency).map
        (·.destinationAmountMinor)).sum -
      ((receipts.filter fun receipt => receipt.currency = currency).map (·.amountMinor)).sum =
    ((receipts.filter fun receipt => receipt.destinationCurrency = currency ∧
        receipt.currency ≠ currency).map (·.destinationAmountMinor)).sum -
      ((receipts.filter fun receipt => receipt.currency = currency ∧
        receipt.destinationCurrency ≠ currency).map (·.amountMinor)).sum := by
  induction receipts with
  | nil => rfl
  | cons receipt receipts ih =>
    have hrest := ih fun other hother => h other (List.mem_cons_of_mem _ hother)
    by_cases hin : receipt.destinationCurrency = currency
    · by_cases hout : receipt.currency = currency
      · have hsame := h receipt List.mem_cons_self (hin.trans hout.symm)
        simp [hin, hout] at hrest ⊢
        omega
      · simp [hin, hout] at hrest ⊢
        omega
    · by_cases hout : receipt.currency = currency
      · simp [hin, hout] at hrest ⊢
        omega
      · simpa [hin, hout] using hrest

/-- What a thread asks of its surroundings leaves the ledger alone. -/
lemma issue_ledger {j : Nat} {q : Ask} {t : Nat} (hissue : (payments setting).issue w j q t w') :
    w'.ledger = w.ledger := by
  cases q with
  | fetch command => obtain ⟨-, rfl⟩ := hissue; rfl
  | circuitOpen => obtain rfl : w' = w := hissue; rfl
  | recordSuccess => obtain rfl : w' = w := hissue; rfl
  | recordFailure => obtain rfl : w' = w := hissue; rfl

/-- A step with a new receipt is the commit of its settlement. -/
lemma Step.new_receipt (hok : s.Ok (payments setting) (paymentsProtocol setting))
    (h : Step (payments setting) s s') {receipt : Ledger.LedgerTransferSettlement}
    (hreceipt : s'.world.ledger.world.db.settlements =
      s.world.ledger.world.db.settlements ++ [receipt]) :
    LedgerChange setting s.world s'.world := by
  have hne : s'.world.ledger.world.db.settlements ≠ s.world.ledger.world.db.settlements := by
    rw [hreceipt]
    simp
  rcases h.world_cases with he | ⟨i, body, r, p, k, hi, ha, he⟩ | ⟨i, q, t, k, hi, hissue⟩ |
    ⟨i, p, hi, hst⟩ | henv
  · exact absurd (by rw [he]) hne
  · exact absurd (by rw [he]; rfl) hne
  · exact absurd (by rw [issue_ledger hissue]) hne
  · obtain ⟨-, _, _, -, -, -, hw⟩ := hst
    exact absurd (by rw [hw]) hne
  · exact Inv.ledgerChange hok.inv henv

/-- A settlement within one currency moves money between wallets of the currency. -/
lemma LedgerChange.total_eq (h : LedgerChange setting w w') (hinv : Inv setting w)
    {receipt : Ledger.LedgerTransferSettlement}
    (hreceipt : w'.ledger.world.db.settlements = w.ledger.world.db.settlements ++ [receipt])
    (hcurrency : receipt.destinationCurrency = receipt.currency)
    (hamount : receipt.destinationAmountMinor = receipt.amountMinor) (currency : String) :
    w'.ledger.world.db.totalMinor currency = w.ledger.world.db.totalMinor currency := by
  have hids := hinv.ledger.inv.1.walletIds
  cases h with
  | @same l hworld =>
    change l.world.db.totalMinor currency = _
    rw [hworld]
  | @commit l c _ _ _ _ heffect hworld =>
    change l.world.db.settlements = _ at hreceipt
    change l.world.db.totalMinor currency = _
    rw [hworld] at hreceipt ⊢
    have hinserted : Ledger.insertedSettlements c.writes = [receipt] :=
      List.append_cancel_left ((Ledger.settlements_view _ _).symm.trans hreceipt)
    refine (heffect.total hids hinserted currency).trans ?_
    rw [hcurrency, hamount]
    ring
  | owner => rfl
  | deliver => rfl

/-- In every reachable state of both services, for every currency: the balances add up to the deposits
less the withdrawals and the holds that owners have consumed, and what settlements between currencies
have brought in and out; and a settlement within one currency changes no total. -/
theorem money_is_conserved (setting : Setting) (users : List Ledger.User) {s : System}
    (hs : Reaches (payments setting) (Sys.init (.initial users)) s) (currency : String) :
    Conserved setting s currency := by
  have hok := reaches_ok hs
  have hconsistent := hok.inv.ledger.inv.1
  constructor
  case total =>
    rw [(reaches_booked hs).total_eq hconsistent.walletIds currency]
    have hexchanged := exchanged_eq s.world.ledger.world.db.settlements currency
      fun receipt hmem => reaches_same_currency hs hmem
    rw [exchangedIn, exchangedOut]
    linarith
  case shown => exact fun wallet hwallet => hconsistent.shows_balance hwallet
  case settled =>
    intro s' hstep receipt hreceipt hcurrency
    have hmem : receipt ∈ s'.world.ledger.world.db.settlements := by
      rw [hreceipt]
      exact List.mem_append_right _ (List.mem_singleton_self _)
    exact (Step.new_receipt hok hstep hreceipt).total_eq hok.inv hreceipt hcurrency
      (reaches_same_currency (hs.tail hstep) hmem hcurrency) currency

/-- The money of Ann and Bob after `t` was settled. -/
theorem money_is_conserved_t : ∃ s,
    Reaches (payments scripted) (Sys.init (.initial Ledger.annAndBob)) s ∧
      s.world.HasReceipt "t" ∧ s.world.ledger.world.db.totalMinor "USD" ≠ 0 ∧
      Conserved scripted s "USD" := by
  obtain ⟨s, hs, hp⟩ := scriptedRun.exists_reaches Ledger.annAndBob (opening ++ settling)
    (fun s => (s.world.ledger.world.db.settlements.any fun receipt => receipt.transferId = "t") &&
      s.world.ledger.world.db.totalMinor "USD" ≠ 0) (by decide +kernel)
  obtain ⟨hreceipt, htotal⟩ := Bool.and_eq_true_iff.mp hp
  obtain ⟨receipt, hmem, hid⟩ := List.any_eq_true.mp hreceipt
  exact ⟨s, hs, ⟨receipt, hmem, of_decide_eq_true hid⟩, of_decide_eq_true htotal,
    money_is_conserved scripted _ hs "USD"⟩

end Payments

end PeerLedger
