import PeerLedger.Ledger.Balances
import PeerLedger.Payments.Agreement
import PeerLedger.Payments.Conservation

/-!
# Settled bills are paid

A bill that is shown as settled has been paid in full: the ledger has one receipt for each of its
shares, each credits the amount of the share in the currency of the bill, and the credits add up to
the total of the bill (`settled_bill_is_paid`).  The status of a bill never goes back.

The amounts of the shares add up to the total when a bill is created (`shareAmounts_sum`); a transfer
of a share has the amount of the share and the currency of the bill on both sides (`PaysItsShare`),
so that its quote leaves the amount alone.
-/

namespace PeerLedger

namespace Payments

open Transactions

variable {setting : Setting} {users : List Ledger.User} {s s' : System} {w w' : World}

/-- What `SplitBillsService.get` shows to a user. -/
def Database.Shows (db : Database) (id userId : String) (view : SplitBillView) : Prop :=
  (get id userId).reads db 1 = .done (.ok view)

/-- The runs in which a share is paid through `payShare` alone, which is the only caller of
`createSplitSharePayment`. -/
def Setting.payingShares (setting : Setting) : Setting :=
  { setting with serves := fun command => setting.serves command ∧
      ∀ input header, command ≠ .createSplitSharePayment input header }

/-- The receipts of the transfers of a share. -/
def World.shareReceipts (w : World) (share : SplitBillShare) :
    List Ledger.LedgerTransferSettlement :=
  w.ledger.world.db.settlements.filter fun receipt => w.db.transfers.any fun row =>
    row.id = receipt.transferId ∧ row.splitBillShareId = some share.id

/-- The receipt is the only one of the share, and credits its amount in the currency of the bill. -/
structure PaysShare (w : World) (bill : SplitBill) (share : SplitBillShare)
    (receipt : Ledger.LedgerTransferSettlement) : Prop where
  single : w.shareReceipts share = [receipt]
  credited : Ledger.Credited w.ledger.world.db receipt
  amountMinor : receipt.destinationAmountMinor = share.amountMinor
  currency : receipt.destinationCurrency = bill.currency
  receiver : ∃ wallet ∈ w.ledger.world.db.wallets, wallet.id = receipt.receiverWalletId ∧
    wallet.currency = bill.currency

/-- The receipts of all shares of a bill. -/
def World.billReceipts (w : World) (bill : SplitBill) : List Ledger.LedgerTransferSettlement :=
  (w.db.sharesOf bill.id).flatMap w.shareReceipts

/-- Every share of the bill has its receipt; these are receipts of different transfers, and add up to
the total of the bill. -/
structure PaidInFull (w : World) (bill : SplitBill) : Prop where
  shares : ∀ share ∈ w.db.sharesOf bill.id, ∃ receipt, PaysShare w bill share receipt
  distinct : ((w.billReceipts bill).map (·.transferId)).Nodup
  total : ((w.billReceipts bill).map (·.destinationAmountMinor)).sum = bill.totalMinor

/-- The place of a status in the course of a bill. -/
def SplitBillStatus.rank : SplitBillStatus → Nat
  | .pending => 0
  | .partiallyPaid => 1
  | .settled => 2

/-! ### The status that is shown -/

/-- What `get` answers when it has read the bill. -/
def showBill (userId : String) : Option LoadedBill → PaymentsProg SplitBillView
  | none => throw (PaymentsError.notFound "Split bill not found")
  | some bill =>
    if bill.isVisible userId then return billView bill
    else throw (PaymentsError.notFound "Split bill not found")

/-- A bill is shown to those who may see it. -/
lemma Database.shows_iff {db : Database} {id userId : String} {view : SplitBillView} :
    db.Shows id userId view ↔ ∃ loaded, db.loadBill id = some loaded ∧
      loaded.isVisible userId = true ∧ billView loaded = view := by
  have hread : (get id userId).reads db 1 = showBill userId (db.loadBill id) := rfl
  rw [Database.Shows, hread]
  cases db.loadBill id with
  | none => simp [showBill]
  | some loaded => by_cases hvisible : loaded.isVisible userId = true <;> simp [showBill, hvisible]

/-- The shares in order of their position are the shares in order of insertion. -/
lemma sharesOf_perm (db : Database) (billId : String) :
    (db.sharesOf billId).Perm (db.billShares billId) :=
  List.perm_insertionSort _ _

lemma paymentStatus_paid {transfer : Option Transfer} :
    paymentStatus transfer = .paid ↔ ∃ row, transfer = some row ∧ row.status = .completed := by
  cases transfer with
  | none => simp [paymentStatus]
  | some row =>
    by_cases hcompleted : row.status = .completed
    · simp [paymentStatus, hcompleted]
    · by_cases hfailed : row.status = .failed <;> simp [paymentStatus, hcompleted, hfailed]

/-- A share is shown as paid when it has a completed transfer. -/
lemma transferOfShare_paid {db : Database} (h : (db.transfers.filterMap (·.splitBillShareId)).Nodup)
    (share : SplitBillShare) :
    paymentStatus (db.transferOfShare share.id) = .paid ↔ db.isPaid share = true := by
  rw [paymentStatus_paid, Database.isPaid_iff, Database.transferOfShare, ← List.head?_filter]
  rcases filter_share h share.id with hnil | ⟨row, hrow, hshare, hone⟩
  · rw [hnil]
    have hnot := List.filter_eq_nil_iff.mp hnil
    constructor
    · rintro ⟨_, hnone, -⟩
      cases hnone
    · rintro ⟨row, hrow, hshare, -⟩
      exact absurd (by simpa using hshare) (hnot row hrow)
  · rw [hone]
    constructor
    · rintro ⟨found, hfound, hstatus⟩
      obtain rfl := Option.some.inj hfound
      exact ⟨row, hrow, hshare, hstatus⟩
    · rintro ⟨row', hrow', hshare', hstatus⟩
      have hmem : row' ∈ [row] := hone ▸ List.mem_filter.mpr ⟨hrow', by simpa using hshare'⟩
      obtain rfl := List.mem_singleton.mp hmem
      exact ⟨row', rfl, hstatus⟩

/-- The status that is shown is that of the counts. -/
lemma billView_status {db : Database} (h : (db.transfers.filterMap (·.splitBillShareId)).Nodup)
    {id : String} {loaded : LoadedBill} (hload : db.loadBill id = some loaded) :
    (billView loaded).status = db.billStatus id := by
  obtain ⟨bill, -, rfl⟩ := Option.map_eq_some_iff.mp hload
  have hpaid : ∀ shares : List SplitBillShare,
      (((shares.map fun share => (share, db.transferOfShare share.id)).map shareView).filter
        fun share => share.paymentStatus = .paid).length = shares.countP db.isPaid := by
    intro shares
    rw [← List.countP_eq_length_filter, List.countP_map, List.countP_map]
    refine List.countP_congr fun share _ => ?_
    rw [← transferOfShare_paid h share]
    exact decide_eq_true_iff
  have hperm := sharesOf_perm db id
  rw [Database.billStatus, paidShares_eq h, totalShares_eq h, ← hperm.countP_eq,
    ← hperm.length_eq, ← hpaid]
  simp only [billView, List.length_map]

lemma loadBill_some {db : Database} {id : String} {loaded : LoadedBill}
    (h : db.loadBill id = some loaded) : ∃ bill ∈ db.bills, bill.id = id := by
  obtain ⟨bill, hfound, -⟩ := Option.map_eq_some_iff.mp h
  exact ⟨bill, List.mem_of_find?_eq_some hfound, by simpa using List.find?_some hfound⟩

/-- All shares of a settled bill are paid. -/
lemma isPaid_of_settled {db : Database} (h : (db.transfers.filterMap (·.splitBillShareId)).Nodup)
    {billId : String} (hsettled : db.billStatus billId = .settled) :
    ∀ share ∈ db.billShares billId, db.isPaid share = true := by
  rw [Database.billStatus, deriveSplitBillStatus] at hsettled
  split at hsettled
  next hall =>
    rw [paidShares_eq h, totalShares_eq h] at hall
    exact List.countP_eq_length.mp hall.2
  next => split at hsettled <;> cases hsettled

/-! ### The amounts of the shares -/

/-- The shares of an equal split add up to the total. -/
lemma equalShares_sum {total : Int} {count : Nat} (htotal : 0 < total) (hcount : 0 < count) :
    (equalShares total count).sum = total := by
  have hq : total.tdiv count = total / count := Int.tdiv_eq_ediv_of_nonneg htotal.le
  have hr : total.tmod count = total % count := Int.tmod_eq_emod_of_nonneg htotal.le
  have hcountpos : (0 : Int) < count := by exact_mod_cast hcount
  obtain ⟨r, hr'⟩ := Int.eq_ofNat_of_zero_le (Int.emod_nonneg total hcountpos.ne')
  have hlt := Int.emod_lt_of_pos total hcountpos
  have hsum : ∀ n : Nat, ((List.range n).map fun index : Nat =>
      total / count + if (index : Int) < r then 1 else 0).sum = n * (total / count) + min n r := by
    intro n
    induction n with
    | zero => simp
    | succ n ih =>
      rw [List.range_succ, List.map_append, List.sum_append, ih]
      by_cases h : (n : Int) < r
      · simp only [List.map_cons, List.map_nil, List.sum_cons, List.sum_nil, if_pos h]
        push_cast
        rw [min_eq_left h.le, min_eq_left (by omega)]
        ring
      · simp only [List.map_cons, List.map_nil, List.sum_cons, List.sum_nil, if_neg h]
        push_cast
        rw [min_eq_right (by omega), min_eq_right (by omega)]
        ring
  have hdiv := Int.mul_ediv_add_emod total count
  have hmap : equalShares total count = (List.range count).map fun index : Nat =>
      total / count + if (index : Int) < r then 1 else 0 := by
    rw [equalShares, hq, hr, hr']
    exact (congrArg _ List.map_eq_flatMap.symm).trans List.map_map
  rw [hmap, hsum, min_eq_right (by omega)]
  rw [hr'] at hdiv
  exact hdiv

lemma customShares_length {participants : List SplitParticipantDto} {index : Nat}
    {amounts : List Int} (h : customShares index participants = .ok amounts) :
    amounts.length = participants.length := by
  induction participants generalizing index amounts with
  | nil =>
    cases h
    rfl
  | cons participant rest ih =>
    rw [customShares] at h
    cases hshare : participant.share with
    | none =>
      rw [hshare] at h
      cases h
    | some share =>
      rw [hshare] at h
      dsimp only at h
      split at h
      · cases h
      obtain ⟨_, -, h⟩ := except_bind_ok.mp h
      obtain ⟨amount, -, h⟩ := except_bind_ok.mp h
      obtain ⟨others, hothers, h⟩ := except_bind_ok.mp h
      cases h
      rw [List.length_cons, List.length_cons, ih hothers]

/-- The amounts of the shares of a bill: one for each participant, and they add up to the total. -/
lemma shareAmounts_sum {dto : CreateSplitBillDto} {total : Int} {amounts : List Int}
    (h : shareAmounts dto total = .ok amounts) (htotal : 0 < total) :
    amounts.length = dto.participants.length ∧ amounts.sum = total := by
  rw [shareAmounts] at h
  cases hmode : dto.mode with
  | equal =>
    rw [hmode] at h
    dsimp only at h
    split at h
    · cases h
    split at h
    · cases h
    next hne =>
    split at h
    · cases h
    obtain rfl := Except.ok.inj h
    have hpos : 0 < dto.participants.length := List.length_pos_of_ne_nil hne
    exact ⟨by simp [equalShares], equalShares_sum htotal hpos⟩
  | custom =>
    rw [hmode] at h
    obtain ⟨custom, hcustom, h⟩ := except_bind_ok.mp h
    split at h
    · cases h
    next hsum =>
    obtain rfl := Except.ok.inj h
    exact ⟨customShares_length hcustom, not_not.mp hsum⟩

lemma newShares_amounts (config : Config) (bill : SplitBill) (draw : Draw) (index : Nat)
    (shares : List (String × Int)) :
    (newShares config bill draw index shares).map (·.1.amountMinor) = shares.map (·.2) := by
  induction shares generalizing index with
  | nil => rfl
  | cons share shares ih => exact congrArg _ (ih (index + 1))

/-- The amounts of a new bill. -/
lemma IsNewBill.amounts {config : Config} {job : Job} {bill : SplitBill}
    {shares : List (String × Int)} (h : IsNewBill config job bill shares) :
    (shares.map (·.2)).sum = bill.totalMinor := by
  obtain ⟨dto, _, _, totalMinor, amounts, -, htotal, -, hamounts, rfl, rfl⟩ := h
  obtain ⟨hlength, hsum⟩ := shareAmounts_sum hamounts (parseMoneyToMinor_pos htotal)
  rw [List.map_snd_zip (by simp [hlength])]
  exact hsum

/-- The shares of every bill add up to its total. -/
def SharesAddUp (db : Database) : Prop :=
  ∀ bill ∈ db.bills, ((db.billShares bill.id).map (·.amountMinor)).sum = bill.totalMinor

lemma Move.sharesAddUp {job : Job} {body : PaymentsTx Reply} {ws : List Write}
    (h : Move setting w job body ws) (hok : TablesOk w.db) (hw : SharesAddUp w.db) :
    SharesAddUp (view w.db ws) := by
  have hold : ∀ bill ∈ w.db.bills,
      (((view w.db ws).billShares bill.id).map (·.amountMinor)).sum = bill.totalMinor := by
    intro bill hbill
    rw [h.billShares_bill hbill]
    exact hw bill hbill
  cases h with
  | none => exact hold
  | insert => exact hold
  | save =>
    rw [view_save] at hold ⊢
    exact hold
  | @createBill bill shares hnew hfresh =>
    rw [view_bill] at hold ⊢
    intro bill' hbill'
    rcases List.mem_append.mp hbill' with hbill' | hbill'
    · exact hold bill' hbill'
    · obtain rfl := List.mem_singleton.mp hbill'
      -- all shares of the new bill are new
      have hshares : (w.db.shares ++ (newShares setting.config bill' job.draw 0 shares).map
          (·.1)).filter (fun share => share.billId = bill'.id) =
          (newShares setting.config bill' job.draw 0 shares).map (·.1) := by
        rw [List.filter_append, List.filter_eq_nil_iff.mpr, List.nil_append,
          List.filter_eq_self.mpr]
        · intro share hshare
          obtain ⟨row, hrow, rfl⟩ := List.mem_map.mp hshare
          simpa using newShares_billId hrow
        · intro share hshare
          obtain ⟨old, holdbill, hid⟩ := hok.shareBills share hshare
          simpa [← hid] using hfresh.id old holdbill
      change (((w.db.shares ++ _).filter _).map _).sum = _
      rw [hshares, List.map_map]
      exact (congrArg List.sum (newShares_amounts _ _ _ _ _)).trans hnew.amounts

lemma reaches_sharesAddUp (hs : Reaches (payments setting) (Sys.init (.initial users)) s) :
    SharesAddUp s.world.db :=
  reaches_invariant (P := fun w : World => SharesAddUp w.db) (reaches_ok .refl)
    (fun _ h => nomatch h)
    (fun _ _ _ hinv hw _ _ hmove _ => hmove.sharesAddUp hinv.tables hw) (fun _ _ _ hw _ => hw)
    (fun _ _ _ _ _ hw _ _ _ => hw) (fun _ _ _ hw hledger => by cases hledger <;> exact hw) hs

/-! ### The transfers of the shares -/

/-- The transfer pays the amount of its share in the currency of the bill. -/
def PaysItsShare (db : Database) (row : Transfer) : Prop :=
  ∀ shareId, row.splitBillShareId = some shareId →
    ∃ share ∈ db.shares, ∃ bill ∈ db.bills, share.id = shareId ∧ bill.id = share.billId ∧
      row.amountMinor = share.amountMinor ∧ row.currency = bill.currency ∧
      row.destinationCurrency = bill.currency

lemma PaysItsShare.evolves {db db' : Database} {row row' : Transfer} (h : PaysItsShare db row)
    (hdb : db.Extends db') (hrow : row.Evolves row') : PaysItsShare db' row' := by
  have hsame : PaysItsShare db row' :=
    (Transfer.congr_terms hrow.terms (PaysItsShare db) fun _ => rfl).symm ▸ h
  intro shareId hshareId
  obtain ⟨share, hshare, bill, hbill, hrest⟩ := hsame shareId hshareId
  exact ⟨share, hdb.bills.2 hshare, bill, hdb.bills.1 hbill, hrest⟩

/-- A transfer of a share is created by `payShare`. -/
lemma IsNew.paysItsShare {config : Config} {db : Database} {job : Job} {row : Transfer}
    (h : IsNew config db job row)
    (hserves : ∀ input header, job.command ≠ .createSplitSharePayment input header) :
    PaysItsShare db row := by
  obtain ⟨canonical, key, quote, hasks, -, rfl⟩ := h
  generalize job.command = command at hasks hserves
  intro shareId hshareId
  change canonical.splitBillShareId = some shareId at hshareId
  cases hasks with
  | create _ hcanonical =>
    obtain ⟨amountMinor, -, hcanonical⟩ := except_bind_ok.mp hcanonical
    obtain rfl := Except.ok.inj hcanonical
    cases hshareId
  | sharePayment => exact absurd rfl (hserves _ _)
  | @payShare _ _ _ _ _ _ _ share bill _ hshare hbill _ hbillId hid _ =>
    obtain rfl := Option.some.inj hshareId
    exact ⟨share, hshare, bill, hbill, rfl, hid.trans hbillId.symm, rfl, rfl, rfl⟩

lemma reaches_paysItsShare
    (hs : Reaches (payments setting.payingShares) (Sys.init (.initial users)) s) :
    ∀ row ∈ s.world.db.transfers, PaysItsShare s.world.db row := by
  refine reaches_rows (fun _ _ _ _ hdb hrow h => h.evolves hdb hrow) ?_ hs
  exact fun _ _ _ hserves hnew => hnew.paysItsShare hserves.2

/-! ### The receipts of the shares -/

lemma eq_singleton {α : Type} {xs : List α} {x : α} (hnodup : xs.Nodup) (hmem : x ∈ xs)
    (hall : ∀ y ∈ xs, y = x) : xs = [x] := by
  have hreplicate := List.eq_replicate_of_mem hall
  rw [hreplicate, List.nodup_replicate] at hnodup
  have hpos := List.length_pos_of_mem hmem
  rw [hreplicate, le_antisymm hnodup hpos]
  rfl

/-- A transfer of the share, and its receipt. -/
lemma shareReceipts_eq (hok : TablesOk w.db) (hreceipts :
    (w.ledger.world.db.settlements.map (·.transferId)).Nodup) {share : SplitBillShare}
    {row : Transfer} (hrow : row ∈ w.db.transfers) (hshare : row.splitBillShareId = some share.id)
    {receipt : Ledger.LedgerTransferSettlement}
    (hreceipt : receipt ∈ w.ledger.world.db.settlements) (hid : receipt.transferId = row.id) :
    w.shareReceipts share = [receipt] := by
  have hnodup : w.ledger.world.db.settlements.Nodup := hreceipts.of_map _
  refine eq_singleton (hnodup.filter _) ?_ fun other hother => ?_
  · refine List.mem_filter.mpr ⟨hreceipt, List.any_eq_true.mpr ⟨row, hrow, ?_⟩⟩
    exact decide_eq_true ⟨hid.symm, hshare⟩
  · obtain ⟨hmem, hany⟩ := List.mem_filter.mp hother
    obtain ⟨row', hrow', hpays⟩ := List.any_eq_true.mp hany
    obtain ⟨hid', hshare'⟩ := of_decide_eq_true hpays
    obtain rfl := shareTransfer_unique hok.shareTransfers hrow hrow' hshare hshare'
    exact List.inj_on_of_nodup_map hreceipts hmem hreceipt (hid'.symm.trans hid.symm)

/-- The receipt of a paid share. -/
lemma reaches_paysShare
    (hs : Reaches (payments setting.payingShares) (Sys.init (.initial users)) s)
    {bill : SplitBill} (hbill : bill ∈ s.world.db.bills) {share : SplitBillShare}
    (hshare : share ∈ s.world.db.billShares bill.id) (hpaid : s.world.db.isPaid share = true) :
    ∃ receipt, PaysShare s.world bill share receipt := by
  have hok := (reaches_ok hs).inv.tables
  have hreceipts := (reaches_ok hs).inv.ledger.inv.1.receipts
  obtain ⟨row, hrow, hrowShare, hcompleted⟩ := Database.isPaid_iff.mp hpaid
  obtain ⟨hmem, hbillId⟩ := List.mem_filter.mp hshare
  -- the transfer has the amount of the share and the currency of the bill
  obtain ⟨share', hshare', bill', hbill', hid, hbillId', hamount, hcurrency, hdestination⟩ :=
    reaches_paysItsShare hs row hrow share.id hrowShare
  obtain rfl := List.inj_on_of_nodup_map hok.shareIds hshare' hmem hid
  obtain rfl := List.inj_on_of_nodup_map hok.billIds hbill' hbill
    (hbillId'.trans (of_decide_eq_true hbillId))
  -- its receipt has the same amounts and currencies
  obtain ⟨receipt, hreceipt, hreceiptId⟩ := reaches_completed hs row hrow hcompleted
  obtain ⟨row', hrow', hof⟩ := (reaches_traffic hs).receiptOf hreceipt
  obtain rfl := List.inj_on_of_nodup_map hok.ids hrow' hrow (hof.transferId.symm.trans hreceiptId)
  have hquoted := (reaches_quoted hs row' hrow').same (hdestination.trans hcurrency.symm)
  refine ⟨receipt, ?_⟩
  constructor
  case single => exact shareReceipts_eq hok hreceipts hrow' hrowShare hreceipt hreceiptId
  case credited => exact ((reaches_traffic hs).receipts receipt hreceipt).2.2
  case amountMinor => rw [hof.destinationAmountMinor, hquoted, hamount]
  case currency => rw [hof.destinationCurrency, hdestination]
  case receiver =>
    obtain ⟨-, wallet, hwallet, hwalletId, hwalletCurrency⟩ :=
      (reaches_booked hs).currencies receipt hreceipt
    exact ⟨wallet, hwallet, hwalletId,
      hwalletCurrency.trans (hof.destinationCurrency.trans hdestination)⟩

/-- Receipts of different shares are those of different transfers. -/
lemma billReceipts_distinct (hok : TablesOk w.db) (hreceipts :
    (w.ledger.world.db.settlements.map (·.transferId)).Nodup) (bill : SplitBill) :
    ((w.billReceipts bill).map (·.transferId)).Nodup := by
  have hperm := sharesOf_perm w.db bill.id
  have hids : ((w.db.sharesOf bill.id).map (·.id)).Nodup := by
    rw [(hperm.map _).nodup_iff]
    exact hok.shareIds.sublist (List.filter_sublist.map _)
  rw [World.billReceipts, List.map_flatMap, List.nodup_flatMap]
  refine ⟨fun share _ => hreceipts.sublist (List.filter_sublist.map _),
    (hids.of_map _).pairwise_of_forall_ne fun a ha b hb hne => ?_⟩
  intro t hta htb
  obtain ⟨receipt, hreceipt, rfl⟩ := List.mem_map.mp hta
  obtain ⟨receipt', hreceipt', heq⟩ := List.mem_map.mp htb
  obtain ⟨row, hrow, hrowPays⟩ := List.any_eq_true.mp (List.mem_filter.mp hreceipt).2
  obtain ⟨row', hrow', hrowPays'⟩ := List.any_eq_true.mp (List.mem_filter.mp hreceipt').2
  obtain ⟨hid, hshare⟩ := of_decide_eq_true hrowPays
  obtain ⟨hid', hshare'⟩ := of_decide_eq_true hrowPays'
  -- one transfer pays one share
  obtain rfl := List.inj_on_of_nodup_map hok.ids hrow hrow' (hid.trans (heq.symm.trans hid'.symm))
  have hsame := Option.some.inj (hshare.symm.trans hshare')
  exact hne (List.inj_on_of_nodup_map hids ha hb hsame)

/-- One receipt for each share, with the amount of the share. -/
lemma sum_receipts {bill : SplitBill} {shares : List SplitBillShare}
    (h : ∀ share ∈ shares, ∃ receipt, PaysShare w bill share receipt) :
    ((shares.flatMap w.shareReceipts).map (·.destinationAmountMinor)).sum =
      (shares.map (·.amountMinor)).sum := by
  induction shares with
  | nil => rfl
  | cons share shares ih =>
    obtain ⟨receipt, hpays⟩ := h share List.mem_cons_self
    rw [List.flatMap_cons, List.map_append, List.sum_append, hpays.single, List.map_cons,
      List.sum_cons, ih fun other hother => h other (List.mem_cons_of_mem _ hother)]
    simp [hpays.amountMinor]

/-- A settled bill is paid in full. -/
lemma reaches_paidInFull
    (hs : Reaches (payments setting.payingShares) (Sys.init (.initial users)) s)
    {bill : SplitBill} (hbill : bill ∈ s.world.db.bills)
    (hsettled : s.world.db.billStatus bill.id = .settled) : PaidInFull s.world bill := by
  have hok := (reaches_ok hs).inv.tables
  have hperm := sharesOf_perm s.world.db bill.id
  have hpays : ∀ share ∈ s.world.db.sharesOf bill.id, ∃ receipt,
      PaysShare s.world bill share receipt := by
    intro share hshare
    have hmem := hperm.mem_iff.mp hshare
    exact reaches_paysShare hs hbill hmem (isPaid_of_settled hok.shareTransfers hsettled share hmem)
  constructor
  case shares => exact hpays
  case distinct => exact billReceipts_distinct hok (reaches_ok hs).inv.ledger.inv.1.receipts bill
  case total =>
    rw [World.billReceipts, sum_receipts hpays, (hperm.map _).sum_eq]
    exact reaches_sharesAddUp hs bill hbill

/-! ### The course of a bill -/

/-- More paid shares bring a bill no further back. -/
lemma deriveSplitBillStatus_mono {paid paid' total : Nat} (hpaid : paid ≤ paid')
    (htotal : paid' ≤ total) :
    (deriveSplitBillStatus paid total).rank ≤ (deriveSplitBillStatus paid' total).rank := by
  rw [deriveSplitBillStatus, deriveSplitBillStatus]
  split_ifs <;> simp [SplitBillStatus.rank] <;> omega


/-- A paid share stays paid. -/
lemma Database.Extends.isPaid {db db' : Database} (h : db.Extends db') {share : SplitBillShare}
    (hpaid : db.isPaid share = true) : db'.isPaid share = true := by
  obtain ⟨row, hrow, hshare, hcompleted⟩ := Database.isPaid_iff.mp hpaid
  obtain ⟨row', hrow', hevolves⟩ := h.rows row hrow
  refine Database.isPaid_iff.mpr ⟨row', hrow', ?_, ?_⟩
  · exact (Transfer.congr_terms hevolves.terms (·.splitBillShareId) fun _ => rfl).trans hshare
  · refine hevolves.status.closed (S := fun status => status = .completed) (fun a b ha hb => ?_)
      hcompleted
    rw [ha] at hb
    cases hb

/-- A bill keeps its shares. -/
lemma reaches_billShares (hok : s.Ok (payments setting) (paymentsProtocol setting))
    (hs : Reaches (payments setting) s s') {bill : SplitBill} (hbill : bill ∈ s.world.db.bills) :
    s'.world.db.billShares bill.id = s.world.db.billShares bill.id := by
  refine (reaches_invariant (P := fun w : World => bill ∈ w.db.bills ∧
    w.db.billShares bill.id = s.world.db.billShares bill.id) hok ⟨hbill, rfl⟩
    (fun w c job hinv hw _ _ hmove _ => ⟨(hmove.extends hinv.tables).bills.1 hw.1, ?_⟩)
    (fun _ _ _ hw _ => hw) (fun _ _ _ _ _ hw _ _ _ => hw) (fun w w' _ hw hledger => ?_) hs).2
  · exact (hmove.billShares_bill hw.1).trans hw.2
  · cases hledger <;> exact hw

/-- The status of a bill never goes back. -/
lemma reaches_rank (hok : s.Ok (payments setting) (paymentsProtocol setting))
    (hs : Reaches (payments setting) s s') {bill : SplitBill} (hbill : bill ∈ s.world.db.bills) :
    (s.world.db.billStatus bill.id).rank ≤ (s'.world.db.billStatus bill.id).rank := by
  have hok' := hok.reaches (payments_sound setting) hs
  have hshares := hok.inv.tables.shareTransfers
  have hshares' := hok'.inv.tables.shareTransfers
  rw [Database.billStatus, Database.billStatus, paidShares_eq hshares, totalShares_eq hshares,
    paidShares_eq hshares', totalShares_eq hshares', reaches_billShares hok hs hbill]
  refine deriveSplitBillStatus_mono ?_ List.countP_le_length
  exact List.countP_mono_left fun share _ => (reaches_extends hok hs).isPaid

/-- In every reachable state, as long as shares are paid through `payShare`: a bill that is shown as
settled is paid in full, and no bill is ever shown further back than before. -/
theorem settled_bill_is_paid (setting : Setting) (users : List Ledger.User) {s : System}
    (hs : Reaches (payments setting.payingShares) (Sys.init (.initial users)) s)
    {id userId : String} {view : SplitBillView} (hview : s.world.db.Shows id userId view) :
    (view.status = .settled → ∃ bill ∈ s.world.db.bills, bill.id = id ∧ PaidInFull s.world bill) ∧
    ∀ s' userId' view', Reaches (payments setting.payingShares) s s' →
      s'.world.db.Shows id userId' view' → view.status.rank ≤ view'.status.rank := by
  have hok := reaches_ok hs
  obtain ⟨loaded, hload, -, rfl⟩ := Database.shows_iff.mp hview
  obtain ⟨bill, hbill, rfl⟩ := loadBill_some hload
  rw [billView_status hok.inv.tables.shareTransfers hload]
  refine ⟨fun hsettled => ⟨bill, hbill, rfl, reaches_paidInFull hs hbill hsettled⟩, ?_⟩
  intro s' userId' view' hs' hview'
  obtain ⟨loaded', hload', -, rfl⟩ := Database.shows_iff.mp hview'
  rw [billView_status (reaches_ok (hs.trans hs')).inv.tables.shareTransfers hload']
  exact reaches_rank hok hs' hbill

/-- The scripts in which shares are paid through `payShare`. -/
def payingRun : Script scripted.payingShares where
  draw := scriptedDraw
  ledgerDraw j := Ledger.drawFor (ledgerName j)
  test _ _ := true
  ledgerTest _ _ := true
  serves
    | .createSplitSharePayment .. => false
    | _ => true
  owners _ := true
  loses _ _ := true
  draw_ok := scripted_draws
  uuid_ok _ _ := trivial
  test_ok _ _ _ := trivial
  serves_ok _ h := ⟨trivial, fun _ _ heq => by rw [heq] at h; cases h⟩
  ledgerTest_ok _ _ _ := trivial
  owners_ok _ _ := ⟨trivial, fun _ => trivial⟩
  loses_ok _ _ _ := trivial

/-- Ann and Carl have paid their shares, and Bob sees his bill settled. -/
theorem settled_bill_is_paid_bill : ∃ s view,
    Reaches (payments scripted.payingShares) (Sys.init (.initial annBobAndCarl)) s ∧
      s.world.db.Shows "bill" "bob" view ∧ view.status = .settled ∧
      ∃ bill ∈ s.world.db.bills, bill.id = "bill" ∧ PaidInFull s.world bill := by
  obtain ⟨s, hs, hp⟩ := payingRun.exists_reaches annBobAndCarl
    (billOpening ++ payingFirst ++ [.breaker 1 true] ++ payingSecond ++ [.breaker 2 true])
    (fun s => (s.world.db.loadBill "bill").any fun loaded =>
      loaded.isVisible "bob" && (billView loaded).status = .settled) (by decide +kernel)
  obtain ⟨loaded, hload, hboth⟩ := (Option.any_eq_true _ _).mp hp
  obtain ⟨hvisible, hsettled⟩ := Bool.and_eq_true_iff.mp hboth
  have hview := Database.shows_iff.mpr ⟨loaded, hload, hvisible, rfl⟩
  have hstatus := of_decide_eq_true hsettled
  exact ⟨s, _, hs, hview, hstatus, (settled_bill_is_paid scripted _ hs hview).1 hstatus⟩

end Payments

end PeerLedger
