import PeerLedger.Payments.CreationRaces
import PeerLedger.Payments.SettledBills

/-!
# Bills that are never settled

A share has one transfer at most, and a transfer that has failed stays failed.  When the transfer of
a share fails, every later attempt to pay the share gets the failed transfer again, and the bill is
never shown as settled (`failed_share_blocks_bill`).
-/

namespace PeerLedger

namespace Payments

open Transactions

variable {setting : Setting} {users : List Ledger.User} {s s' : System} {w : World}

/-- The payment of the share has failed. -/
structure HasFailed (db : Database) (share : SplitBillShare) (row : Transfer) : Prop where
  mem : row ∈ db.transfers
  share : row.splitBillShareId = some share.id
  status : row.status = .failed

section Failed

variable {db : Database} {share : SplitBillShare} {row : Transfer}

/-- The failed transfer is the only one of its share. -/
lemma HasFailed.eq (h : HasFailed db share row) (hok : TablesOk db) {other : Transfer}
    (hother : other ∈ db.transfers) (hshare : other.splitBillShareId = some share.id) :
    other = row :=
  shareTransfer_unique hok.shareTransfers hother h.mem hshare h.share

lemma HasFailed.transferOfShare (h : HasFailed db share row) (hok : TablesOk db) :
    db.transferOfShare share.id = some row := by
  obtain ⟨found, hfound⟩ := transferOfShare_of_mem h.mem h.share
  obtain ⟨hmem, hshare⟩ := transferOfShare_some hfound
  rw [hfound, h.eq hok hmem hshare]

/-- The share is shown as failed. -/
lemma HasFailed.shareView (h : HasFailed db share row) (hok : TablesOk db) :
    Payments.shareView (share, db.transferOfShare share.id) =
      { id := share.id, participantUserId := share.participantUserId,
        amount := formatMinorUnits share.amountMinor, paymentStatus := .paymentFailed,
        transferId := some row.id, transferStatus := some .failed } := by
  have hpayment : paymentStatus (some row) = .paymentFailed := by
    simp [paymentStatus, h.status]
  rw [h.transferOfShare hok, Payments.shareView, hpayment, Option.map_some, Option.map_some,
    h.status]

/-- A share whose payment has failed is not paid. -/
lemma HasFailed.not_isPaid (h : HasFailed db share row) (hok : TablesOk db) :
    db.isPaid share ≠ true := by
  intro hpaid
  obtain ⟨other, hother, hshare, hcompleted⟩ := Database.isPaid_iff.mp hpaid
  rw [h.eq hok hother hshare, h.status] at hcompleted
  cases hcompleted

/-- The bill of a share whose payment has failed is shown with this share, and not as settled. -/
lemma HasFailed.shows (h : HasFailed db share row) (hok : TablesOk db) {billId userId : String}
    (hshare : share ∈ db.billShares billId) {view : SplitBillView}
    (hview : db.Shows billId userId view) :
    view.status ≠ .settled ∧ ∃ shown ∈ view.shares, shown.id = share.id ∧
      shown.paymentStatus = .paymentFailed ∧ shown.transferId = some row.id := by
  obtain ⟨loaded, hload, -, rfl⟩ := Database.shows_iff.mp hview
  refine ⟨fun hsettled => ?_, ?_⟩
  · rw [billView_status hok.shareTransfers hload] at hsettled
    exact h.not_isPaid hok (isPaid_of_settled hok.shareTransfers hsettled share hshare)
  · obtain ⟨bill, -, rfl⟩ := Option.map_eq_some_iff.mp hload
    have hmem := (sharesOf_perm db billId).mem_iff.mpr hshare
    refine ⟨_, List.mem_map_of_mem (List.mem_map_of_mem hmem), ?_⟩
    rw [h.shareView hok]
    exact ⟨rfl, rfl, rfl⟩

/-- The failure stays. -/
lemma HasFailed.reaches (h : HasFailed s.world.db share row)
    (hok : s.Ok (payments setting) (paymentsProtocol setting)) (hs : Reaches (payments setting) s s') :
    ∃ row', HasFailed s'.world.db share row' ∧ row'.id = row.id := by
  obtain ⟨row', hrow', hevolves⟩ := (reaches_extends hok hs).rows row h.mem
  have hfailed : row'.status = .failed := by
    refine hevolves.status.closed (S := fun status => status = .failed) (fun a b ha hb => ?_) h.status
    rw [ha] at hb
    cases hb
  refine ⟨row', ⟨hrow', ?_, hfailed⟩, hevolves.id_eq⟩
  exact (Transfer.congr_terms hevolves.terms (·.splitBillShareId) fun _ => rfl).trans h.share

/-- A request to pay the share gets the failed transfer. -/
lemma HasFailed.succeeds (h : HasFailed s.world.db share row)
    (hs : Reaches (payments setting) (Sys.init (.initial users)) s)
    (hcollide : Uncollided setting.config s.world) {i : Nat}
    {canonical : CanonicalTransferRequest} {key id : String}
    (hsucceeds : Succeeds setting.config s i canonical key id)
    (hpays : canonical.splitBillShareId = some share.id) : id = row.id := by
  obtain ⟨paid, hpaid, rfl, rfl, -⟩ := hsucceeds.row hs hcollide
  rw [h.eq (reaches_ok hs).inv.tables hpaid hpays]

/-- A share whose payment has failed has no receipts. -/
lemma HasFailed.shareReceipts (h : HasFailed w.db share row) (hok : TablesOk w.db)
    (hnone : ¬ w.HasReceipt row.id) : w.shareReceipts share = [] := by
  refine List.filter_eq_nil_iff.mpr fun receipt hreceipt hany => ?_
  obtain ⟨other, hother, hpays⟩ := List.any_eq_true.mp hany
  obtain ⟨hid, hshare⟩ := of_decide_eq_true hpays
  rw [h.eq hok hother hshare] at hid
  exact hnone ⟨receipt, hreceipt, hid.symm⟩

end Failed

/-- Once the transfer of a share has failed, the bill is stuck in every later state.  The share keeps
this transfer, which stays failed, and requests to pay the share get it, unless fingerprints collide.
The bill is never shown as settled, but with the failed share.  And the ledger has no receipt for the
share, unless the body of an answer `already_settled` was lost. -/
theorem failed_share_blocks_bill (setting : Setting) (users : List Ledger.User) {s : System}
    (hs : Reaches (payments setting) (Sys.init (.initial users)) s) {bill : SplitBill}
    (hbill : bill ∈ s.world.db.bills) {share : SplitBillShare}
    (hshare : share ∈ s.world.db.billShares bill.id) {row : Transfer}
    (hfailed : HasFailed s.world.db share row) {s' : System}
    (hs' : Reaches (payments setting) s s') :
    (∀ other ∈ s'.world.db.transfers, other.splitBillShareId = some share.id →
      other.id = row.id ∧ other.status = .failed) ∧
    (Uncollided setting.config s'.world → ∀ i canonical key id,
      Succeeds setting.config s' i canonical key id →
        canonical.splitBillShareId = some share.id → id = row.id) ∧
    (∀ userId view, s'.world.db.Shows bill.id userId view → view.status ≠ .settled ∧
      ∃ shown ∈ view.shares, shown.id = share.id ∧ shown.paymentStatus = .paymentFailed ∧
        shown.transferId = some row.id) ∧
    ((∀ t dto, ¬ setting.loses (.releaseTransferHold t dto) .alreadySettled) →
      s'.world.shareReceipts share = []) := by
  have hreach := hs.trans hs'
  have hok := (reaches_ok hreach).inv.tables
  obtain ⟨row', hfailed', hid⟩ := hfailed.reaches (reaches_ok hs) hs'
  have hshare' : share ∈ s'.world.db.billShares bill.id := by
    rwa [reaches_billShares (reaches_ok hs) hs' hbill]
  rw [← hid]
  refine ⟨fun other hother hpays => ?_, fun hcollide i canonical key id hsucceeds hpays => ?_,
    fun userId view hview => hfailed'.shows hok hshare' hview, fun hloses => ?_⟩
  · obtain rfl := hfailed'.eq hok hother hpays
    exact ⟨rfl, hfailed'.status⟩
  · exact hfailed'.succeeds hreach hcollide hsucceeds hpays
  · exact hfailed'.shareReceipts hok ((reaches_agrees hloses hreach).no_receipt
      (reaches_traffic hreach) hok hfailed'.mem hfailed'.status)

/-- Ann pays her share from Bob's wallet, which the ledger refuses, and tries again in vain. -/
theorem failed_share_blocks_bill_ann : ∃ s view,
    Reaches (payments scripted) (Sys.init (.initial annBobAndCarl)) s ∧
      s.world.db.Shows "bill" "bob" view ∧ view.status ≠ .settled ∧
      ∃ shown ∈ view.shares, shown.paymentStatus = .paymentFailed := by
  obtain ⟨s, hs, hp⟩ := scriptedRun.exists_reaches annBobAndCarl
    (billOpening ++ [.start 1 (.payShare "bill" "share-0" "ann" "bob-wallet" (some "key") 5),
      .breaker 1 false, .send 1, .deliver 5 0, .refuse 1 (.response 404 {}),
      .start 2 (.payShare "bill" "share-0" "ann" "bob-wallet" (some "again") 9)])
    (fun s => s.world.db.bills.any fun bill => (s.world.db.billShares bill.id).any fun share =>
      (s.world.db.loadBill bill.id).any (fun loaded => loaded.isVisible "bob") &&
        bill.id = "bill" && s.world.db.transfers.any fun row =>
          row.splitBillShareId = some share.id ∧ row.status = .failed) (by decide +kernel)
  obtain ⟨bill, hbill, hp⟩ := List.any_eq_true.mp hp
  obtain ⟨share, hshare, hp⟩ := List.any_eq_true.mp hp
  obtain ⟨hp, hrows⟩ := Bool.and_eq_true_iff.mp hp
  obtain ⟨hloaded, hid⟩ := Bool.and_eq_true_iff.mp hp
  obtain ⟨loaded, hload, hvisible⟩ := (Option.any_eq_true _ _).mp hloaded
  obtain ⟨row, hrow, hfailed⟩ := List.any_eq_true.mp hrows
  obtain ⟨hpays, hstatus⟩ := of_decide_eq_true hfailed
  have hview := Database.shows_iff.mpr ⟨loaded, hload, hvisible, rfl⟩
  obtain ⟨-, -, hshows, -⟩ := failed_share_blocks_bill scripted _ hs hbill hshare
    ⟨hrow, hpays, hstatus⟩ .refl
  obtain ⟨hsettled, shown, hshown, -, hpayment, -⟩ := hshows _ _ hview
  rw [of_decide_eq_true hid] at hview
  exact ⟨s, _, hs, hview, hsettled, shown, hshown, hpayment⟩

end Payments

end PeerLedger
