import PeerLedger.Payments.Protocol

/-!
# Counting the paid shares of a bill

With one transfer for each share, the two counts of `enqueueSplitSharePaid` are the number of the
bill's shares and the number of those with a completed transfer (`totalShares_eq`, `paidShares_eq`).

While a completing transaction has its update pending, the others cannot change what it counts, as
long as no other transfer of the bill is completed meanwhile (`later_billStatus`).
-/

namespace PeerLedger

namespace Payments

open Transactions

/-! ### Closed forms -/

namespace Database

/-- The share has a completed transfer. -/
def isPaid (db : Database) (share : SplitBillShare) : Bool :=
  db.transfers.any fun row => row.splitBillShareId = some share.id ∧ row.status = .completed

lemma isPaid_iff {db : Database} {share : SplitBillShare} :
    db.isPaid share = true ↔ ∃ row ∈ db.transfers, row.splitBillShareId = some share.id ∧
      row.status = .completed := by
  simp [isPaid]

/-- The shares of a bill in order of insertion. -/
def billShares (db : Database) (billId : String) : List SplitBillShare :=
  db.shares.filter fun share => share.billId = billId

end Database

/-- A share has at most one transfer. -/
lemma filter_share {rows : List Transfer} (h : (rows.filterMap (·.splitBillShareId)).Nodup)
    (shareId : String) :
    (rows.filter fun row => row.splitBillShareId = some shareId) = [] ∨
      ∃ row ∈ rows, row.splitBillShareId = some shareId ∧
        (rows.filter fun row => row.splitBillShareId = some shareId) = [row] := by
  rcases hf : rows.filter fun row => row.splitBillShareId = some shareId with _ | ⟨row, _ | ⟨b, l⟩⟩
  · exact .inl hf
  · have hmem : row ∈ rows.filter fun row => row.splitBillShareId = some shareId := by simp [hf]
    obtain ⟨hrow, hshare⟩ := List.mem_filter.mp hmem
    exact .inr ⟨row, hrow, by simpa using hshare, hf⟩
  · -- two transfers of the share would be two occurrences of its id
    have hsub : List.Sublist ((rows.filter fun row => row.splitBillShareId = some shareId).filterMap
        (·.splitBillShareId)) (rows.filterMap (·.splitBillShareId)) :=
      List.filter_sublist.filterMap _
    have hnodup := h.sublist hsub
    have hall : ∀ r ∈ rows.filter fun row => row.splitBillShareId = some shareId,
        r.splitBillShareId = some shareId := fun r hr => by simpa using (List.mem_filter.mp hr).2
    rw [hf] at hnodup hall
    simp [hall row (by simp), hall b (by simp)] at hnodup

lemma shareTransfer_unique {rows : List Transfer} (h : (rows.filterMap (·.splitBillShareId)).Nodup)
    {shareId : String} {a b : Transfer} (ha : a ∈ rows) (hb : b ∈ rows)
    (hsa : a.splitBillShareId = some shareId) (hsb : b.splitBillShareId = some shareId) : a = b := by
  have hin : ∀ row ∈ rows, row.splitBillShareId = some shareId →
      row ∈ rows.filter fun row => row.splitBillShareId = some shareId :=
    fun row hrow hshare => List.mem_filter.mpr ⟨hrow, by simpa using hshare⟩
  rcases filter_share h shareId with hnil | ⟨row, -, -, hone⟩
  · exact absurd (hnil ▸ hin a ha hsa) List.not_mem_nil
  · exact (List.mem_singleton.mp (hone ▸ hin a ha hsa)).trans
      (List.mem_singleton.mp (hone ▸ hin b hb hsb)).symm

/-- The rows of a share joined with its transfers. -/
def joinedRows (counted : Option Transfer → Bool) : List Transfer → Nat
  | [] => if counted none then 1 else 0
  | rows => rows.countP fun row => counted (some row)

section Counts

variable {db : Database} (h : (db.transfers.filterMap (·.splitBillShareId)).Nodup) (billId : String)

include h

/-- The rows of the join, one for each share. -/
lemma shareRows_eq (counted : Option Transfer → Bool) :
    db.shareRows billId counted = (db.billShares billId).countP fun share =>
      counted (db.transfers.find? fun row => row.splitBillShareId = some share.id) := by
  have hterm : ∀ share ∈ db.billShares billId,
      joinedRows counted (db.transfers.filter fun row => row.splitBillShareId = some share.id) =
      if counted (db.transfers.find? fun row => row.splitBillShareId = some share.id) then 1
      else 0 := by
    intro share _
    rw [← List.head?_filter]
    rcases filter_share h share.id with hnil | ⟨row, -, -, hone⟩
    · rw [hnil]
      rfl
    · rw [hone]
      simp only [joinedRows, List.countP_singleton, List.head?_cons]
      rfl
  refine (congrArg List.sum (List.map_congr_left hterm)).trans ?_
  rw [List.countP_eq_length_filter]
  generalize db.billShares billId = shares
  induction shares with
  | nil => rfl
  | cons share shares ih =>
    rw [List.map_cons, List.sum_cons, ih, List.filter_cons]
    split <;> simp [Nat.add_comm]

lemma totalShares_eq : db.totalShares billId = (db.billShares billId).length := by
  rw [Database.totalShares, shareRows_eq h, List.countP_true]

lemma paidShares_eq : db.paidShares billId = (db.billShares billId).countP db.isPaid := by
  rw [Database.paidShares, shareRows_eq h]
  refine List.countP_congr fun share _ => ?_
  rw [Database.isPaid_iff, ← List.head?_filter]
  rcases filter_share h share.id with hnil | ⟨row, hrow, hshare, hone⟩
  · rw [hnil]
    have hnot := List.filter_eq_nil_iff.mp hnil
    constructor
    · intro hnone
      cases hnone
    · rintro ⟨row, hrow, hshare, -⟩
      exact absurd (by simpa using hshare) (hnot row hrow)
  · rw [hone]
    constructor
    · intro hstatus
      exact ⟨row, hrow, hshare, by simpa using hstatus⟩
    · rintro ⟨row', hrow', hshare', hstatus⟩
      have hmem : row' ∈ [row] := hone ▸ List.mem_filter.mpr ⟨hrow', by simpa using hshare'⟩
      obtain rfl := List.mem_singleton.mp hmem
      simpa using hstatus

end Counts

/-- The status of a bill is that of its shares. -/
lemma billStatus_congr {db db' : Database} {billId : String}
    (h : (db.transfers.filterMap (·.splitBillShareId)).Nodup)
    (h' : (db'.transfers.filterMap (·.splitBillShareId)).Nodup)
    (hshares : db'.billShares billId = db.billShares billId)
    (hpaid : ∀ share ∈ db.billShares billId, db'.isPaid share = db.isPaid share) :
    db'.billStatus billId = db.billStatus billId := by
  have hcount : (db.billShares billId).countP db'.isPaid = (db.billShares billId).countP db.isPaid :=
    List.countP_congr fun share hshare => by rw [hpaid share hshare]
  simp only [Database.billStatus, paidShares_eq h, paidShares_eq h', totalShares_eq h,
    totalShares_eq h', hshares, hcount]

/-! ### What a completing transaction counts -/

variable {setting : Setting} {i : Nat} {p : List Write} {w w' : World}

/-- A row that a commit changes has not ended. -/
lemma RowStep.live {job : Job} {body : PaymentsTx Reply} {row row' : Transfer}
    (h : RowStep setting w job body row row') (hok : TablesOk w.db) (hrow : row ∈ w.db.transfers) :
    row.status.isTerminal = false := by
  cases h with
  | lease hclaim => simpa using (Bool.and_eq_true_iff.mp (Bool.and_eq_true_iff.mp hclaim).1).1
  | advance h =>
    by_contra hended
    obtain ⟨n, transfer, howner, -⟩ := h.saved
    rw [hok.ended row hrow (by simpa using hended)] at howner
    cases howner

/-- The pending update of a row that the table has. -/
structure Updates (db : Database) (share : SplitBillShare) (row' : Transfer) : Prop where
  share_mem : share ∈ db.shares
  row : ∃ row ∈ db.transfers, row.id = row'.id ∧ row.splitBillShareId = row'.splitBillShareId

lemma Updates.nodup {db : Database} {share : SplitBillShare} {row' : Transfer}
    (h : Updates db share row') (hok : TablesOk db) :
    ((db.apply (.saveTransfer row')).transfers.filterMap (·.splitBillShareId)).Nodup := by
  obtain ⟨row, hrow, hid, hshare⟩ := h.row
  have hmap := map_saveRow (f := (·.splitBillShareId)) hok.ids hrow hid.symm hshare.symm
  have hfilter : ∀ rows : List Transfer, rows.filterMap (·.splitBillShareId) =
      (rows.map (·.splitBillShareId)).filterMap id := fun rows => by simp [List.filterMap_map]
  change ((saveRow row' db.transfers).filterMap (·.splitBillShareId)).Nodup
  rw [hfilter, hmap, ← hfilter]
  exact hok.shareTransfers

section Move

variable {job : Job} {body : PaymentsTx Reply} {ws : List Write}

/-- A bill keeps its shares: a new bill is another one. -/
lemma Move.billShares_bill (h : Move setting w job body ws) {bill : SplitBill}
    (hbill : bill ∈ w.db.bills) :
    (view w.db ws).billShares bill.id = w.db.billShares bill.id := by
  cases h with
  | none => rfl
  | insert => rfl
  | save => rw [view_save]; rfl
  | createBill _ hfresh =>
    rw [view_bill]
    change (w.db.shares ++ _).filter _ = w.db.shares.filter _
    rw [List.filter_append, List.append_right_eq_self, List.filter_eq_nil_iff]
    intro s hs
    obtain ⟨row, hrow, rfl⟩ := List.mem_map.mp hs
    rw [newShares_billId hrow]
    simpa using fun heq => hfresh.id bill hbill heq.symm

/-- The other shares of the bill of a share. -/
lemma Move.billShares_eq (h : Move setting w job body ws) (hok : TablesOk w.db)
    {share : SplitBillShare} (hshare : share ∈ w.db.shares) :
    (view w.db ws).billShares share.billId = w.db.billShares share.billId := by
  obtain ⟨bill, hbill, hid⟩ := hok.shareBills share hshare
  exact hid ▸ h.billShares_bill hbill

/-- A commit that completes no transfer of the bill leaves the completed ones alone. -/
lemma Move.completed_iff (h : Move setting w job body ws) (hok : TablesOk w.db) {billId : String}
    (hnot : ¬ Completes w.db billId ws) {share : SplitBillShare}
    (hshare : share ∈ w.db.billShares billId) {row : Transfer}
    (hrow : row.splitBillShareId = some share.id) (hstatus : row.status = .completed) :
    row ∈ (view w.db ws).transfers ↔ row ∈ w.db.transfers := by
  obtain ⟨hmem, hbill⟩ := List.mem_filter.mp hshare
  rw [decide_eq_true_eq] at hbill
  constructor
  · intro hafter
    rcases h.row_cases hafter with hbefore | ⟨-, hnew, -⟩ | ⟨old, hold, hsaved, hstep⟩
    · exact hbefore
    · rw [hnew.status_eq.1] at hstatus
      cases hstatus
    · exact absurd ⟨row, share, hsaved, hstatus, hmem, hrow, hbill⟩ hnot
  · intro hbefore
    cases h with
    | none => exact hbefore
    | insert => exact List.mem_append_left _ hbefore
    | @save old new _ hold hstep =>
      rw [view_save]
      refine mem_saveRow.mpr (.inl ⟨hbefore, fun heq => ?_⟩)
      have hsame := List.inj_on_of_nodup_map hok.ids hbefore hold (heq.trans hstep.evolves.id_eq)
      have hlive := hstep.live hok hold
      rw [← hsame, hstatus] at hlive
      cases hlive
    | createBill => rw [view_bill]; exact hbefore

/-- A commit that completes no transfer of the bill leaves its status alone, as the transaction with
the pending update sees it. -/
lemma Move.billStatus {share : SplitBillShare} {row' : Transfer} (h : Move setting w job body ws)
    (hok : TablesOk w.db) (hupdates : Updates w.db share row')
    (hlock : Lock.transferId row'.id ∉ locksOf (σ := Database) ws)
    (hnot : ¬ Completes w.db share.billId ws) :
    Updates (view w.db ws) share row' ∧
      ((view w.db ws).apply (.saveTransfer row')).billStatus share.billId =
        (w.db.apply (.saveTransfer row')).billStatus share.billId := by
  have hupdates' : Updates (view w.db ws) share row' := by
    obtain ⟨row, hrow, hid, hshare⟩ := hupdates.row
    exact ⟨h.bills.2 hupdates.share_mem, row, (h.row_locked hlock hid).mpr hrow, hid, hshare⟩
  refine ⟨hupdates', billStatus_congr (hupdates.nodup hok) (hupdates'.nodup (h.tables hok))
    (h.billShares_eq hok hupdates.share_mem) fun s hs => ?_⟩
  rw [Bool.eq_iff_iff, Database.isPaid_iff, Database.isPaid_iff]
  change (∃ row ∈ saveRow row' (view w.db ws).transfers, _) ↔
    ∃ row ∈ saveRow row' w.db.transfers, _
  have hids : (∃ was ∈ (view w.db ws).transfers, was.id = row'.id) ↔
      ∃ was ∈ w.db.transfers, was.id = row'.id :=
    exists_congr fun was => and_congr_left fun hid => h.row_locked hlock hid
  simp only [mem_saveRow, hids]
  constructor
  · rintro ⟨row, ⟨hmem, hne⟩ | hsame, hshare, hstatus⟩
    · exact ⟨row, .inl ⟨(h.completed_iff hok hnot hs hshare hstatus).mp hmem, hne⟩, hshare, hstatus⟩
    · exact ⟨row, .inr hsame, hshare, hstatus⟩
  · rintro ⟨row, ⟨hmem, hne⟩ | hsame, hshare, hstatus⟩
    · exact ⟨row, .inl ⟨(h.completed_iff hok hnot hs hshare hstatus).mpr hmem, hne⟩, hshare, hstatus⟩
    · exact ⟨row, .inr hsame, hshare, hstatus⟩

end Move

/-- While the update is pending, and the completions of a bill are serial, the others leave its
status alone. -/
lemma later_billStatus {share : SplitBillShare} {row' : Transfer}
    {message : PaymentOutboxMessage} (hserial : setting.CompletesSerially)
    (hp : Write.saveTransfer row' ∈ p) (hmessage : Write.insertOutbox message ∈ p)
    (hstatus : row'.status = .completed) (hshare : row'.splitBillShareId = some share.id)
    (h : Later (payments setting) (paymentsProtocol setting) i p w w')
    (hupdates : Updates w.db share row') :
    Updates w'.db share row' ∧ (w'.db.apply (.saveTransfer row')).billStatus share.billId =
      (w.db.apply (.saveTransfer row')).billStatus share.billId := by
  refine Later.rel (R := fun a b : World => Updates a.db share row' → Updates b.db share row' ∧
    (b.db.apply (.saveTransfer row')).billStatus share.billId =
      (a.db.apply (.saveTransfer row')).billStatus share.billId) (fun _ h => ⟨h, rfl⟩)
    (fun a b c hab hbc ha => ⟨(hbc (hab ha).1).1, ((hbc (hab ha).1).2).trans (hab ha).2⟩)
    (fun a b hab ha => ?_) h hupdates
  cases hab with
  | env hinv he => cases he <;> exact ⟨ha, rfl⟩
  | @commit c pending hinv hne hdisj hsub hadm hguar =>
    obtain ⟨job, -, hmove, -⟩ := hguar
    have hlock : Lock.transferId row'.id ∈ locksOf (σ := Database) p :=
      List.mem_flatMap.mpr ⟨_, hp, by simp [Store.locks, Write.locks]⟩
    refine hmove.billStatus hinv.tables ha (fun hmem => hdisj hlock hmem) ?_
    exact hserial a pending c hadm i (Ne.symm hne) share.billId
      ⟨⟨row', share, hsub hp, hstatus, ha.share_mem, hshare, rfl⟩, message, hsub hmessage⟩
  | issue _ _ _ hissue => rw [issue_db hissue]; exact ⟨ha, rfl⟩
  | start _ _ hstart => obtain ⟨-, _, _, -, -, -, rfl⟩ := hstart; exact ⟨ha, rfl⟩

/-- What a completing transaction has found out about the share that its transfer pays. -/
structure Counted (setting : Setting) (db : Database) (row' : Transfer) (share : SplitBillShare)
    (bill : SplitBill) (status : SplitBillStatus) : Prop where
  share_mem : share ∈ db.shares
  bill_mem : bill ∈ db.bills
  status_eq : setting.CompletesSerially →
    status = (db.apply (.saveTransfer row')).billStatus share.billId

/-- The count stays right while the update is pending. -/
lemma Counted.later {row row' : Transfer} {share : SplitBillShare} {bill : SplitBill}
    {status : SplitBillStatus} {message : PaymentOutboxMessage}
    (h : Counted setting w.db row' share bill status) (hp : Write.saveTransfer row' ∈ p)
    (hmessage : Write.insertOutbox message ∈ p) (hstatus : row'.status = .completed)
    (hshare : row'.splitBillShareId = some share.id) (hrow : row ∈ w.db.transfers)
    (hid : row'.id = row.id) (hsame : row'.splitBillShareId = row.splitBillShareId)
    (hw : Later (payments setting) (paymentsProtocol setting) i p w w') :
    Counted setting w'.db row' share bill status := by
  have hbills := (later_ahead hw).bills
  refine ⟨hbills.2 h.share_mem, hbills.1 h.bill_mem, fun hserial => ?_⟩
  have hupdates : Updates w.db share row' := ⟨h.share_mem, row, hrow, hid.symm, hsame.symm⟩
  rw [(later_billStatus hserial hp hmessage hstatus hshare hw hupdates).2]
  exact h.status_eq hserial

/-- The messages of a pending completion stay right. -/
lemma Announces.later {row row' : Transfer} {messages : List PaymentOutboxMessage}
    (h : Announces setting w.db row' messages) (hp : Write.saveTransfer row' ∈ p)
    (hmessages : ∀ message ∈ messages, Write.insertOutbox message ∈ p)
    (hrow : row ∈ w.db.transfers) (hid : row'.id = row.id)
    (hsame : row'.splitBillShareId = row.splitBillShareId)
    (hw : Later (payments setting) (paymentsProtocol setting) i p w w') :
    Announces setting w'.db row' messages := by
  cases h with
  | nothing hstatus => exact .nothing hstatus
  | transfer hstatus hreceiver hnone => exact .transfer hstatus hreceiver hnone
  | share hstatus hreceiver hsome hmem hbill hbillId heq =>
    have hcounted := Counted.later ⟨hmem, hbill, heq⟩ hp (hmessages _ List.mem_cons_self) hstatus hsome
      hrow hid hsame hw
    exact .share hstatus hreceiver hsome hcounted.share_mem hcounted.bill_mem hbillId
      hcounted.status_eq

end Payments

end PeerLedger
