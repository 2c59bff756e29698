import PeerLedger.Payments.Completions

/-!
# The announced status of a split bill

Every `SharePaid` message announces the status of its bill, which the completing transaction counts
from the shares and their transfers.  At READ COMMITTED, two completions of one bill that overlap do
not see each other: both announce the status without the other one, and when they are the last two,
nobody announces that the bill is settled (`last_payments_unannounced`).

As long as no completion of a bill commits between the count of another one and its commit, the
`k`-th completion to commit announces the status with `k` paid shares (`announced_in_order`).
-/

namespace PeerLedger

namespace Payments

open Transactions

/-- A text in the payload of a message. -/
def payloadText (key : String) (message : PaymentOutboxMessage) : Option String :=
  match message.event.payload with
  | .obj fields =>
    match fields.lookup key with
    | some (.str text) => some text
    | _ => none
  | _ => none

/-- The commit completes a transfer of a share of the bill. -/
def completesBill (db : Database) (billId : String) (c : PaymentsCommit) : Bool :=
  (savedRow c.writes).any fun row => row.status = .completed ∧
    db.shares.any fun share => row.splitBillShareId = some share.id ∧ share.billId = billId

/-- The completions of a bill's transfers in the order of their commits. -/
def completionsOf (w : World) (billId : String) : List PaymentsCommit :=
  w.log.filter (completesBill w.db billId)

/-- The `SharePaid` messages of a commit. -/
def sharePaidOf (c : PaymentsCommit) : List PaymentOutboxMessage :=
  c.writes.filterMap fun
    | .insertOutbox message =>
      if message.event.eventType = "payments.split-bill.SharePaid" then some message else none
    | _ => none

/-- The payments of a bill are announced in the order in which they commit. -/
structure AnnouncedInOrder (w : World) (billId : String) : Prop where
  /-- The message of the `k`-th completion, counted from one, announces `k` paid shares. -/
  kth : ∀ k c, (completionsOf w billId)[k]? = some c → ∃ message, sharePaidOf c = [message] ∧
    payloadText "billStatus" message =
      some (deriveSplitBillStatus (k + 1) (w.db.billShares billId).length).text
  /-- When all shares are paid, some message announces that the bill is settled. -/
  settled : w.db.billShares billId ≠ [] →
    (∀ share ∈ w.db.billShares billId, w.db.isPaid share = true) →
    ∃ message ∈ w.db.outbox, message.event.eventType = "payments.split-bill.SharePaid" ∧
      payloadText "splitBillId" message = some billId ∧
      payloadText "billStatus" message = some SplitBillStatus.settled.text

/-- The runs in which no completion of a bill commits once another one that is still open has come to
its messages, which begin with the count. -/
def Setting.completingSerially (setting : Setting) : Setting :=
  { setting with
    admits := fun w pending c => setting.admits w pending c ∧ ∀ i, i ≠ c.thread → ∀ billId,
      CountsShares w.db billId (pending i) → ¬ Completes w.db billId c.writes }

lemma Setting.completesSerially (setting : Setting) : setting.completingSerially.CompletesSerially :=
  fun _ _ _ h => h.2

/-! ### Counting -/

/-- One more element of a list counts. -/
lemma countP_update {α : Type} {l : List α} {p q : α → Bool} {a : α} (hnodup : l.Nodup) (ha : a ∈ l)
    (hp : p a = false) (hq : q a = true) (hrest : ∀ b ∈ l, b ≠ a → q b = p b) :
    l.countP q = l.countP p + 1 := by
  induction l with
  | nil => cases ha
  | cons b l ih =>
    obtain ⟨hb, hnodup⟩ := List.nodup_cons.mp hnodup
    rcases List.mem_cons.mp ha with rfl | ha
    · have hcount : l.countP q = l.countP p := List.countP_congr fun c hc => by
        rw [hrest c (List.mem_cons_of_mem _ hc) fun heq => hb (heq ▸ hc)]
      simp [hp, hq, hcount]
    · have hne : b ≠ a := fun heq => hb (heq ▸ ha)
      have hih := ih hnodup ha fun c hc => hrest c (List.mem_cons_of_mem _ hc)
      rw [List.countP_cons, List.countP_cons, hih, hrest b List.mem_cons_self hne]
      omega

section Step

variable {setting : Setting} {w : World} {job : Job} {body : PaymentsTx Reply} {ws : List Write}

/-- A completion of a transfer pays its share. -/
lemma Updates.paid {db : Database} (hok : TablesOk db) {row row' : Transfer} {share : SplitBillShare}
    (hrow : row ∈ db.transfers) (hid : row'.id = row.id)
    (hsame : row'.splitBillShareId = row.splitBillShareId) (hlive : row.status ≠ .completed)
    (hstatus : row'.status = .completed) (hshare : row'.splitBillShareId = some share.id)
    (hmem : share ∈ db.shares) :
    (db.billShares share.billId).countP (db.apply (.saveTransfer row')).isPaid =
      (db.billShares share.billId).countP db.isPaid + 1 := by
  have hnodup : (db.billShares share.billId).Nodup :=
    (List.Nodup.of_map _ hok.shareIds).filter _
  have hin : share ∈ db.billShares share.billId := List.mem_filter.mpr ⟨hmem, by simp⟩
  refine countP_update hnodup hin ?_ ?_ fun s hs hne => ?_
  · -- the transfer of the share is not completed yet
    rw [Bool.eq_false_iff, Ne, Database.isPaid_iff]
    rintro ⟨other, hother, hothershare, hotherstatus⟩
    have heq : other = row :=
      shareTransfer_unique hok.shareTransfers hother hrow hothershare (hsame.symm.trans hshare)
    exact hlive (heq ▸ hotherstatus)
  · exact Database.isPaid_iff.mpr
      ⟨row', mem_saveRow.mpr (.inr ⟨rfl, row, hrow, hid.symm⟩), hshare, hstatus⟩
  · have hsid : s.id ≠ share.id := fun heq => hne (List.inj_on_of_nodup_map hok.shareIds
      (List.mem_filter.mp hs).1 hmem heq)
    rw [Bool.eq_iff_iff, Database.isPaid_iff, Database.isPaid_iff]
    change (∃ r ∈ saveRow row' db.transfers, _) ↔ _
    constructor
    · rintro ⟨r, hr, hrshare, hrstatus⟩
      rcases mem_saveRow.mp hr with ⟨hr, -⟩ | ⟨rfl, -⟩
      · exact ⟨r, hr, hrshare, hrstatus⟩
      · rw [hshare] at hrshare
        exact absurd (Option.some.inj hrshare).symm hsid
    · rintro ⟨r, hr, hrshare, hrstatus⟩
      refine ⟨r, mem_saveRow.mpr (.inl ⟨hr, fun heq => ?_⟩), hrshare, hrstatus⟩
      obtain rfl := List.inj_on_of_nodup_map hok.ids hr hrow (heq.trans hid)
      exact hlive hrstatus

lemma completesBill_iff {db : Database} {billId : String} {c : PaymentsCommit} :
    completesBill db billId c = true ↔ ∃ row share, savedRow c.writes = some row ∧
      row.status = .completed ∧ share ∈ db.shares ∧ row.splitBillShareId = some share.id ∧
      share.billId = billId := by
  simp only [completesBill, Option.any_eq_true, Bool.decide_and, Bool.and_eq_true, decide_eq_true_eq,
    List.any_eq_true]
  constructor
  · rintro ⟨row, hsaved, hstatus, share, hmem, hshare, hbill⟩
    exact ⟨row, share, hsaved, hstatus, hmem, hshare, hbill⟩
  · rintro ⟨row, share, hsaved, hstatus, hmem, hshare, hbill⟩
    exact ⟨row, hsaved, hstatus, share, hmem, hshare, hbill⟩

/-- What is known of the completions of a bill. -/
structure BillAnnounced (w : World) (billId : String) : Prop where
  /-- The shares of committed rows exist. -/
  known : ∀ c ∈ w.log, ∀ row, savedRow c.writes = some row → ∀ shareId,
    row.splitBillShareId = some shareId → ∃ share ∈ w.db.shares, share.id = shareId
  count : (completionsOf w billId).length = (w.db.billShares billId).countP w.db.isPaid
  kth : ∀ k c, (completionsOf w billId)[k]? = some c → ∃ message, sharePaidOf c = [message] ∧
    message ∈ w.db.outbox ∧ payloadText "splitBillId" message = some billId ∧
    payloadText "billStatus" message =
      some (deriveSplitBillStatus (k + 1) (w.db.billShares billId).length).text

/-- Later shares change nothing for the commits before. -/
lemma completesBill_view (hmove : Move setting w job body ws) (hok : TablesOk w.db) {billId : String}
    {c : PaymentsCommit} (hknown : ∀ row, savedRow c.writes = some row → ∀ shareId,
      row.splitBillShareId = some shareId → ∃ share ∈ w.db.shares, share.id = shareId) :
    completesBill (view w.db ws) billId c = completesBill w.db billId c := by
  rw [Bool.eq_iff_iff, completesBill_iff, completesBill_iff]
  constructor
  · rintro ⟨row, share, hsaved, hstatus, hmem, hshare, hbill⟩
    obtain ⟨old, hold, hid⟩ := hknown row hsaved share.id hshare
    have heq : old = share :=
      List.inj_on_of_nodup_map (hmove.tables hok).shareIds (hmove.bills.2 hold) hmem hid
    exact ⟨row, share, hsaved, hstatus, heq ▸ hold, hshare, hbill⟩
  · rintro ⟨row, share, hsaved, hstatus, hmem, hshare, hbill⟩
    exact ⟨row, share, hsaved, hstatus, hmove.bills.2 hmem, hshare, hbill⟩

/-- Messages stay. -/
lemma Move.outbox (h : Move setting w job body ws) : w.db.outbox ⊆ (view w.db ws).outbox := by
  cases h with
  | none => exact List.Subset.refl _
  | insert => exact List.Subset.refl _
  | save =>
    rw [view_save]
    exact List.subset_append_left _ _
  | createBill =>
    rw [view_bill]
    exact List.subset_append_left _ _

/-- The transfers that pay a share were inserted after it. -/
lemma Move.paid_share (h : Move setting w job body ws) (hok : TablesOk w.db) {share : SplitBillShare}
    (hshare : share ∈ (view w.db ws).shares) (hpaid : (view w.db ws).isPaid share = true) :
    share ∈ w.db.shares := by
  obtain ⟨row, hrow, hid, hstatus⟩ := Database.isPaid_iff.mp hpaid
  have hold : ∃ old ∈ w.db.shares, old.id = share.id := by
    rcases h.row_cases hrow with hmem | ⟨-, hnew, -⟩ | ⟨was, hwas, -, hstep⟩
    · exact hok.transferShares row hmem share.id hid
    · rw [hnew.status_eq.1] at hstatus
      cases hstatus
    · have hsame : row.splitBillShareId = was.splitBillShareId :=
        Transfer.congr_terms hstep.evolves.terms (·.splitBillShareId) fun _ => rfl
      exact hok.transferShares was hwas share.id (hsame.symm.trans hid)
  obtain ⟨old, hmem, hold⟩ := hold
  have heq : old = share :=
    List.inj_on_of_nodup_map (h.tables hok).shareIds (h.bills.2 hmem) hshare hold
  exact heq ▸ hmem

/-- A commit that completes no transfer of a bill leaves its shares and their payments alone, unless
it creates the bill. -/
lemma Move.unpaid (h : Move setting w job body ws) (hok : TablesOk w.db) {billId : String}
    (hnot : ¬ Completes w.db billId ws) :
    (w.db.billShares billId = [] ∨ (view w.db ws).billShares billId = w.db.billShares billId) ∧
    ((view w.db ws).billShares billId).countP (view w.db ws).isPaid =
      (w.db.billShares billId).countP w.db.isPaid := by
  rcases hb : w.db.billShares billId with _ | ⟨first, rest⟩
  · refine ⟨.inl rfl, ?_⟩
    rw [List.countP_nil, List.countP_eq_zero]
    intro share hshare hpaid
    obtain ⟨hmem, hbill⟩ := List.mem_filter.mp hshare
    have hin : share ∈ w.db.billShares billId :=
      List.mem_filter.mpr ⟨h.paid_share hok hmem hpaid, hbill⟩
    rw [hb] at hin
    cases hin
  · have hfirst : first ∈ w.db.billShares billId := by simp [hb]
    obtain ⟨hmem, hbill⟩ := List.mem_filter.mp hfirst
    rw [decide_eq_true_eq] at hbill
    have hsame := h.billShares_eq hok hmem
    rw [hbill] at hsame
    rw [← hb]
    refine ⟨.inr hsame, ?_⟩
    rw [hsame]
    refine List.countP_congr fun share hshare => ?_
    rw [Database.isPaid_iff, Database.isPaid_iff]
    refine exists_congr fun row => ⟨fun ⟨hrow, hid, hstatus⟩ => ?_, fun ⟨hrow, hid, hstatus⟩ => ?_⟩
    · exact ⟨(h.completed_iff hok hnot hshare hid hstatus).mp hrow, hid, hstatus⟩
    · exact ⟨(h.completed_iff hok hnot hshare hid hstatus).mpr hrow, hid, hstatus⟩

/-- The completion of a transfer of a bill pays one more share, and announces the new status. -/
lemma Move.announces (h : Move setting w job body ws) (hserial : setting.CompletesSerially)
    (hok : TablesOk w.db) {billId : String} (hcompletes : Completes w.db billId ws)
    {c : PaymentsCommit} (hc : c.writes = ws) :
    (view w.db ws).billShares billId = w.db.billShares billId ∧
    ((view w.db ws).billShares billId).countP (view w.db ws).isPaid =
      (w.db.billShares billId).countP w.db.isPaid + 1 ∧
    ∃ message, sharePaidOf c = [message] ∧
      message ∈ (view w.db ws).outbox ∧ payloadText "splitBillId" message = some billId ∧
      payloadText "billStatus" message = some (deriveSplitBillStatus
        ((w.db.billShares billId).countP w.db.isPaid + 1) (w.db.billShares billId).length).text := by
  obtain ⟨row', share, hsaved, hstatus, hmem, hshare, rfl⟩ := hcompletes
  refine ⟨h.billShares_eq hok hmem, ?_⟩
  rw [h.billShares_eq hok hmem]
  cases h with
  | none => cases hsaved
  | insert => simp at hsaved
  | createBill => simp [billWrites] at hsaved
  | @save row new messages hrow hstep hmessages =>
    obtain rfl : row' = new := by simpa using hsaved
    have hid := hstep.evolves.id_eq
    have hsame : row'.splitBillShareId = row.splitBillShareId :=
      Transfer.congr_terms hstep.evolves.terms (·.splitBillShareId) fun _ => rfl
    have hlive : row.status ≠ .completed := fun heq => by
      have := hstep.live hok hrow
      rw [heq] at this
      cases this
    have hpaid := Updates.paid hok hrow hid hsame hlive hstatus hshare hmem
    refine ⟨by rw [view_save]; exact hpaid, ?_⟩
    cases hmessages with
    | nothing hne => exact absurd hstatus hne
    | transfer _ _ hnone => rw [hnone] at hshare; cases hshare
    | @share receiverWalletId draw status share' bill _ _ hshare' hmem' _ _ hcount =>
      have heq : share' = share := List.inj_on_of_nodup_map hok.shareIds hmem' hmem
        (Option.some.inj (hshare'.symm.trans hshare))
      subst heq
      have hupdates : Updates w.db share' row' := ⟨hmem, row, hrow, hid.symm, hsame.symm⟩
      have hstatus' : status = deriveSplitBillStatus
          ((w.db.billShares share'.billId).countP w.db.isPaid + 1)
          (w.db.billShares share'.billId).length := by
        rw [hcount hserial, Database.billStatus, paidShares_eq (hupdates.nodup hok),
          totalShares_eq (hupdates.nodup hok), ← hpaid]
        rfl
      refine ⟨sharePaidMessage row' share' bill status draw.sharePaid, ?_, ?_, rfl, ?_⟩
      · by_cases hcreator : bill.creatorUserId ≠ share'.participantUserId <;>
          simp [sharePaidOf, hc, sharePaidMessages, hcreator, transferCompletedMessage, sharePaidMessage,
            statusChangedMessage, outboxMessage]
      · rw [view_save]
        simp [sharePaidMessages]
      · rw [← hstatus']
        rfl

/-- The rows that a move saves belong to shares that exist. -/
lemma Move.known (h : Move setting w job body ws) (hok : TablesOk w.db) {row : Transfer}
    (hsaved : savedRow ws = some row) {shareId : String} (hshare : row.splitBillShareId = some shareId) :
    ∃ share ∈ (view w.db ws).shares, share.id = shareId := by
  have hrow := h.saved_mem (savedRow_mem hsaved)
  exact (h.tables hok).transferShares row hrow shareId hshare

/-- Whether a commit completes a transfer of the bill. -/
lemma Move.completesBill_iff (h : Move setting w job body ws) (hok : TablesOk w.db) {billId : String}
    {c : PaymentsCommit} (hc : c.writes = ws) :
    completesBill (view w.db ws) billId c = true ↔ Completes w.db billId ws := by
  rw [Payments.completesBill_iff, hc]
  constructor
  · rintro ⟨row, share, hsaved, hstatus, hmem, hshare, hbill⟩
    have hin := savedRow_mem hsaved
    obtain ⟨was, hwas, hstep⟩ := h.saved hin
    have hsame : row.splitBillShareId = was.splitBillShareId :=
      Transfer.congr_terms hstep.evolves.terms (·.splitBillShareId) fun _ => rfl
    obtain ⟨old, hold, hid⟩ := hok.transferShares was hwas share.id (hsame.symm.trans hshare)
    have heq : old = share :=
      List.inj_on_of_nodup_map (h.tables hok).shareIds (h.bills.2 hold) hmem hid
    exact ⟨row, share, hin, hstatus, heq ▸ hold, hshare, hbill⟩
  · rintro ⟨row, share, hsaved, hstatus, hmem, hshare, hbill⟩
    exact ⟨row, share, h.savedRow_eq hsaved, hstatus, h.bills.2 hmem, hshare, hbill⟩

/-- Every commit keeps what is known of the completions of a bill. -/
lemma BillAnnounced.commit {billId : String} {c : PaymentsCommit} (h : BillAnnounced w billId)
    (hserial : setting.CompletesSerially) (hok : TablesOk w.db)
    (hmove : Move setting w job c.body c.writes) :
    BillAnnounced ((payments setting).commit w c) billId := by
  have hlog : (w.log.filter (completesBill (view w.db c.writes) billId)) = completionsOf w billId :=
    List.filter_congr fun c' hc' => completesBill_view hmove hok (h.known c' hc')
  have hcompletions : completionsOf ((payments setting).commit w c) billId =
      completionsOf w billId ++ [c].filter (completesBill (view w.db c.writes) billId) := by
    rw [← hlog]
    exact List.filter_append _ _
  have hknown : ∀ c' ∈ w.log ++ [c], ∀ row, savedRow c'.writes = some row → ∀ shareId,
      row.splitBillShareId = some shareId →
      ∃ share ∈ (view w.db c.writes).shares, share.id = shareId := by
    intro c' hc' row hsaved shareId hshare
    rcases List.mem_append.mp hc' with hc' | hc'
    · obtain ⟨share, hmem, hid⟩ := h.known c' hc' row hsaved shareId hshare
      exact ⟨share, hmove.bills.2 hmem, hid⟩
    · obtain rfl := List.mem_singleton.mp hc'
      exact hmove.known hok hsaved hshare
  by_cases hcompletes : Completes w.db billId c.writes
  · obtain ⟨hshares, hpaid, message, hone, hmem, hbill, hstatus⟩ :=
      hmove.announces hserial hok hcompletes rfl
    have hlast : [c].filter (completesBill (view w.db c.writes) billId) = [c] := by
      simp [(hmove.completesBill_iff hok rfl).mpr hcompletes]
    rw [hlast] at hcompletions
    refine ⟨hknown, ?_, fun k c' hk => ?_⟩
    · rw [hcompletions, List.length_append, h.count]
      exact hpaid.symm
    · change ∃ message, _ ∧ message ∈ (view w.db c.writes).outbox ∧ _ ∧ payloadText _ message =
        some (deriveSplitBillStatus (k + 1) ((view w.db c.writes).billShares billId).length).text
      rw [hshares]
      rw [hcompletions] at hk
      rcases Nat.lt_or_ge k (completionsOf w billId).length with hlt | hge
      · rw [List.getElem?_append_left hlt] at hk
        obtain ⟨old, hold, hin, hrest⟩ := h.kth k c' hk
        exact ⟨old, hold, hmove.outbox hin, hrest⟩
      · rw [List.getElem?_append_right hge] at hk
        obtain ⟨hzero, rfl⟩ : k - (completionsOf w billId).length = 0 ∧ c = c' := by
          rcases hk' : k - (completionsOf w billId).length with _ | n
          · rw [hk'] at hk
            exact ⟨rfl, Option.some.inj hk⟩
          · rw [hk'] at hk
            cases hk
        obtain rfl : k = (w.db.billShares billId).countP w.db.isPaid := by
          rw [← h.count]
          omega
        exact ⟨message, hone, hmem, hbill, hstatus⟩
  · obtain ⟨hshares, hpaid⟩ := hmove.unpaid hok hcompletes
    have hnone : [c].filter (completesBill (view w.db c.writes) billId) = [] := by
      simpa using fun htrue => hcompletes ((hmove.completesBill_iff hok rfl).mp htrue)
    rw [hnone, List.append_nil] at hcompletions
    refine ⟨hknown, ?_, fun k c' hk => ?_⟩
    · rw [hcompletions, h.count]
      exact hpaid.symm
    · rw [hcompletions] at hk
      change ∃ message, _ ∧ message ∈ (view w.db c.writes).outbox ∧ _ ∧ payloadText _ message =
        some (deriveSplitBillStatus (k + 1) ((view w.db c.writes).billShares billId).length).text
      rcases hshares with hnil | hshares
      · have hempty : completionsOf w billId = [] := by
          rw [← List.length_eq_zero_iff, h.count, hnil, List.countP_nil]
        rw [hempty] at hk
        cases hk
      · rw [hshares]
        obtain ⟨old, hold, hin, hrest⟩ := h.kth k c' hk
        exact ⟨old, hold, hmove.outbox hin, hrest⟩

end Step

/-- The messages of a commit are among those of the kind that is counted. -/
lemma eventType_of_sharePaidOf {c : PaymentsCommit} {message : PaymentOutboxMessage}
    (h : message ∈ sharePaidOf c) : message.event.eventType = "payments.split-bill.SharePaid" := by
  obtain ⟨write, -, hwrite⟩ := List.mem_filterMap.mp h
  cases write with
  | insertOutbox m =>
    dsimp only at hwrite
    split at hwrite
    · next htype => exact Option.some.inj hwrite ▸ htype
    · cases hwrite
  | _ => cases hwrite

/-- When all shares are paid, the last completion has announced it. -/
lemma BillAnnounced.inOrder {w : World} {billId : String} (h : BillAnnounced w billId) :
    AnnouncedInOrder w billId where
  kth k c hk := by
    obtain ⟨message, hone, -, -, hstatus⟩ := h.kth k c hk
    exact ⟨message, hone, hstatus⟩
  settled hne hall := by
    have hcount : (completionsOf w billId).length = (w.db.billShares billId).length := by
      rw [h.count, List.countP_eq_length]
      exact hall
    obtain ⟨n, hn⟩ := Nat.exists_eq_succ_of_ne_zero fun hzero =>
      hne (List.length_eq_zero_iff.mp hzero)
    have hlt : n < (completionsOf w billId).length := by omega
    obtain ⟨message, hone, hmem, hbill, hstatus⟩ := h.kth n _ (List.getElem?_eq_getElem hlt)
    refine ⟨message, hmem, eventType_of_sharePaidOf (hone ▸ List.mem_singleton_self _), hbill, ?_⟩
    rw [hstatus, hn]
    simp [deriveSplitBillStatus]

/-- In every run in which no completion of a bill commits between the count of another one and its
commit, the payments of every bill are announced in the order in which they commit. -/
theorem announced_in_order (setting : Setting) (users : List Ledger.User) {s : System}
    (hs : Reaches (payments setting.completingSerially) (Sys.init (.initial users)) s) :
    ∀ billId, AnnouncedInOrder s.world billId := by
  intro billId
  have hinit : BillAnnounced (World.initial users) billId :=
    ⟨(fun _ h => nomatch h), rfl, fun _ _ h => nomatch h⟩
  refine BillAnnounced.inOrder (reaches_invariant (P := fun w => BillAnnounced w billId)
    (reaches_ok .refl) hinit (fun w c job hinv hw _ _ hmove _ => ?_) (fun _ _ _ hw _ => ?_)
    (fun _ _ _ _ _ hw _ _ _ => ?_) (fun w w' _ hw hledger => ?_) hs)
  · exact hw.commit setting.completesSerially hinv.tables hmove
  · exact ⟨hw.known, hw.count, hw.kth⟩
  · exact ⟨hw.known, hw.count, hw.kth⟩
  · cases hledger <;> exact ⟨hw.known, hw.count, hw.kth⟩

/-! ### Ann and Carl pay Bob -/

/-- The scripts in which one completion follows the other. -/
def serialRun : Script scripted.completingSerially where
  draw := scriptedDraw
  ledgerDraw j := Ledger.drawFor (ledgerName j)
  test _ _ := true
  ledgerTest _ _ := true
  serves _ := true
  owners _ := true
  loses _ _ := true
  draw_ok := scripted_draws
  uuid_ok _ _ := trivial
  test_ok w c _ := by
    refine ⟨trivial, fun i hi billId hpending => ?_⟩
    obtain ⟨⟨row, -, hsaved, -⟩, -⟩ := hpending
    rw [soloPending, Function.update_of_ne hi] at hsaved
    cases hsaved
  serves_ok _ _ := trivial
  ledgerTest_ok _ _ _ := trivial
  owners_ok _ _ := ⟨trivial, fun _ => trivial⟩
  loses_ok _ _ _ := trivial

/-- Both shares of Bob's bill are paid one after the other, and the second payment announces that the
bill is settled. -/
theorem announced_in_order_bill : ∃ s,
    Reaches (payments scripted.completingSerially) (Sys.init (.initial annBobAndCarl)) s ∧
      (completionsOf s.world "bill").length = 2 ∧ AnnouncedInOrder s.world "bill" := by
  obtain ⟨s, hs, hcount⟩ := serialRun.exists_reaches annBobAndCarl
    (billOpening ++ payingFirst ++ [.breaker 1 true] ++ payingSecond ++ [.breaker 2 true])
    (fun s => (completionsOf s.world "bill").length = 2) (by decide +kernel)
  exact ⟨s, hs, by simpa using hcount, announced_in_order scripted _ hs "bill"⟩

/-- Two completions overlap: each one counts the shares before the other one has committed.  Both
shares are paid in the end, and nobody has announced that the bill is settled. -/
theorem last_payments_unannounced : ∃ s,
    Reaches (payments scripted) (Sys.init (.initial annBobAndCarl)) s ∧
      ¬ AnnouncedInOrder s.world "bill" := by
  obtain ⟨s, hs, hp⟩ := scriptedRun.exists_reaches_overlapping annBobAndCarl
    (billOpening ++ payingFirst ++ payingSecond)
    [1, 1, 1, 1, 1, 1, 1, 2, 2, 2, 2, 2, 2, 2, 1, 1, 1, 2, 2, 2] (fun _ _ _ => trivial)
    (fun s => s.world.db.billShares "bill" ≠ [] ∧
      (∀ share ∈ s.world.db.billShares "bill", s.world.db.isPaid share = true) ∧
      ∀ message ∈ s.world.db.outbox,
        payloadText "billStatus" message ≠ some SplitBillStatus.settled.text) (by decide +kernel)
  obtain ⟨hne, hpaid, hnone⟩ := of_decide_eq_true hp
  refine ⟨s, hs, fun h => ?_⟩
  obtain ⟨message, hmem, -, -, hsettled⟩ := h.settled hne hpaid
  exact hnone message hmem hsettled

end Payments

end PeerLedger
