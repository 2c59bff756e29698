import PeerLedger.Payments.Conservation

/-!
# The saga and the ledger agree

A transfer is completed only when the ledger has its receipt, and it fails only when the ledger will
never have one: either its funds were never held, and then nothing is ever settled, or the ledger has
released the hold, and then a settlement that is still on its way finds no active hold.

One response can break this.  `fetchOnce` takes a successful response whose body does not arrive for
an empty object, so that the answer `already_settled` of a release is read as any other outcome and the
transfer fails although it was settled (`failed_after_settlement`).  As long as these answers keep
their bodies, both services agree (`saga_agrees_with_ledger`).
-/

namespace PeerLedger

namespace Payments

open Transactions

variable {setting : Setting} {w w' : World} {job : Job}

/-- The runs in which no response `already_settled` loses its body. -/
def Setting.keepingOutcomes (setting : Setting) : Setting :=
  { setting with
    loses := fun command reply => setting.loses command reply ∧
      ∀ t dto, command = .releaseTransferHold t dto → reply ≠ .alreadySettled }

/-! ### Holds of the ledger -/

/-- A hold of the ledger stays, and does not change once it has ended. -/
lemma LedgerChange.hold (hinv : Inv setting w) (h : LedgerChange setting w w')
    {walletId holdId : String} {hold : Ledger.HoldState}
    (hhold : w.ledger.world.db.hold walletId holdId = some hold) :
    ∃ hold', w'.ledger.world.db.hold walletId holdId = some hold' ∧
      hold'.amountMinor = hold.amountMinor ∧ (hold.status ≠ .active → hold' = hold) := by
  cases h with
  | @same l hworld =>
    change ∃ hold', l.world.db.hold walletId holdId = some hold' ∧ _
    rw [hworld]
    exact ⟨hold, hhold, rfl, fun _ => rfl⟩
  | @commit l c _ _ _ _ heffect hworld =>
    change ∃ hold', l.world.db.hold walletId holdId = some hold' ∧ _
    rw [hworld]
    have hc := hinv.ledger.inv.1
    exact hc.hold_grows (heffect.consistent hc) (.of_writes _ _) hhold
  | owner => exact ⟨hold, hhold, rfl, fun _ => rfl⟩
  | deliver => exact ⟨hold, hhold, rfl, fun _ => rfl⟩

/-- Receipts stay. -/
lemma LedgerChange.settlements (h : LedgerChange setting w w')
    {receipt : Ledger.LedgerTransferSettlement} (hmem : receipt ∈ w.ledger.world.db.settlements) :
    receipt ∈ w'.ledger.world.db.settlements := by
  cases h with
  | @same l hworld =>
    change receipt ∈ l.world.db.settlements
    rwa [hworld]
  | @commit l c _ _ _ _ heffect hworld =>
    change receipt ∈ l.world.db.settlements
    rw [hworld]
    exact (Ledger.Database.Grows.of_writes w.ledger.world.db c.writes).mem_settlements hmem
  | owner => exact hmem
  | deliver => exact hmem

lemma LedgerChange.hasReceipt (h : LedgerChange setting w w') {t : String} (ht : w.HasReceipt t) :
    w'.HasReceipt t := by
  obtain ⟨receipt, hmem, hid⟩ := ht
  exact ⟨receipt, h.settlements hmem, hid⟩

/-! ### The invariant -/

/-- What the ledger has done for the transfers, as far as their rows depend on it. -/
structure Agrees (w : World) : Prop where
  /-- Funds that were held leave a hold. -/
  held : ∀ t, w.Reached t → ∃ row ∈ w.db.transfers, row.id = t ∧ row.holdMayExist = true ∧
    w.HoldExists row
  /-- A release is sent for a hold that exists, unless the funds were never held. -/
  released : ∀ request ∈ w.sent, ∀ t dto, request.command = .releaseTransferHold t dto →
    w.Reached t → request.ledgerDb.hold dto.senderWalletId t ≠ none
  failed : ∀ row ∈ w.db.transfers, row.status = .failed → w.Reached row.id →
    ∃ n, w.ledger.world.db.hold row.senderWalletId row.id = some ⟨n, .released⟩

/-- What a commit that holds the funds of a transfer has found. -/
lemma Move.fundsHeld {body : PaymentsTx Reply} {ws : List Write} (h : Move setting w job body ws)
    (hinv : Inv setting w) {row' : Transfer} (hsaved : Write.saveTransfer row' ∈ ws)
    (hstatus : row'.status = .fundsHeld) :
    ∃ row ∈ w.db.transfers, row.Evolves row' ∧ (w.Reached row.id ∨
      (row.status = .validating ∧ row.holdMayExist = true ∧ w.HoldExists row)) := by
  obtain ⟨row, hrow, hstep⟩ := h.saved hsaved
  refine ⟨row, hrow, hstep.evolves, ?_⟩
  by_cases hsame : row'.status = row.status
  · exact .inl (hinv.reached row hrow (.inl (hsame ▸ hstatus)))
  · cases hstep with
    | lease => exact absurd rfl hsame
    | advance hadv =>
      have hjust := hadv.justified hsame
      rw [hstatus] at hjust
      refine .inr ⟨?_, hjust⟩
      have hmem := hadv.advances.status.resolve_left hsame
      rw [hstatus] at hmem
      revert hmem
      cases row.status <;> simp [TransferStatus.allowedTransitions]

/-- The funds of a transfer were held before, or are held by this commit. -/
lemma reached_commit {c : PaymentsCommit} {t : String}
    (h : ((payments setting).commit w c).Reached t) :
    w.Reached t ∨ ∃ row, Write.saveTransfer row ∈ c.writes ∧ row.id = t ∧
      row.status = .fundsHeld := by
  obtain ⟨c', hc', row, hsaved, hrest⟩ := h
  rcases List.mem_append.mp hc' with hc' | hc'
  · exact .inl ⟨c', hc', row, hsaved, hrest⟩
  · obtain rfl := List.mem_singleton.mp hc'
    exact .inr ⟨row, hsaved, hrest⟩

/-- A hold is that of all versions of a row. -/
lemma Transfer.Evolves.holdExists {a b : Transfer} (h : a.Evolves b) (ha : w.HoldExists a) :
    w.HoldExists b := by
  obtain ⟨hold, hhold⟩ := ha
  exact ⟨hold, by rw [h.senderWalletId_eq, h.id_eq]; exact hhold⟩

/-- A row that ends has changed its status. -/
lemma RowStep.justified {body : PaymentsTx Reply} {row row' : Transfer}
    (h : RowStep setting w job body row row') (hok : TablesOk w.db) (hrow : row ∈ w.db.transfers)
    (hended : row'.status.isTerminal = true) : Justified setting w row row'.status := by
  have hne : row'.status ≠ row.status := fun heq => by
    have hlive := h.live hok hrow
    rw [← heq, hended] at hlive
    cases hlive
  cases h with
  | lease => exact absurd rfl hne
  | advance hadv => exact hadv.justified hne

/-- The hold of a transfer whose funds were held, and whose release was answered. -/
lemma Agrees.hold_released (h : Agrees w) (hinv : Inv setting w) {row : Transfer}
    (hloses : ∀ t dto, ¬ setting.loses (.releaseTransferHold t dto) .alreadySettled)
    (hanswered : w.ReleaseAnswered setting row) (ht : w.Reached row.id) :
    ∃ n, w.ledger.world.db.hold row.senderWalletId row.id = some ⟨n, .released⟩ := by
  obtain ⟨n, request, i, job, reply, hsent, hcommand, horigin, hjob, hanswers, hlost⟩ := hanswered
  obtain ⟨job', request', hjob', hsent', hsame, hgrows⟩ := hinv.origin i n horigin
  obtain rfl := Option.some.inj (hjob.symm.trans hjob')
  obtain rfl := Option.some.inj (hsent.symm.trans hsent')
  have hmem := List.mem_of_getElem? hsent
  unfold Ledger.Answers at hanswers
  rw [hsame, hcommand] at hanswers
  rcases hanswers with ⟨hsettled, -⟩ | ⟨-, -, hreleased | hnone⟩
  · have hlost := hlost hsettled
    rw [hcommand, hsettled] at hlost
    exact absurd hlost (hloses _ _)
  · exact hreleased
  · -- the hold existed when the release was sent, and so when it was executed
    have hstart := (hinv.ledger.inv.2.2 i job hjob).1
    have hbefore := (hinv.sent request hmem).1.hold_none hstart hgrows hnone
    exact absurd hbefore (h.released request hmem _ _ hcommand ht)

section Commit

variable {c : PaymentsCommit} (hinv : Inv setting w)
  (hmove : Move setting w job c.body c.writes)

include hinv hmove

lemma Agrees.held_commit (h : Agrees w) {t : String} (ht : ((payments setting).commit w c).Reached t) :
    ∃ row ∈ (view w.db c.writes).transfers, row.id = t ∧ row.holdMayExist = true ∧
      w.HoldExists row := by
  have hold : w.Reached t → ∃ row ∈ (view w.db c.writes).transfers, row.id = t ∧
      row.holdMayExist = true ∧ w.HoldExists row := by
    intro ht
    obtain ⟨row, hrow, hid, hmay, hexists⟩ := h.held t ht
    obtain ⟨row', hrow', hevolves⟩ := hmove.rows hrow hinv.ids
    exact ⟨row', hrow', hevolves.id_eq.trans hid, hevolves.holdMayExist hmay,
      hevolves.holdExists hexists⟩
  rcases reached_commit ht with ht | ⟨row', hsaved, rfl, hstatus⟩
  · exact hold ht
  · obtain ⟨row, hrow, hevolves, hreached | ⟨-, hmay, hexists⟩⟩ := hmove.fundsHeld hinv hsaved hstatus
    · rw [hevolves.id_eq]
      exact hevolves.id_eq ▸ hold (hevolves.id_eq.symm ▸ hreached)
    · exact ⟨row', hmove.saved_mem hsaved, rfl, hevolves.holdMayExist hmay,
        hevolves.holdExists hexists⟩

/-- A transfer for which a release was sent is late: its funds were held before, or never. -/
lemma reached_of_release (htraffic : Traffic w) {request : Request}
    (hrequest : request ∈ w.sent) {t : String} {dto : Ledger.ReleaseInternalTransferDto}
    (hcommand : request.command = .releaseTransferHold t dto)
    (ht : ((payments setting).commit w c).Reached t) : w.Reached t := by
  rcases reached_commit ht with ht | ⟨row', hsaved, rfl, hstatus⟩
  · exact ht
  · obtain ⟨row, hrow, hevolves, hreached | ⟨hvalidating, -⟩⟩ :=
      hmove.fundsHeld hinv hsaved hstatus
    · exact hevolves.id_eq ▸ hreached
    · obtain ⟨late, hlate, hid, -, hstatus⟩ :=
        (htraffic.sent request hrequest).release_cases hcommand
      have heq := List.inj_on_of_nodup_map hinv.ids hlate hrow (hid.trans hevolves.id_eq)
      rw [heq, hvalidating] at hstatus
      cases hstatus

/-- Every commit keeps the agreement, as long as the answers of releases keep their bodies. -/
lemma Agrees.commit (h : Agrees w) (htraffic : Traffic w)
    (hloses : ∀ t dto, ¬ setting.loses (.releaseTransferHold t dto) .alreadySettled) :
    Agrees ((payments setting).commit w c) := by
  constructor
  case held => exact fun t ht => h.held_commit hinv hmove ht
  case released =>
    intro request hrequest t dto hcommand ht
    exact h.released request hrequest t dto hcommand
      (reached_of_release hinv hmove htraffic hrequest hcommand ht)
  case failed =>
    intro row' hrow' hstatus ht
    change ∃ n, w.ledger.world.db.hold row'.senderWalletId row'.id = some ⟨n, .released⟩
    -- a commit that holds the funds leaves the row in another status
    have ht : w.Reached row'.id := by
      rcases reached_commit ht with ht | ⟨other, hsaved, hid, hheld⟩
      · exact ht
      · have heq := List.inj_on_of_nodup_map (hmove.tables hinv.tables).ids
          (hmove.saved_mem hsaved) hrow' hid
        rw [heq, hstatus] at hheld
        cases hheld
    rcases hmove.row_cases hrow' with hmem | ⟨-, hnew, -⟩ | ⟨row, hrow, -, hstep⟩
    · exact h.failed row' hmem hstatus ht
    · rw [hnew.status_eq.1] at hstatus
      cases hstatus
    · have hid := hstep.evolves.id_eq
      rw [hstep.evolves.senderWalletId_eq, hid]
      rw [hid] at ht
      have hjust := hstep.justified hinv.tables hrow (by rw [hstatus]; rfl)
      rw [hstatus] at hjust
      rcases hjust with hmay | ⟨-, hanswered⟩
      · obtain ⟨other, hother, hotherid, hothermay, -⟩ := h.held row.id ht
        rw [List.inj_on_of_nodup_map hinv.ids hother hrow hotherid, hmay] at hothermay
        cases hothermay
      · exact h.hold_released hinv hloses hanswered ht

end Commit

/-- A request changes nothing, and a release finds the hold of its transfer. -/
lemma Agrees.send {command : Ledger.Command} (h : Agrees w) (hinv : Inv setting w)
    (hsend : Sendable w command) : Agrees (w.send command) := by
  refine ⟨h.held, fun request hrequest t dto hcommand ht => ?_, h.failed⟩
  rcases List.mem_append.mp hrequest with hrequest | hrequest
  · exact h.released request hrequest t dto hcommand ht
  · obtain rfl := List.mem_singleton.mp hrequest
    obtain ⟨row, hrow, rfl, hwallet, -⟩ := hsend.release_cases hcommand
    obtain ⟨other, hother, hid, -, hold, hhold⟩ := h.held row.id ht
    rw [List.inj_on_of_nodup_map hinv.ids hother hrow hid] at hhold
    rw [← hwallet, hhold]
    exact Option.some_ne_none hold

lemma Agrees.ledger (h : Agrees w) (hinv : Inv setting w) (hchange : LedgerChange setting w w') :
    Agrees w' := by
  have hholds : ∀ {walletId holdId hold}, w.ledger.world.db.hold walletId holdId = some hold → _ :=
    fun hhold => hchange.hold hinv hhold
  have hdb : w'.db = w.db := by cases hchange <;> rfl
  have hsent : w'.sent = w.sent := by cases hchange <;> rfl
  have hreached : ∀ t, w'.Reached t ↔ w.Reached t := fun t => by cases hchange <;> exact Iff.rfl
  constructor
  case held =>
    intro t ht
    obtain ⟨row, hrow, hid, hmay, hold, hhold⟩ := h.held t ((hreached t).mp ht)
    obtain ⟨hold', hhold', -⟩ := hholds hhold
    exact ⟨row, hdb ▸ hrow, hid, hmay, hold', hhold'⟩
  case released =>
    rw [hsent]
    exact fun request hrequest t dto hcommand ht =>
      h.released request hrequest t dto hcommand ((hreached t).mp ht)
  case failed =>
    rw [hdb]
    intro row hrow hstatus ht
    obtain ⟨n, hhold⟩ := h.failed row hrow hstatus ((hreached _).mp ht)
    obtain ⟨hold', hhold', -, hsame⟩ := hholds hhold
    exact ⟨n, by rw [hhold', hsame fun heq => nomatch heq]⟩

/-- The agreement in every reachable state. -/
lemma reaches_agrees {users : List Ledger.User} {s : System}
    (hloses : ∀ t dto, ¬ setting.loses (.releaseTransferHold t dto) .alreadySettled)
    (hs : Reaches (payments setting) (Sys.init (.initial users)) s) : Agrees s.world := by
  have hinit : Agrees (World.initial users) :=
    ⟨(fun _ ⟨_, h, _⟩ => nomatch h), (fun _ h => nomatch h), fun _ h => nomatch h⟩
  have htraffic : Traffic (World.initial users) :=
    reaches_traffic (show Reaches (payments setting) (Sys.init (.initial users)) _ from .refl)
  refine (reaches_invariant (P := fun w => Traffic w ∧ Agrees w) (reaches_ok .refl)
    ⟨htraffic, hinit⟩ (fun w c job hinv hw _ _ hmove _ => ⟨?_, ?_⟩)
    (fun w command hinv hw hsend => ⟨hw.1.send hsend, hw.2.send hinv hsend⟩)
    (fun w i command draw _ hw _ _ _ => ⟨?_, ?_⟩)
    (fun w w' hinv hw hledger => ⟨hw.1.ledger hledger, hw.2.ledger hinv hledger⟩) hs).2
  · exact hw.1.of_same rfl rfl (hmove.extends hinv.tables) fun _ => Reached.commit
  · exact hw.2.commit hinv hmove hw.1 hloses
  · exact hw.1.of_same rfl rfl (.refl _) fun _ h => h
  · exact ⟨hw.2.held, hw.2.released, hw.2.failed⟩

/-! ### Agreement -/

/-- A completed transfer has its receipt. -/
lemma reaches_completed {users : List Ledger.User} {s : System}
    (hs : Reaches (payments setting) (Sys.init (.initial users)) s) :
    ∀ row ∈ s.world.db.transfers, row.status = .completed → s.world.HasReceipt row.id := by
  refine reaches_invariant (P := fun w : World => ∀ row ∈ w.db.transfers, row.status = .completed →
    w.HasReceipt row.id) (reaches_ok .refl) (fun _ h => nomatch h)
    (fun w c job hinv hw _ _ hmove _ row' hrow' hstatus => ?_) (fun _ _ _ hw _ => hw)
    (fun _ _ _ _ _ hw _ _ _ => hw) (fun w w' _ hw hledger row hrow hstatus => ?_) hs
  · change w.HasReceipt row'.id
    rcases hmove.row_cases hrow' with hmem | ⟨-, hnew, -⟩ | ⟨row, hrow, -, hstep⟩
    · exact hw row' hmem hstatus
    · rw [hnew.status_eq.1] at hstatus
      cases hstatus
    · rw [hstep.evolves.id_eq]
      have hjust := hstep.justified hinv.tables hrow (by rw [hstatus]; rfl)
      rwa [hstatus] at hjust
  · have hdb : w'.db = w.db := by cases hledger <;> rfl
    exact hledger.hasReceipt (hw row (hdb ▸ hrow) hstatus)

/-- A transfer that failed has no receipt. -/
lemma Agrees.no_receipt (h : Agrees w) (htraffic : Traffic w) (hok : TablesOk w.db) {row : Transfer}
    (hrow : row ∈ w.db.transfers) (hstatus : row.status = .failed) : ¬ w.HasReceipt row.id := by
  rintro ⟨receipt, hmem, hid⟩
  obtain ⟨⟨request, hrequest, dto, hcommand, hmatches⟩, ⟨m, hconsumed⟩, -⟩ :=
    htraffic.receipts receipt hmem
  obtain ⟨other, hother, receiver, hotherid, -, rfl, hreached⟩ :=
    (htraffic.sent request hrequest).settle_cases hcommand
  have heq := List.inj_on_of_nodup_map hok.ids hother hrow (hotherid.trans hid)
  rw [hid] at hreached
  obtain ⟨n, hreleased⟩ := h.failed row hrow hstatus hreached
  -- the settlement has consumed the hold that was released
  have hwallet : receipt.senderWalletId = row.senderWalletId := by
    rw [← heq]
    exact hmatches.1
  rw [hid, hwallet, hreleased] at hconsumed
  cases hconsumed

/-- A failed transfer stays failed. -/
lemma reaches_failed {s s' : System} (hok : s.Ok (payments setting) (paymentsProtocol setting))
    (hs : Reaches (payments setting) s s') {row : Transfer} (hrow : row ∈ s.world.db.transfers)
    (hstatus : row.status = .failed) :
    ∃ row' ∈ s'.world.db.transfers, row'.id = row.id ∧ row'.status = .failed := by
  obtain ⟨row', hrow', hevolves⟩ := (reaches_extends hok hs).rows row hrow
  refine ⟨row', hrow', hevolves.id_eq, ?_⟩
  refine hevolves.status.closed (S := fun status => status = .failed) (fun a b ha hb => ?_) hstatus
  rw [ha] at hb
  cases hb

/-- In every run in which no response `already_settled` loses its body: a completed transfer has a
receipt, and a failed one has none, now and in every later state. -/
theorem saga_agrees_with_ledger (setting : Setting) (users : List Ledger.User) {s : System}
    (hs : Reaches (payments setting.keepingOutcomes) (Sys.init (.initial users)) s) :
    ∀ row ∈ s.world.db.transfers,
      (row.status = .completed → s.world.HasReceipt row.id) ∧
      (row.status = .failed → ∀ s', Reaches (payments setting.keepingOutcomes) s s' →
        ¬ s'.world.HasReceipt row.id) := by
  have hloses : ∀ t dto,
      ¬ setting.keepingOutcomes.loses (.releaseTransferHold t dto) .alreadySettled :=
    fun t dto h => h.2 t dto rfl rfl
  intro row hrow
  refine ⟨reaches_completed hs row hrow, fun hstatus s' hs' => ?_⟩
  obtain ⟨row', hrow', hid, hstatus'⟩ := reaches_failed (reaches_ok hs) hs' hrow hstatus
  have hreach := hs.trans hs'
  rw [← hid]
  exact (reaches_agrees hloses hreach).no_receipt (reaches_traffic hreach)
    (reaches_ok hreach).inv.tables hrow' hstatus'

/-- The scripts in which no response `already_settled` loses its body. -/
def keepingRun : Script scripted.keepingOutcomes where
  draw := scriptedDraw
  ledgerDraw j := Ledger.drawFor (ledgerName j)
  test _ _ := true
  ledgerTest _ _ := true
  serves _ := true
  owners _ := true
  loses _ _ := false
  draw_ok := scripted_draws
  uuid_ok _ _ := trivial
  test_ok _ _ _ := trivial
  serves_ok _ _ := trivial
  ledgerTest_ok _ _ _ := trivial
  owners_ok _ _ := ⟨trivial, fun _ => trivial⟩
  loses_ok _ _ h := nomatch h

/-- The settlement of `t` takes effect, but all its responses are late, and the transfer is
compensated; the ledger's answer `already_settled` completes it. -/
theorem saga_agrees_with_ledger_t : ∃ s,
    Reaches (payments scripted.keepingOutcomes) (Sys.init (.initial Ledger.annAndBob)) s ∧
      ∃ row ∈ s.world.db.transfers, row.status = .completed ∧ s.world.HasReceipt row.id := by
  obtain ⟨s, hs, hp⟩ := keepingRun.exists_reaches Ledger.annAndBob (opening ++ compensating false)
    (fun s => s.world.db.transfers.any fun row => row.status = .completed) (by decide +kernel)
  obtain ⟨row, hrow, hstatus⟩ := List.any_eq_true.mp hp
  have hstatus := of_decide_eq_true hstatus
  exact ⟨s, hs, row, hrow, hstatus, (saga_agrees_with_ledger scripted _ hs row hrow).1 hstatus⟩

/-- The same run with the body of the last response lost: the transfer has failed, and it has its
receipt. -/
theorem failed_after_settlement : ∃ s,
    Reaches (payments scripted) (Sys.init (.initial Ledger.annAndBob)) s ∧
      ∃ row ∈ s.world.db.transfers, row.status = .failed ∧ s.world.HasReceipt row.id := by
  obtain ⟨s, hs, hp⟩ := scriptedRun.exists_reaches Ledger.annAndBob (opening ++ compensating true)
    (fun s => s.world.db.transfers.any fun row => row.status = .failed ∧
      s.world.ledger.world.db.settlements.any fun receipt => receipt.transferId = row.id)
    (by decide +kernel)
  obtain ⟨row, hrow, hstatus⟩ := List.any_eq_true.mp hp
  obtain ⟨hstatus, hreceipt⟩ := of_decide_eq_true hstatus
  obtain ⟨receipt, hmem, hid⟩ := List.any_eq_true.mp hreceipt
  exact ⟨s, hs, row, hrow, hstatus, receipt, hmem, of_decide_eq_true hid⟩

end Payments

end PeerLedger
