import PeerLedger.Payments.OrphanedHolds

/-!
# Transfers that never end

The owner of a wallet can consume any of its holds, also the hold of a transfer.  A settlement then
finds no active hold, and a release is refused because the hold is consumed.  The transfer is
compensated again and again, and is neither completed nor failed in any later state
(`consumed_hold_strands_transfer`).
-/

namespace PeerLedger

namespace Payments

open Transactions

variable {setting : Setting} {users : List Ledger.User} {w w' : World} {row row' : Transfer}

/-- The transfer has not ended, its hold was consumed without a receipt, and no release was sent
before the hold was placed. -/
structure Stranded (w : World) (row : Transfer) : Prop where
  mem : row ∈ w.db.transfers
  unfinished : row.status.isTerminal = false
  holdMayExist : row.holdMayExist = true
  consumed : ∃ n, w.ledger.world.db.hold row.senderWalletId row.id = some ⟨n, .consumed⟩
  unsettled : ¬ w.HasReceipt row.id
  released : ∀ request ∈ w.sent,
    request.command.isTransferRelease row.senderWalletId row.id = true →
      request.ledgerDb.hold row.senderWalletId row.id ≠ none

namespace Stranded

/-- The command of a release of the transfer. -/
lemma isTransferRelease (row : Transfer) :
    (releaseCommand row).isTransferRelease row.senderWalletId row.id = true := by
  simp [releaseCommand, Ledger.Command.isTransferRelease]

/-- The ledger has not answered a release of the transfer. -/
lemma not_answered (h : Stranded w row) (hinv : Inv setting w) :
    ¬ w.ReleaseAnswered setting row := by
  rintro ⟨n, request, i, job, reply, hsent, hcommand, horigin, hjob, hanswers, -⟩
  obtain ⟨job', request', hjob', hsent', hsame, hgrows⟩ := hinv.origin i n horigin
  obtain rfl := Option.some.inj (hjob.symm.trans hjob')
  obtain rfl := Option.some.inj (hsent.symm.trans hsent')
  have hmem := List.mem_of_getElem? hsent
  unfold Ledger.Answers at hanswers
  rw [hsame, hcommand] at hanswers
  rcases hanswers with ⟨-, hreceipt⟩ | ⟨-, -, ⟨m, hreleased⟩ | hnone⟩
  · exact h.unsettled hreceipt
  · obtain ⟨k, hconsumed⟩ := h.consumed
    rw [hreleased] at hconsumed
    exact absurd hconsumed (by simp)
  · -- the hold existed when the release was sent, and so when it was executed
    have hstart := (hinv.ledger.inv.2.2 i job hjob).1
    have hbefore := (hinv.sent request hmem).1.hold_none hstart hgrows hnone
    exact h.released request hmem (hcommand ▸ isTransferRelease row) hbefore

/-- Nothing justifies the end of the transfer. -/
lemma not_justified (h : Stranded w row) (hinv : Inv setting w) {status : TransferStatus}
    (hended : status.isTerminal = true) : ¬ Justified setting w row status := by
  intro hjust
  cases status with
  | completed => exact h.unsettled hjust
  | failed =>
    rcases hjust with hmay | ⟨-, hanswered⟩
    · rw [h.holdMayExist] at hmay
      exact absurd hmay (by simp)
    · exact h.not_answered hinv hanswered
  | _ => exact absurd hended (by decide)

/-- A later version of the row in a world with the same ledger and the same requests. -/
lemma evolves (h : Stranded w row) (hledger : w'.ledger = w.ledger) (hsent : w'.sent = w.sent)
    (hmem : row' ∈ w'.db.transfers) (hevolves : row.Evolves row')
    (hunfinished : row'.status.isTerminal = false) : Stranded w' row' where
  mem := hmem
  unfinished := hunfinished
  holdMayExist := hevolves.holdMayExist h.holdMayExist
  consumed := by
    rw [hevolves.senderWalletId_eq, hevolves.id_eq, hledger]
    exact h.consumed
  unsettled := by
    rw [hevolves.id_eq, World.HasReceipt, hledger]
    exact h.unsettled
  released := by
    rw [hevolves.senderWalletId_eq, hevolves.id_eq, hsent]
    exact h.released

/-- No commit of the payments service ends the transfer. -/
lemma commit {c : PaymentsCommit} {job : Job} (h : Stranded w row) (hinv : Inv setting w)
    (hmove : Move setting w job c.body c.writes) :
    ∃ row', Stranded ((payments setting).commit w c) row' ∧ row'.id = row.id := by
  obtain ⟨row', hrow', hevolves⟩ := hmove.rows h.mem hinv.ids
  refine ⟨row', h.evolves rfl rfl hrow' hevolves ?_, hevolves.id_eq⟩
  rcases hmove.row_cases hrow' with hmem | ⟨-, -, hfresh⟩ | ⟨old, hold, -, hstep⟩
  · have heq := List.inj_on_of_nodup_map hinv.ids hmem h.mem hevolves.id_eq
    exact heq ▸ h.unfinished
  · exact absurd hevolves.id_eq.symm (hfresh.id row h.mem)
  · have hid : old.id = row.id := hstep.evolves.id_eq.symm.trans hevolves.id_eq
    obtain rfl := List.inj_on_of_nodup_map hinv.ids hold h.mem hid
    by_contra hended
    have hended : row'.status.isTerminal = true := by simpa using hended
    exact h.not_justified hinv hended (hstep.justified hinv.tables hold hended)

/-- A release that is sent now finds the consumed hold. -/
lemma send (h : Stranded w row) (command : Ledger.Command) : Stranded (w.send command) row where
  mem := h.mem
  unfinished := h.unfinished
  holdMayExist := h.holdMayExist
  consumed := h.consumed
  unsettled := h.unsettled
  released := by
    intro request hrequest hrelease
    rcases List.mem_append.mp hrequest with hrequest | hrequest
    · exact h.released request hrequest hrelease
    · obtain rfl := List.mem_singleton.mp hrequest
      obtain ⟨n, hconsumed⟩ := h.consumed
      rw [hconsumed]
      exact Option.some_ne_none _

/-- The ledger does not settle the transfer any more. -/
lemma not_settled (h : Stranded w row) (hinv : Inv setting w) (htraffic : Traffic w)
    (hchange : LedgerChange setting w w') : ¬ w'.HasReceipt row.id := by
  rintro ⟨receipt, hmem, hid⟩
  cases hchange with
  | @same l hworld =>
    change receipt ∈ l.world.db.settlements at hmem
    rw [hworld] at hmem
    exact h.unsettled ⟨receipt, hmem, hid⟩
  | @commit l c job _ hjob _ heffect hworld =>
    change receipt ∈ l.world.db.settlements at hmem
    rw [hworld] at hmem
    rcases heffect.receipt_cases hmem with hmem | ⟨dto, hcommand, hmatches, hactive, -, -⟩
    · exact h.unsettled ⟨receipt, hmem, hid⟩
    · -- the settlement was sent for this transfer, whose hold is not active
      rcases htraffic.jobs _ job hjob with hpublic | ⟨request, hrequest, heq⟩
      · rw [hcommand] at hpublic
        exact absurd hpublic (by simp [isPublic])
      · obtain ⟨sent, hrow, receiver, hsentid, -, rfl, -⟩ :=
          (htraffic.sent request hrequest).settle_cases (heq.symm.trans hcommand)
        have hrow := List.inj_on_of_nodup_map hinv.ids hrow h.mem (hsentid.trans hid)
        have hwallet : receipt.senderWalletId = row.senderWalletId := by
          rw [← hrow]
          exact hmatches.1
        obtain ⟨n, hconsumed⟩ := h.consumed
        rw [hwallet, hid, hconsumed] at hactive
        exact absurd hactive (by simp)
  | owner => exact h.unsettled ⟨receipt, hmem, hid⟩
  | deliver => exact h.unsettled ⟨receipt, hmem, hid⟩

/-- No step of the ledger changes that. -/
lemma ledger (h : Stranded w row) (hinv : Inv setting w) (htraffic : Traffic w)
    (hchange : LedgerChange setting w w') : Stranded w' row := by
  have hunsettled := h.not_settled hinv htraffic hchange
  obtain ⟨n, hconsumed⟩ := h.consumed
  obtain ⟨hold, hhold, -, hsame⟩ := hchange.hold hinv hconsumed
  have hstill : hold = ⟨n, .consumed⟩ := hsame (by simp)
  rw [hstill] at hhold
  have hdb : w'.db = w.db := by cases hchange <;> rfl
  have hsent : w'.sent = w.sent := by cases hchange <;> rfl
  exact ⟨hdb ▸ h.mem, h.unfinished, h.holdMayExist, ⟨n, hhold⟩, hunsettled, hsent ▸ h.released⟩

end Stranded

/-- Once the hold of a transfer that has not ended is consumed other than by its settlement, and no
release was sent before the hold was placed, the transfer ends in no later state of any run: it is
neither completed nor failed, and it has no receipt. -/
theorem consumed_hold_strands_transfer (setting : Setting) (users : List Ledger.User) {s : System}
    (hs : Reaches (payments setting) (Sys.init (.initial users)) s) {row : Transfer}
    (h : Stranded s.world row) {s' : System} (hs' : Reaches (payments setting) s s') :
    ∃ row', Stranded s'.world row' ∧ row'.id = row.id := by
  have hinit : ∃ row', Stranded s.world row' ∧ row'.id = row.id := ⟨row, h, rfl⟩
  refine (reaches_invariant (P := fun w => Traffic w ∧ ∃ row', Stranded w row' ∧ row'.id = row.id)
    (reaches_ok hs) ⟨reaches_traffic hs, hinit⟩ ?_ ?_ ?_ ?_ hs').2
  · rintro w c job hinv ⟨htraffic, row', hrow', hid⟩ _ _ hmove _
    obtain ⟨row'', hrow'', hid'⟩ := hrow'.commit hinv hmove
    exact ⟨htraffic.of_same rfl rfl (hmove.extends hinv.tables) (fun _ => Reached.commit), row'',
      hrow'', hid'.trans hid⟩
  · rintro w command hinv ⟨htraffic, row', hrow', hid⟩ hsend
    exact ⟨htraffic.send hsend, row', hrow'.send command, hid⟩
  · rintro w i command draw hinv ⟨htraffic, row', hrow', hid⟩ _ _ _
    exact ⟨htraffic.of_same rfl rfl (.refl _) (fun _ ht => ht), row',
      hrow'.evolves rfl rfl hrow'.mem (.refl row') hrow'.unfinished, hid⟩
  · rintro w w' hinv ⟨htraffic, row', hrow', hid⟩ hchange
    exact ⟨htraffic.ledger hchange, row', hrow'.ledger hinv htraffic hchange, hid⟩

/-- The hold of `t` is placed, Ann consumes it, and the settlement and the release are refused. -/
def consuming : List Action :=
  .start 1 (.run "t" 5) :: (asking 1 3 0 ++ asking 1 4 1 ++
    [.owner 5 (.consumeHold "ann-wallet" "ann" "t"),
      .breaker 1 false, .send 1, .deliver 6 2, .refuse 1 (.response 400 {}),
      .breaker 1 false, .send 1, .deliver 7 3, .refuse 1 (.response 400 {})])

/-- Ann has paid nobody, and `t` is compensated for ever. -/
theorem consumed_hold_strands_transfer_t : ∃ s,
    Reaches (payments scripted) (Sys.init (.initial Ledger.annAndBob)) s ∧
      ∃ row ∈ s.world.db.transfers, row.id = "t" ∧ row.status = .compensating ∧
        ∀ s', Reaches (payments scripted) s s' →
          ∃ row', Stranded s'.world row' ∧ row'.id = "t" := by
  obtain ⟨s, hs, hp⟩ := scriptedRun.exists_reaches Ledger.annAndBob (opening ++ consuming)
    (fun s => s.world.db.transfers.any fun row =>
      (row.id = "t" ∧ row.status = .compensating ∧ row.holdMayExist = true ∧
        s.world.ledger.world.db.hold row.senderWalletId row.id = some ⟨400, .consumed⟩) &&
      (s.world.ledger.world.db.settlements.all fun receipt => receipt.transferId ≠ row.id) &&
      s.world.sent.all fun request =>
        request.command.isTransferRelease row.senderWalletId row.id = true →
          request.ledgerDb.hold row.senderWalletId row.id ≠ none) (by decide +kernel)
  obtain ⟨row, hrow, hp⟩ := List.any_eq_true.mp hp
  obtain ⟨hp, hreleased⟩ := Bool.and_eq_true_iff.mp hp
  obtain ⟨hp, hreceipts⟩ := Bool.and_eq_true_iff.mp hp
  obtain ⟨hid, hstatus, hmay, hhold⟩ := of_decide_eq_true hp
  have hstranded : Stranded s.world row := by
    refine ⟨hrow, by rw [hstatus]; rfl, hmay, ⟨400, hhold⟩, ?_, ?_⟩
    · rintro ⟨receipt, hmem, heq⟩
      exact of_decide_eq_true (List.all_eq_true.mp hreceipts receipt hmem) heq
    · intro request hrequest
      exact of_decide_eq_true (List.all_eq_true.mp hreleased request hrequest)
  refine ⟨s, hs, row, hrow, hid, hstatus, fun s' hs' => ?_⟩
  obtain ⟨row', hrow', hid'⟩ := consumed_hold_strands_transfer scripted _ hs hstranded hs'
  exact ⟨row', hrow', hid'.trans hid⟩

end Payments

end PeerLedger
