import PeerLedger.Payments.Announcements

/-!
# Requests and receipts

Everything that was sent to the ledger could still be sent as it was: the rows of the transfers move
on, but their terms stay, and so do a known receiver and the intent to hold (`Sendable.forward`).  The
ledger executes nothing but what owners ask for and what was sent, and every receipt is that of a
settlement that was sent (`Traffic`).

`settles_with_same_terms` is what this means for settlements: all that are ever sent for a transfer
are the same, and the ledger never finds that they differ from the receipt.
-/

namespace PeerLedger

namespace Payments

open Transactions

variable {setting : Setting} {w w' : World} {job : Job}

/-! ### Requests stay as they are -/

/-- A request that could be sent can still be sent when the rows have moved on. -/
lemma Sendable.forward {command : Ledger.Command} (h : Sendable w command)
    (he : w.db.Extends w'.db) (hreached : ∀ t, w.Reached t → w'.Reached t) :
    Sendable w' command := by
  cases h with
  | validate hrow =>
    obtain ⟨row', hrow', hevolves⟩ := he.rows _ hrow
    rw [← hevolves.validateCommand_eq]
    exact .validate hrow'
  | placeHold hrow hhold =>
    obtain ⟨row', hrow', hevolves⟩ := he.rows _ hrow
    rw [← hevolves.placeHoldCommand_eq]
    exact .placeHold hrow' (hevolves.holdMayExist hhold)
  | settle hrow hreceiver hr =>
    obtain ⟨row', hrow', hevolves⟩ := he.rows _ hrow
    rw [← hevolves.settleDto_eq, ← hevolves.id_eq]
    exact .settle hrow' (hevolves.receiver _ hreceiver) (hevolves.id_eq ▸ hreached _ hr)
  | release hrow hlate =>
    obtain ⟨row', hrow', hevolves⟩ := he.rows _ hrow
    rw [← hevolves.releaseCommand_eq]
    exact .release hrow' (hevolves.status.isLate hlate)

/-- The settlement of a transfer that can be sent. -/
lemma Sendable.settle_cases {command : Ledger.Command} {t : String}
    {dto : Ledger.SettleInternalTransferDto} (h : Sendable w command)
    (hcommand : command = .settleTransfer t dto) :
    ∃ row ∈ w.db.transfers, ∃ receiverWalletId, row.id = t ∧
      row.receiverWalletId = some receiverWalletId ∧ dto = settleDto row receiverWalletId ∧
      w.Reached t := by
  cases h with
  | @settle row receiverWalletId hrow hreceiver hreached =>
    obtain ⟨rfl, rfl⟩ := Ledger.Command.settleTransfer.inj hcommand
    exact ⟨row, hrow, receiverWalletId, rfl, hreceiver, rfl, hreached⟩
  | validate => cases hcommand
  | placeHold => cases hcommand
  | release => cases hcommand

/-- The release of a transfer's hold that can be sent. -/
lemma Sendable.release_cases {command : Ledger.Command} {t : String}
    {dto : Ledger.ReleaseInternalTransferDto} (h : Sendable w command)
    (hcommand : command = .releaseTransferHold t dto) :
    ∃ row ∈ w.db.transfers, row.id = t ∧ row.senderWalletId = dto.senderWalletId ∧
      row.status.isLate = true := by
  cases h with
  | @release row hrow hlate =>
    obtain ⟨rfl, rfl⟩ := Ledger.Command.releaseTransferHold.inj hcommand
    exact ⟨row, hrow, rfl, rfl, hlate⟩
  | validate => cases hcommand
  | placeHold => cases hcommand
  | settle => cases hcommand

/-- The tables after a move extend those before. -/
lemma Move.extends {body : PaymentsTx Reply} {ws : List Write} (h : Move setting w job body ws)
    (hok : TablesOk w.db) : w.db.Extends (view w.db ws) :=
  ⟨fun _ hrow => h.rows hrow hok.ids, h.bills⟩

/-- The tables only move on. -/
lemma reaches_extends {s s' : System} (hok : s.Ok (payments setting) (paymentsProtocol setting))
    (hs : Reaches (payments setting) s s') : s.world.db.Extends s'.world.db := by
  refine reaches_invariant (P := fun w => s.world.db.Extends w.db) hok (.refl _)
    (fun w c job hinv hw _ _ hmove _ => hw.trans (hmove.extends hinv.tables)) (fun _ _ _ hw _ => hw)
    (fun _ _ _ _ _ hw _ _ _ => hw) (fun w w' _ hw hledger => ?_) hs
  cases hledger <;> exact hw

/-! ### What the ledger has executed -/

/-- Everything sent could be sent now; the ledger executes what owners ask for and what was sent; and
its receipts are those of settlements that were sent, which have consumed their holds and credited the
receivers. -/
structure Traffic (w : World) : Prop where
  sent : ∀ request ∈ w.sent, Sendable w request.command
  jobs : ∀ i job, w.ledger.world.jobs i = some job →
    isPublic job.command = true ∨ ∃ request ∈ w.sent, job.command = request.command
  receipts : ∀ receipt ∈ w.ledger.world.db.settlements,
    (∃ request ∈ w.sent, ∃ dto, request.command = .settleTransfer receipt.transferId dto ∧
      dto.Matches receipt) ∧
    (∃ n, w.ledger.world.db.hold receipt.senderWalletId receipt.transferId = some ⟨n, .consumed⟩) ∧
    Ledger.Credited w.ledger.world.db receipt

/-- A world with the same requests and the same ledger. -/
lemma Traffic.of_same (h : Traffic w) (hsent : w'.sent = w.sent) (hledger : w'.ledger = w.ledger)
    (he : w.db.Extends w'.db) (hreached : ∀ t, w.Reached t → w'.Reached t) : Traffic w' := by
  constructor
  · rw [hsent]
    exact fun request hr => (h.sent request hr).forward he hreached
  · rw [hsent, hledger]
    exact h.jobs
  · rw [hsent, hledger]
    exact h.receipts

lemma Traffic.send {command : Ledger.Command} (h : Traffic w) (hsend : Sendable w command) :
    Traffic (w.send command) := by
  have hforward : ∀ {c}, Sendable w c → Sendable (w.send command) c :=
    fun hc => hc.forward (.refl _) fun _ hr => hr
  constructor
  · intro request hr
    rcases List.mem_append.mp hr with hr | hr
    · exact hforward (h.sent request hr)
    · obtain rfl := List.mem_singleton.mp hr
      exact hforward hsend
  · intro i job hjob
    rcases h.jobs i job hjob with hpublic | ⟨request, hr, heq⟩
    · exact .inl hpublic
    · exact .inr ⟨request, List.mem_append_left _ hr, heq⟩
  · intro receipt hmem
    obtain ⟨⟨request, hr, hrest⟩, hhold⟩ := h.receipts receipt hmem
    exact ⟨⟨request, List.mem_append_left _ hr, hrest⟩, hhold⟩

/-- The command of a thread of the ledger after it, or another one, has started. -/
lemma startLedger_jobs {l : Ledger.LedgerSys} {i j : Nat} {command : Ledger.Command}
    {draw : Nat → Ledger.Draw} {job : Ledger.Job}
    (hjob : (startLedger l i command draw).world.jobs j = some job) :
    job.command = command ∨ l.world.jobs j = some job := by
  change Function.update l.world.jobs i _ j = _ at hjob
  by_cases hji : j = i
  · subst hji
    rw [Function.update_self] at hjob
    exact .inl (Option.some.inj hjob ▸ rfl)
  · rw [Function.update_of_ne hji] at hjob
    exact .inr hjob

/-- Steps of the ledger leave the tables of the payments service alone. -/
lemma LedgerChange.extends (h : LedgerChange setting w w') : w.db.Extends w'.db := by
  cases h <;> exact .refl _

lemma LedgerChange.reached (h : LedgerChange setting w w') {t : String} (ht : w.Reached t) :
    w'.Reached t := by
  cases h <;> exact ht

lemma Traffic.ledger (h : Traffic w) (hchange : LedgerChange setting w w') : Traffic w' := by
  have hsent : ∀ request ∈ w.sent, Sendable w' request.command := fun request hr =>
    (h.sent request hr).forward hchange.extends fun _ => hchange.reached
  cases hchange with
  | @same l hworld =>
    refine ⟨hsent, ?_, ?_⟩
    · change ∀ i job, l.world.jobs i = some job → _
      rw [hworld]
      exact h.jobs
    · change ∀ receipt ∈ l.world.db.settlements, _ ∧ (∃ n, l.world.db.hold _ _ = _) ∧
        Ledger.Credited l.world.db receipt
      rw [hworld]
      exact h.receipts
  | @commit l c job _ hjob _ heffect hworld =>
    refine ⟨hsent, ?_, ?_⟩
    · change ∀ i job, l.world.jobs i = some job → _
      rw [hworld]
      exact h.jobs
    · change ∀ receipt ∈ l.world.db.settlements, _ ∧ (∃ n, l.world.db.hold _ _ = _) ∧
        Ledger.Credited l.world.db receipt
      rw [hworld]
      intro receipt hmem
      rcases heffect.receipt_cases hmem with hmem | ⟨dto, hcommand, hmatches, -, hhold, hcredited⟩
      · obtain ⟨hsettle, ⟨n, hhold⟩, hcredited⟩ := h.receipts receipt hmem
        exact ⟨hsettle, ⟨n, heffect.hold_consumed hhold⟩, hcredited.grows (.of_writes _ _)⟩
      · refine ⟨?_, ⟨_, hhold⟩, hcredited⟩
        rcases h.jobs _ job hjob with hpublic | ⟨request, hr, heq⟩
        · rw [hcommand] at hpublic
          cases hpublic
        · exact ⟨request, hr, dto, heq.symm.trans hcommand, hmatches⟩
  | owner hpublic =>
    refine ⟨hsent, fun j job hjob => ?_, h.receipts⟩
    rcases startLedger_jobs hjob with heq | hold
    · exact .inl (heq ▸ hpublic)
    · exact h.jobs j job hold
  | deliver hrequest =>
    refine ⟨hsent, fun j job hjob => ?_, h.receipts⟩
    rcases startLedger_jobs hjob with heq | hold
    · exact .inr ⟨_, List.mem_of_getElem? hrequest, heq⟩
    · exact h.jobs j job hold

/-- What is known of the traffic in every reachable state. -/
lemma reaches_traffic {users : List Ledger.User} {s : System}
    (hs : Reaches (payments setting) (Sys.init (.initial users)) s) : Traffic s.world := by
  have hinit : Traffic (World.initial users) :=
    ⟨(fun _ h => nomatch h), (fun _ _ h => nomatch h), fun _ h => nomatch h⟩
  refine reaches_invariant (reaches_ok .refl) hinit (fun w c job hinv hw _ _ hmove _ => ?_)
    (fun w command _ hw hsend => hw.send hsend) (fun w i command draw _ hw _ _ _ => ?_)
    (fun w w' _ hw hledger => hw.ledger hledger) hs
  · exact hw.of_same rfl rfl (hmove.extends hinv.tables) fun _ => Reached.commit
  · exact hw.of_same rfl rfl (.refl _) fun _ h => h

/-! ### The terms of settlements -/

/-- All settlements of a transfer that were sent are the same. -/
lemma Traffic.settle_unique (h : Traffic w) (hok : TablesOk w.db) {r r' : Request} {t : String}
    {dto dto' : Ledger.SettleInternalTransferDto} (hr : r ∈ w.sent) (hr' : r' ∈ w.sent)
    (hcommand : r.command = .settleTransfer t dto) (hcommand' : r'.command = .settleTransfer t dto') :
    dto = dto' := by
  obtain ⟨row, hrow, id, hid, hreceiver, rfl, -⟩ := (h.sent r hr).settle_cases hcommand
  obtain ⟨row', hrow', id', hid', hreceiver', rfl, -⟩ := (h.sent r' hr').settle_cases hcommand'
  obtain rfl := List.inj_on_of_nodup_map hok.ids hrow hrow' (hid.trans hid'.symm)
  rw [hreceiver] at hreceiver'
  rw [Option.some.inj hreceiver']

/-- The terms of a transfer are the same in all its settlements. -/
structure SameTerms (setting : Setting) (s : System) : Prop where
  /-- A row keeps its terms, and its receiver once it is known. -/
  rows : ∀ s', Reaches (payments setting) s s' → ∀ row ∈ s.world.db.transfers,
    ∃ row' ∈ s'.world.db.transfers, row'.terms = row.terms ∧
      ∀ id, row.receiverWalletId = some id → row'.receiverWalletId = some id
  /-- All settlements of a transfer that were sent are the same. -/
  settles : ∀ r ∈ s.world.sent, ∀ r' ∈ s.world.sent, ∀ t dto dto',
    r.command = .settleTransfer t dto → r'.command = .settleTransfer t dto' → dto = dto'
  /-- They match the receipt of the transfer. -/
  accepted : ∀ r ∈ s.world.sent, ∀ t dto, r.command = .settleTransfer t dto →
    ∀ receipt ∈ s.world.ledger.world.db.settlements, receipt.transferId = t →
    ∃ n d, Ledger.toPositiveMinorUnits dto.amount = .ok n ∧
      Ledger.toPositiveMinorUnits (dto.destinationAmount.getD dto.amount) = .ok d ∧
      Ledger.assertSettlementMatches receipt dto n d (dto.targetCurrency.getD dto.currency) = .ok ()
  /-- A settlement that starts when the receipt is there throws nothing but errors of the database. -/
  repeated : ∀ i job t dto e, s.world.ledger.world.jobs i = some job →
    job.command = .settleTransfer t dto →
    (∃ receipt ∈ job.startDb.settlements, receipt.transferId = t) →
    s.world.ledger.threads i = .run (.done (.error e)) → setting.ledger.fails e

/-- In every reachable state, and for every transfer: its terms and its receiver stay, all settlements
that were ever sent for it are the same, and none of them is rejected as one with different
parameters. -/
theorem settles_with_same_terms (setting : Setting) (users : List Ledger.User) {s : System}
    (hs : Reaches (payments setting) (Sys.init (.initial users)) s) : SameTerms setting s := by
  have hok := reaches_ok hs
  have htraffic := reaches_traffic hs
  have hmatches : ∀ r ∈ s.world.sent, ∀ t dto, r.command = .settleTransfer t dto →
      ∀ receipt ∈ s.world.ledger.world.db.settlements, receipt.transferId = t →
      dto.Matches receipt := by
    rintro r hr t dto hcommand receipt hmem rfl
    obtain ⟨⟨r', hr', dto', hcommand', hmatches⟩, -⟩ := htraffic.receipts receipt hmem
    rwa [htraffic.settle_unique hok.inv.tables hr hr' hcommand hcommand']
  constructor
  case rows =>
    intro s' hs' row hrow
    obtain ⟨row', hrow', hevolves⟩ := (reaches_extends hok hs').rows row hrow
    exact ⟨row', hrow', hevolves.terms, hevolves.receiver⟩
  case settles =>
    exact fun r hr r' hr' t dto dto' => htraffic.settle_unique hok.inv.tables hr hr'
  case accepted =>
    intro r hr t dto hcommand receipt hmem ht
    have hmatch := hmatches r hr t dto hcommand receipt hmem ht
    obtain ⟨-, -, hn, -, hd, -⟩ := hmatch
    refine ⟨_, _, hn, hd, (Ledger.SettleInternalTransferDto.matches_iff hn hd).mpr ?_⟩
    exact hmatches r hr t dto hcommand receipt hmem ht
  case repeated =>
    rintro i job t dto e hjob hcommand ⟨receipt, hmem, ht⟩ hi
    have hledger := hok.inv.ledger
    have houtcome := hledger.post hi job hjob
    obtain ⟨-, herror⟩ := houtcome.settled t dto hcommand receipt hmem ht
    refine herror e rfl ?_
    rcases htraffic.jobs i job hjob with hpublic | ⟨r, hr, heq⟩
    · rw [hcommand] at hpublic
      cases hpublic
    · have hgrows := (hledger.inv.2.2 i job hjob).2.1
      exact hmatches r hr t dto (heq.symm.trans hcommand) receipt (hgrows.mem_settlements hmem) ht

/-- The transfer `t` is settled, and its settlement was sent with the terms of its row. -/
theorem settles_with_same_terms_t : ∃ s,
    Reaches (payments scripted) (Sys.init (.initial Ledger.annAndBob)) s ∧
      (s.world.sent.any fun r => transferOf r.command = some "t") = true ∧ SameTerms scripted s := by
  obtain ⟨s, hs, hsent⟩ := scriptedRun.exists_reaches Ledger.annAndBob (opening ++ settling)
    (fun s => s.world.sent.any fun r => transferOf r.command = some "t") (by decide +kernel)
  exact ⟨s, hs, hsent, settles_with_same_terms scripted _ hs⟩

end Payments

end PeerLedger
