import PeerLedger.Ledger.Settlements

/-!
# Holds of transfers

A hold that `placeTransferHold` placed should be consumed exactly when its transfer was settled.
The public `consumeHold` of the sender breaks this: it consumes any active hold of the wallet, those
of transfers included, and nobody is credited (`transfer_hold_consumed_unpaid`).  As long as owners
leave the active holds of transfers alone, the law holds in every reachable state
(`transfer_hold_consumed_iff`).
-/

namespace PeerLedger

namespace Ledger

open Transactions WalletAggregate

/-- The command asks for the hold of the transfer in the wallet. -/
def Command.isTransferHold (walletId transferId : String) : Command → Bool
  | .placeTransferHold transferId' dto => transferId' = transferId ∧ dto.senderWalletId = walletId
  | _ => false

/-- The hold of the transfer in the wallet was placed by a `placeTransferHold`. -/
def LedgerWorld.placedByTransfer (w : LedgerWorld) (walletId transferId : String) : Bool :=
  w.log.any fun c => !c.writes.isEmpty &&
    (w.jobs c.thread).any fun job => job.command.isTransferHold walletId transferId

/-- The credit of a receipt is in the receiver's stream. -/
def Credited (db : Database) (receipt : LedgerTransferSettlement) : Prop :=
  ∃ e ∈ db.stream receipt.receiverWalletId, e.eventType = MONEY_DEPOSITED ∧
    e.transactionId = some receipt.transferId ∧
    ownPostings receipt.receiverWalletId e = [receipt.destinationAmountMinor]

/-- The transfer has a receipt, and the receiver was credited. -/
def PaidOut (db : Database) (transferId : String) : Prop :=
  ∃ receipt ∈ db.settlements, receipt.transferId = transferId ∧ Credited db receipt

/-- A commit that leaves the holds of transfers to the transfers: the transfer commands of a transfer
name the wallet of its sender, and an owner does not consume an active hold that
`placeTransferHold` placed. -/
def LeavesTransfers (sender : String → String) (w : LedgerWorld) (c : LedgerCommit) : Prop :=
  ∀ job, w.jobs c.thread = some job → match job.command with
    | .placeTransferHold transferId dto => dto.senderWalletId = sender transferId
    | .settleTransfer transferId dto => dto.senderWalletId = sender transferId
    | .consumeHold walletId _ holdId => w.placedByTransfer walletId holdId = true →
        ∀ n, w.db.hold walletId holdId ≠ some ⟨n, .active⟩
    | _ => True

/-- The ledger with owners that leave the holds of transfers alone. -/
def Setting.leavingTransfers (setting : Setting) (sender : String → String) : Setting :=
  { setting with admits := fun w c => setting.admits w c ∧ LeavesTransfers sender w c }

/-- The holds and receipts of transfers belong together. -/
structure HoldsPaired (sender : String → String) (w : LedgerWorld) : Prop where
  receipts : ∀ receipt ∈ w.db.settlements,
    receipt.senderWalletId = sender receipt.transferId ∧
    (∃ n, w.db.hold receipt.senderWalletId receipt.transferId = some ⟨n, .consumed⟩) ∧
    Credited w.db receipt
  placed : ∀ walletId transferId, w.placedByTransfer walletId transferId = true →
    walletId = sender transferId ∧ ∃ hold, w.db.hold walletId transferId = some hold ∧
      (hold.status = .consumed → ∃ receipt ∈ w.db.settlements, receipt.transferId = transferId)

/-! ### The invariant -/

section Invariant

variable {sender : String → String} {w : LedgerWorld} {c : LedgerCommit} {job : Job}

lemma Credited.grows {db db' : Database} {locked : List Lock} {receipt : LedgerTransferSettlement}
    (h : Credited db receipt) (hg : db.Grows locked db') : Credited db' receipt := by
  obtain ⟨e, he, hrest⟩ := h
  exact ⟨e, (hg.stream _).subset he, hrest⟩

/-- The commits that place a transfer's hold. -/
lemma placedByTransfer_commit {walletId transferId : String} (hjob : w.jobs c.thread = some job)
    (h : (w.commit c).placedByTransfer walletId transferId = true) :
    w.placedByTransfer walletId transferId = true ∨
      (c.writes ≠ [] ∧ job.command.isTransferHold walletId transferId = true) := by
  simp only [LedgerWorld.placedByTransfer, LedgerWorld.commit, List.any_append, List.any_cons,
    List.any_nil, Bool.or_false, Bool.or_eq_true, hjob] at h
  refine h.imp_right fun h => ?_
  simpa using h

/-- Starting a command places nothing. -/
lemma placedByTransfer_start {setting : Setting} {i : Nat} {command : Command} {draw : Nat → Draw}
    (hinv : (ledgerProtocol setting).inv w) (hnone : w.jobs i = none) (walletId transferId : String) :
    (w.start i command draw).placedByTransfer walletId transferId =
      w.placedByTransfer walletId transferId := by
  rw [Bool.eq_iff_iff, LedgerWorld.placedByTransfer, LedgerWorld.placedByTransfer, List.any_eq_true,
    List.any_eq_true]
  refine exists_congr fun c => and_congr_right fun hc => ?_
  rw [jobs_start hinv hnone hc]

/-- A receipt is old, or it is that of the settlement that commits. -/
lemma Effect.receipt_cases {draw : Nat → Draw} {startDb db : Database} {command : Command}
    {ws : List Write} {receipt : LedgerTransferSettlement} (h : Effect draw startDb db command ws)
    (hmem : receipt ∈ (view db ws).settlements) :
    receipt ∈ db.settlements ∨
    ∃ dto, command = .settleTransfer receipt.transferId dto ∧ dto.Matches receipt ∧
      db.hold receipt.senderWalletId receipt.transferId = some ⟨receipt.amountMinor, .active⟩ ∧
      (view db ws).hold receipt.senderWalletId receipt.transferId =
        some ⟨receipt.amountMinor, .consumed⟩ ∧
      Credited (view db ws) receipt := by
  rw [settlements_view] at hmem
  rcases List.mem_append.mp hmem with hmem | hmem
  · exact .inl hmem
  cases h with
  | noop _ => cases hmem
  | created => cases hmem
  | recorded => cases hmem
  | @settled transferId dto row sender receiver s s' r r' debit credit carrier hsettles =>
    obtain rfl : receipt = row := List.mem_singleton.mp hmem
    have hpaid := hsettles.paidBy
    obtain rfl := hsettles.transfer
    have hid := hsettles.sender_id
    refine .inr ⟨dto, rfl, hsettles.dto_matches, hid ▸ hsettles.hold_before, ?_, ?_⟩
    · exact (hsettles.hold_after carrier _ _).trans (if_pos ⟨hid.symm, rfl⟩)
    · refine ⟨credit, ?_, hpaid.credit_type, hpaid.credit_carries, hpaid.credit_posting⟩
      refine List.mem_filter.mpr ⟨?_, by simp [hpaid.credit_stream]⟩
      rw [events_view]
      exact List.mem_append_right _ (by simp [settlementWrites, insertedEvents])

/-- A hold that is consumed stays so. -/
lemma Effect.hold_consumed {draw : Nat → Draw} {startDb db : Database} {command : Command}
    {ws : List Write} {walletId holdId : String} {n : Int} (h : Effect draw startDb db command ws)
    (hhold : db.hold walletId holdId = some ⟨n, .consumed⟩) :
    (view db ws).hold walletId holdId = some ⟨n, .consumed⟩ := by
  cases h.holdStep walletId holdId with
  | same heq => exact heq.trans hhold
  | placed _ _ hbefore => cases hhold.symm.trans hbefore
  | released _ hbefore => cases hhold.symm.trans hbefore
  | consumed hbefore => cases hhold.symm.trans hbefore
  | settled _ _ _ hbefore => cases hhold.symm.trans hbefore

/-- A new hold of a transfer. -/
lemma Effect.transferHold_placed {draw : Nat → Draw} {startDb db : Database} {transferId : String}
    {dto : HoldInternalTransferDto} {ws : List Write}
    (h : Effect draw startDb db (.placeTransferHold transferId dto) ws) (hws : ws ≠ []) :
    ∃ n, (view db ws).hold dto.senderWalletId transferId = some ⟨n, .active⟩ := by
  generalize hcommand : Command.placeTransferHold transferId dto = command at h
  cases h with
  | noop _ => exact absurd rfl hws
  | created hcreates =>
    subst hcommand
    cases hcreates
  | @recorded _ wallet a a' event now carrier hdecides hrecorded =>
    obtain ⟨change, hmade, rfl, rfl, hmakes⟩ := hdecides.makes hrecorded
    have hafter := hmakes.hold_cases carrier dto.senderWalletId transferId
    subst hcommand
    generalize hcommand : Command.placeTransferHold transferId dto = command at hmade
    cases hmade with
    | held hplaces =>
      subst hcommand
      obtain ⟨hwallet, hid, -⟩ := hplaces.unique .placeTransferHold
      exact ⟨_, hafter.trans (if_pos ⟨hwallet.symm, hid.symm⟩)⟩
    | released hreleases =>
      subst hcommand
      cases hreleases
    | _ => cases hcommand
  | settled => cases hcommand

/-- Every commit that leaves the holds of transfers alone keeps holds and receipts together. -/
lemma HoldsPaired.commit (h : HoldsPaired sender w) (hjob : w.jobs c.thread = some job)
    (heffect : Effect job.draw job.startDb w.db job.command c.writes)
    (hleaves : LeavesTransfers sender w c) : HoldsPaired sender (w.commit c) := by
  have hgrows := Database.Grows.of_writes w.db c.writes
  have hleaves := hleaves job hjob
  constructor
  case receipts =>
    intro receipt hmem
    rcases heffect.receipt_cases hmem with hmem | ⟨dto, hcommand, hmatches, -, hafter, hcredited⟩
    · obtain ⟨hsender, ⟨n, hhold⟩, hcredited⟩ := h.receipts receipt hmem
      exact ⟨hsender, ⟨n, heffect.hold_consumed hhold⟩, hcredited.grows hgrows⟩
    · rw [hcommand] at hleaves
      exact ⟨hmatches.1.trans hleaves, ⟨_, hafter⟩, hcredited⟩
  case placed =>
    intro walletId transferId hplaced
    rcases placedByTransfer_commit hjob hplaced with hplaced | ⟨hwrites, hcommand⟩
    · obtain ⟨hsender, hold, hhold, hpaid⟩ := h.placed walletId transferId hplaced
      refine ⟨hsender, ?_⟩
      generalize hcommand : job.command = command at heffect hleaves
      cases heffect.holdStep walletId transferId with
      | same heq =>
        refine ⟨hold, heq.trans hhold, fun hstatus => ?_⟩
        obtain ⟨receipt, hmem, ht⟩ := hpaid hstatus
        exact ⟨receipt, hgrows.mem_settlements hmem, ht⟩
      | placed _ _ hbefore => cases hhold.symm.trans hbefore
      | released _ _ hafter => exact ⟨_, hafter, fun hstatus => nomatch hstatus⟩
      | consumed hbefore => exact absurd hbefore (hleaves hplaced _)
      | @settled dto receipt hsettlements ht _ _ hafter =>
        refine ⟨_, hafter, fun _ => ⟨receipt, ?_, ht⟩⟩
        change receipt ∈ (view w.db c.writes).settlements
        rw [hsettlements]
        exact List.mem_append_right _ (List.mem_singleton_self _)
    · generalize hcom : job.command = command at heffect hleaves hcommand
      cases command with
      | placeTransferHold transferId' dto =>
        obtain ⟨rfl, rfl⟩ : transferId' = transferId ∧ dto.senderWalletId = walletId := by
          simpa [Command.isTransferHold] using hcommand
        obtain ⟨n, hafter⟩ := heffect.transferHold_placed hwrites
        exact ⟨hleaves, _, hafter, fun hstatus => nomatch hstatus⟩
      | _ => cases hcommand

end Invariant

/-- When owners leave the active holds of transfers alone: in every reachable state a hold that
`placeTransferHold` placed is consumed exactly when the transfer has a receipt and the receiver's
stream the deposit that belongs to it. -/
theorem transfer_hold_consumed_iff (setting : Setting) (sender : String → String)
    (users : List User) (s : LedgerSys)
    (hs : Reaches (ledger (setting.leavingTransfers sender)) (Sys.init (.initial users)) s)
    (walletId transferId : String) (hplaced : s.world.placedByTransfer walletId transferId = true) :
    (∃ n, s.world.db.hold walletId transferId = some ⟨n, .consumed⟩) ↔
      PaidOut s.world.db transferId := by
  have hpaired : HoldsPaired sender s.world := by
    refine reaches_invariant (P := HoldsPaired sender) (reaches_ok .refl)
      ⟨(fun _ h => nomatch h), (fun _ _ h => nomatch h)⟩ ?_ ?_ hs
    · intro w c job _ hw hadm hjob _ _ heffect _
      exact hw.commit hjob heffect hadm.2
    · intro w i command draw hinv hw hnone _
      exact ⟨hw.receipts, fun walletId transferId hplaced => hw.placed walletId transferId
        (placedByTransfer_start hinv hnone walletId transferId ▸ hplaced)⟩
  obtain ⟨hwallet, hold, hhold, hpaid⟩ := hpaired.placed walletId transferId hplaced
  constructor
  · rintro ⟨n, hconsumed⟩
    obtain rfl := Option.some.inj (hhold.symm.trans hconsumed)
    obtain ⟨receipt, hmem, ht⟩ := hpaid rfl
    exact ⟨receipt, hmem, ht, (hpaired.receipts receipt hmem).2.2⟩
  · rintro ⟨receipt, hmem, rfl, -⟩
    obtain ⟨hsender, hconsumed, -⟩ := hpaired.receipts receipt hmem
    rwa [hwallet, ← hsender]

/-- The owner consumes the hold of the transfer. -/
def consumedRequests : List Request :=
  heldRequests ++ [(.consumeHold "ann-wallet" "ann" "t", drawFor "consume")]

/-- The owner of a wallet can consume the hold of a transfer: the sender is debited, there is no
receipt, and the receiver gets nothing. -/
theorem transfer_hold_consumed_unpaid :
    ¬ ∀ (setting : Setting) (users : List User) (s : LedgerSys),
      Reaches (ledger setting) (Sys.init (.initial users)) s → ∀ walletId transferId,
      s.world.placedByTransfer walletId transferId = true →
      ((∃ n, s.world.db.hold walletId transferId = some ⟨n, .consumed⟩) ↔
        PaidOut s.world.db transferId) := by
  intro h
  have hreach : Reaches (ledger freshLedger) (Sys.init (.initial annAndBob))
      (servedBy freshLedger annAndBob consumedRequests) := by
    refine reaches_servedBy ?_ fun _ _ _ _ _ _ _ => trivial
    simp [consumedRequests, heldRequests, drawFor, freshLedger, openLedger]
  have hnone : (servedBy freshLedger annAndBob consumedRequests).world.db.settlements = [] := by
    decide +kernel
  obtain ⟨receipt, hmem, -⟩ := (h freshLedger annAndBob _ hreach "ann-wallet" "t"
    (by decide +kernel)).mp ⟨400, by decide +kernel⟩
  rw [hnone] at hmem
  cases hmem

theorem transfer_hold_consumed_iff_t :
    (∃ n, (servedBy (freshLedger.leavingTransfers fun _ => "ann-wallet") annAndBob
        settledRequests).world.db.hold "ann-wallet" "t" = some ⟨n, .consumed⟩) ∧
    PaidOut (servedBy (freshLedger.leavingTransfers fun _ => "ann-wallet") annAndBob
      settledRequests).world.db "t" := by
  have hreach : Reaches (ledger (freshLedger.leavingTransfers fun _ => "ann-wallet"))
      (Sys.init (.initial annAndBob))
      (servedBy (freshLedger.leavingTransfers fun _ => "ann-wallet") annAndBob settledRequests) := by
    refine reaches_servedBy ?_ fun request hrequest w c job hjob hcommand => ⟨trivial, ?_⟩
    · simp [settledRequests, heldRequests, drawFor, freshLedger, openLedger,
        Setting.leavingTransfers]
    · intro job' hjob'
      obtain rfl : job' = job := Option.some.inj (hjob'.symm.trans hjob)
      rw [hcommand]
      simp only [settledRequests, heldRequests, List.cons_append, List.nil_append, List.mem_cons,
        List.not_mem_nil, or_false] at hrequest
      rcases hrequest with rfl | rfl | rfl | rfl | rfl | rfl | rfl <;> simp [settleT]
  have hconsumed : (servedBy (freshLedger.leavingTransfers fun _ => "ann-wallet") annAndBob
      settledRequests).world.db.hold "ann-wallet" "t" = some ⟨400, .consumed⟩ := by
    decide +kernel
  exact ⟨⟨400, hconsumed⟩, (transfer_hold_consumed_iff freshLedger (fun _ => "ann-wallet") annAndBob _
    hreach "ann-wallet" "t" (by decide +kernel)).mp ⟨400, hconsumed⟩⟩

end Ledger

end PeerLedger
