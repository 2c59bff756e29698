import PeerLedger.Ledger.Serializability

/-!
# Settlements

Settling a transfer happens at most once and excludes releasing its hold.  `TransferEvents` is the
invariant behind it: the events that carry the id of a transfer as their ledger transaction are
none while there is no receipt, and the debit and the credit of the receipt once there is one.
-/

namespace PeerLedger

namespace Ledger

open Transactions WalletAggregate

/-- The event belongs to the ledger transaction of the transfer. -/
def carries (transferId : String) (e : StoredEvent) : Bool := e.transactionId = some transferId

/-- The events of a wallet that belong to the ledger transaction of the transfer, by type. -/
def carried (db : Database) (walletId eventType transferId : String) : List StoredEvent :=
  (db.stream walletId).filter fun e => e.eventType = eventType && carries transferId e

/-- The debit and the credit of a receipt. -/
structure PaidBy (receipt : LedgerTransferSettlement) (debit credit : StoredEvent) : Prop where
  debit_stream : debit.streamId = receipt.senderWalletId
  debit_type : debit.eventType = HOLD_CONSUMED
  debit_carries : debit.transactionId = some receipt.transferId
  debit_hold : holdEvent debit = some (receipt.transferId, .consumed)
  debit_posting : ownPostings receipt.senderWalletId debit = [-receipt.amountMinor]
  credit_stream : credit.streamId = receipt.receiverWalletId
  credit_type : credit.eventType = MONEY_DEPOSITED
  credit_carries : credit.transactionId = some receipt.transferId
  credit_posting : ownPostings receipt.receiverWalletId credit = [receipt.destinationAmountMinor]
  distinct : receipt.senderWalletId ≠ receipt.receiverWalletId

/-- The events of a transfer. -/
inductive TransferEvents (db : Database) (transferId : String) : Prop
  | unsettled : (∀ row ∈ db.settlements, row.transferId ≠ transferId) →
      db.events.filter (carries transferId) = [] → TransferEvents db transferId
  | settled {receipt debit credit} : receipt ∈ db.settlements → receipt.transferId = transferId →
      PaidBy receipt debit credit → db.events.filter (carries transferId) = [debit, credit] →
      TransferEvents db transferId

/-! ### The invariant -/

section Invariant

variable {db : Database} {transferId : String}

/-- The debit and the credit of a settlement. -/
lemma Settles.paidBy {dto : SettleInternalTransferDto} {receipt : LedgerTransferSettlement}
    {sender receiver : Wallet} {s s' r r' : WalletAggregate} {debit credit : StoredEvent}
    (h : Settles db transferId dto receipt sender receiver s s' r r' debit credit) :
    PaidBy receipt debit credit := by
  obtain ⟨_, _, -, rfl, hdebit⟩ := h.debit_makes
  obtain ⟨_, _, -, rfl, hcredit⟩ := h.credit_makes
  constructor
  case debit_stream => exact h.sender_id
  case debit_type => rfl
  case debit_carries => exact congrArg some h.transfer.symm
  case debit_hold => exact h.transfer ▸ hdebit.holdEvent_eq
  case debit_posting => exact h.sender_id ▸ ownPostings_change _ _ _ _
  case credit_stream => exact h.receiver_id
  case credit_type => rfl
  case credit_carries => exact congrArg some h.transfer.symm
  case credit_posting => exact h.receiver_id ▸ ownPostings_change _ _ _ _
  case distinct => exact h.sender_id ▸ h.receiver_id ▸ h.distinct

/-- Writes that have nothing to do with the transfer. -/
lemma TransferEvents.frame {ws : List Write} (h : TransferEvents db transferId)
    (hevents : ∀ e ∈ insertedEvents ws, carries transferId e = false)
    (hreceipts : ∀ row ∈ insertedSettlements ws, row.transferId ≠ transferId) :
    TransferEvents (view db ws) transferId := by
  have hfilter : (view db ws).events.filter (carries transferId) =
      db.events.filter (carries transferId) := by
    have hnew : (insertedEvents ws).filter (carries transferId) = [] :=
      List.filter_eq_nil_iff.mpr fun e he => by simp [hevents e he]
    rw [events_view, List.filter_append, hnew, List.append_nil]
  cases h with
  | unsettled hnone hnil =>
    refine .unsettled (fun row hrow => ?_) (hfilter.trans hnil)
    rw [settlements_view] at hrow
    exact (List.mem_append.mp hrow).elim (hnone row) (hreceipts row)
  | settled hmem ht hpaid hpair =>
    refine .settled ?_ ht hpaid (hfilter.trans hpair)
    rw [settlements_view]
    exact List.mem_append_left _ hmem

/-- Every commit keeps the events of a transfer in order, provided that no ledger transaction of its
owner's commands takes the id of the transfer. -/
lemma Effect.transferEvents {draw : Nat → Draw} {startDb : Database} {command : Command}
    {ws : List Write} (h : Effect draw startDb db command ws)
    (hdraw : (draw 0).transactionId ≠ transferId) (hevents : TransferEvents db transferId) :
    TransferEvents (view db ws) transferId := by
  cases h with
  | noop _ => exact hevents
  | @created _ wallet eventId now carrier =>
    refine hevents.frame (fun e he => ?_) fun row hrow => nomatch hrow
    obtain rfl := List.mem_singleton.mp (show e ∈ [_] from he)
    rfl
  | @recorded _ wallet a a' event now carrier hdecides hrecorded =>
    obtain ⟨change, hmade, rfl, rfl, -⟩ := hdecides.makes hrecorded
    refine hevents.frame (fun e he => ?_) fun row hrow => nomatch hrow
    obtain rfl := List.mem_singleton.mp (show e ∈ [_] from he)
    rw [carries, Change.nextEvent_transactionId]
    cases hmade <;> simp [Change.transactionId, hdraw]
  | @settled transferId' dto receipt sender receiver s s' r r' debit credit carrier hsettles =>
    have hpaid := hsettles.paidBy
    have hins : insertedEvents (settlementWrites sender receiver debit credit s' r' carrier
        receipt) = [debit, credit] := rfl
    have hreceipt : insertedSettlements (settlementWrites sender receiver debit credit s' r' carrier
        receipt) = [receipt] := rfl
    by_cases ht : transferId' = transferId
    · subst ht
      cases hevents with
      | settled hmem ht => exact absurd ht (hsettles.unsettled _ hmem)
      | unsettled _ hnil =>
        refine .settled ?_ hsettles.transfer hpaid ?_
        · rw [settlements_view, hreceipt]
          exact List.mem_append_right _ (List.mem_singleton_self _)
        · rw [events_view, List.filter_append, hnil, hins]
          simp [carries, hpaid.debit_carries, hpaid.credit_carries, hsettles.transfer]
    · refine hevents.frame (fun e he => ?_) fun row hrow => ?_
      · rw [hins] at he
        have hcarries : e.transactionId = some receipt.transferId := by
          rcases List.mem_pair.mp he with rfl | rfl
          · exact hpaid.debit_carries
          · exact hpaid.credit_carries
        simp [carries, hcarries, hsettles.transfer, ht]
      · rw [hreceipt] at hrow
        rw [List.mem_singleton.mp hrow, hsettles.transfer]
        exact ht

/-- The events of a wallet by type, among the events of a transfer. -/
lemma carried_eq (walletId eventType : String) :
    carried db walletId eventType transferId = (db.events.filter (carries transferId)).filter
      fun e => e.streamId = walletId && e.eventType = eventType := by
  simp only [carried, Database.stream, List.filter_filter]
  refine List.filter_congr fun e _ => ?_
  cases carries transferId e <;> simp [Bool.and_comm]

/-- The debit is the only event that consumes for the transfer. -/
lemma PaidBy.carried_debit {receipt : LedgerTransferSettlement} {debit credit : StoredEvent}
    (h : PaidBy receipt debit credit)
    (hpair : db.events.filter (carries transferId) = [debit, credit]) (walletId : String) :
    carried db walletId HOLD_CONSUMED transferId =
      if receipt.senderWalletId = walletId then [debit] else [] := by
  rw [carried_eq, hpair]
  have hne : MONEY_DEPOSITED ≠ HOLD_CONSUMED := by decide
  by_cases hid : receipt.senderWalletId = walletId <;>
    simp [h.debit_stream, h.debit_type, h.credit_type, hne, hid]

/-- The credit is the only event that deposits for the transfer. -/
lemma PaidBy.carried_credit {receipt : LedgerTransferSettlement} {debit credit : StoredEvent}
    (h : PaidBy receipt debit credit)
    (hpair : db.events.filter (carries transferId) = [debit, credit]) (walletId : String) :
    carried db walletId MONEY_DEPOSITED transferId =
      if receipt.receiverWalletId = walletId then [credit] else [] := by
  rw [carried_eq, hpair]
  have hne : HOLD_CONSUMED ≠ MONEY_DEPOSITED := by decide
  by_cases hid : receipt.receiverWalletId = walletId <;>
    simp [h.debit_type, h.credit_stream, h.credit_type, hne, hid]

/-- The events of a hold release it or consume it, not both. -/
lemma Consistent.released_or_consumed (h : Consistent db) {walletId holdId : String}
    {e : StoredEvent} (he : e ∈ db.stream walletId) (hreleased : holdEvent e = some (holdId, .released)) :
    ∀ e' ∈ db.stream walletId, holdEvent e' ≠ some (holdId, .consumed) := by
  intro e' he' hconsumed
  have hmem : ∀ {e : StoredEvent} {action : HoldAction}, e ∈ db.stream walletId →
      holdEvent e = some (holdId, action) →
      action ∈ HoldState.actions (db.hold walletId holdId) := by
    intro e action he hevent
    rw [h.hold_actions]
    refine List.mem_map.mpr ⟨(holdId, action), List.mem_filter.mpr ⟨?_, by simp⟩, rfl⟩
    exact List.mem_filterMap.mpr ⟨e, he, hevent⟩
  have h₁ := hmem he hreleased
  have h₂ := hmem he' hconsumed
  rcases hd : db.hold walletId holdId with _ | ⟨n, _ | _ | _⟩ <;> rw [hd] at h₁ h₂ <;>
    simp [HoldState.actions] at h₁ h₂

end Invariant

/-! ### Runs -/

/-- What holds of the settlement of one transfer in the state `s`, and from there on. -/
structure SettledOnce (setting : Setting) (s : LedgerSys) (transferId : String) : Prop where
  /-- There is at most one receipt. -/
  single : (s.world.db.settlements.filter fun row => row.transferId = transferId).length ≤ 1
  /-- There is a receipt exactly when a hold was consumed and an amount deposited for the transfer,
  each once. -/
  receipt_iff : (∃ receipt ∈ s.world.db.settlements, receipt.transferId = transferId) ↔
    ∃ sender receiver debit credit,
      carried s.world.db sender HOLD_CONSUMED transferId = [debit] ∧
      carried s.world.db receiver MONEY_DEPOSITED transferId = [credit]
  /-- These events are in the streams of the receipt's wallets and post its amounts. -/
  postings : ∀ receipt ∈ s.world.db.settlements, receipt.transferId = transferId →
    ∃ debit credit, carried s.world.db receipt.senderWalletId HOLD_CONSUMED transferId = [debit] ∧
      ownPostings receipt.senderWalletId debit = [-receipt.amountMinor] ∧
      carried s.world.db receipt.receiverWalletId MONEY_DEPOSITED transferId = [credit] ∧
      ownPostings receipt.receiverWalletId credit = [receipt.destinationAmountMinor]
  /-- A stream in which the hold was released has no event that consumes it. -/
  excludes : ∀ walletId e, e ∈ s.world.db.stream walletId →
    holdEvent e = some (transferId, .released) →
    carried s.world.db walletId HOLD_CONSUMED transferId = [] ∧
      ∀ e' ∈ s.world.db.stream walletId, holdEvent e' ≠ some (transferId, .consumed)
  /-- Once there is a receipt, settlements append nothing. -/
  appends_nothing : ∀ receipt ∈ s.world.db.settlements, receipt.transferId = transferId →
    ∀ s', Reaches (ledger setting) s s' →
      s'.world.db.events.filter (carries transferId) =
        s.world.db.events.filter (carries transferId) ∧
      ∀ c ∈ s'.world.log.drop s.world.log.length, ∀ job dto, s'.world.jobs c.thread = some job →
        job.command = .settleTransfer transferId dto → c.writes = []
  /-- A settlement that is started then never commits; it returns only when it equals the receipt,
  and throws only when it does not or the database fails. -/
  answers : ∀ receipt ∈ s.world.db.settlements, receipt.transferId = transferId →
    ∀ s', Reaches (ledger setting) s s' → ∀ i job dto, s.world.jobs i = none →
      s'.world.jobs i = some job → job.command = .settleTransfer transferId dto →
      ∀ r, s'.threads i = .run (.done r) → ¬ s'.world.Committed i ∧
        ((∃ reply, r = .ok reply) → dto.Matches receipt) ∧
        ∀ e, r = .error e → dto.Matches receipt → setting.fails e
  /-- When it equals the receipt, it can always run to its end and then returns both wallets. -/
  returns : ∀ receipt ∈ s.world.db.settlements, receipt.transferId = transferId →
    ∀ i (dto : SettleInternalTransferDto) (draw : Nat → Draw), s.threads i = .idle →
      s.world.jobs i = none → dto.Matches receipt → (∀ n, setting.uuid (draw n).transactionId) →
      ∃ s' sender receiver, Reaches (ledger setting) s s' ∧ s'.world.db = s.world.db ∧
        s'.threads i = .run (.done (.ok (.settled sender receiver)))

section Runs

variable {setting : Setting} {users : List User} {s s' : LedgerSys} {transferId : String}
variable {receipt : LedgerTransferSettlement}

/-- The events of a transfer are in order in every reachable state. -/
lemma reaches_transferEvents (huuid : ¬ setting.uuid transferId)
    (hs : Reaches (ledger setting) (Sys.init (.initial users)) s) :
    TransferEvents s.world.db transferId := by
  refine reaches_invariant (P := fun w => TransferEvents w.db transferId) (reaches_ok .refl)
    (.unsettled (fun _ h => nomatch h) rfl) ?_ (fun _ _ _ _ _ hw _ _ => hw) hs
  intro w c job hinv hw _ hjob _ _ heffect _
  refine heffect.transferEvents (fun h => huuid ?_) hw
  exact h ▸ (hinv.2.2 c.thread job hjob).2.2 0

/-- A settled transfer has its two events. -/
lemma TransferEvents.paid {db : Database} (h : TransferEvents db transferId) (hc : Consistent db)
    (hmem : receipt ∈ db.settlements) (ht : receipt.transferId = transferId) :
    ∃ debit credit, PaidBy receipt debit credit ∧
      db.events.filter (carries transferId) = [debit, credit] := by
  cases h with
  | unsettled hnone => exact absurd ht (hnone receipt hmem)
  | settled hmem' ht' hpaid hpair =>
    obtain rfl := hc.receipt_unique hmem hmem' (ht.trans ht'.symm)
    exact ⟨_, _, hpaid, hpair⟩

/-- The commands that settle a transfer with a receipt write nothing. -/
lemma Effect.writes_nil {draw : Nat → Draw} {startDb db : Database}
    {dto : SettleInternalTransferDto} {ws : List Write}
    (h : Effect draw startDb db (.settleTransfer transferId dto) ws)
    (hmem : receipt ∈ db.settlements) (ht : receipt.transferId = transferId) : ws = [] := by
  generalize hcommand : Command.settleTransfer transferId dto = command at h
  cases h with
  | noop _ => rfl
  | created hcreates =>
    subst hcommand
    cases hcreates
  | recorded hdecides hrecorded =>
    obtain ⟨change, hmade, -⟩ := hdecides.makes hrecorded
    subst hcommand
    cases hmade with
    | held hplaces => cases hplaces
    | released hreleases => cases hreleases
  | settled hsettles =>
    cases hcommand
    exact absurd ht (hsettles.unsettled receipt hmem)

/-- Once there is a receipt, the commits of settlements of the transfer write nothing. -/
lemma reaches_settle_writes (hok : s.Ok (ledger setting) (ledgerProtocol setting))
    (hmem : receipt ∈ s.world.db.settlements) (ht : receipt.transferId = transferId)
    (hs : Reaches (ledger setting) s s') :
    ∀ c ∈ s'.world.log.drop s.world.log.length, ∀ job dto, s'.world.jobs c.thread = some job →
      job.command = .settleTransfer transferId dto → c.writes = [] := by
  have hrun := reaches_invariant (P := fun w => receipt ∈ w.db.settlements ∧
    ∃ more, w.log = s.world.log ++ more ∧ ∀ c ∈ more, ∀ job dto, w.jobs c.thread = some job →
      job.command = .settleTransfer transferId dto → c.writes = []) hok
    ⟨hmem, [], by simp⟩ ?_ ?_ hs
  · obtain ⟨-, more, hmore, hwrites⟩ := hrun
    rw [hmore, List.drop_left]
    exact hwrites
  · rintro w c job hinv ⟨hw, more, hmore, hwrites⟩ - hjob - - heffect -
    refine ⟨(Database.Grows.of_writes w.db c.writes).mem_settlements hw, more ++ [c], ?_, ?_⟩
    · change w.log ++ [c] = _
      rw [hmore, List.append_assoc]
    · intro c' hc' job' dto hjob' hcommand
      rcases List.mem_append.mp hc' with hc' | hc'
      · exact hwrites c' hc' job' dto hjob' hcommand
      · obtain rfl := List.mem_singleton.mp hc'
        obtain rfl : job' = job := Option.some.inj (hjob'.symm.trans hjob)
        exact (hcommand ▸ heffect).writes_nil hw ht
  · rintro w i command draw hinv ⟨hw, more, hmore, hwrites⟩ hnone -
    refine ⟨hw, more, hmore, fun c hc job dto hjob => hwrites c hc job dto ?_⟩
    exact (jobs_start hinv hnone (by rw [hmore]; exact List.mem_append_right _ hc)).symm.trans hjob

/-- A command that is started after the settlement starts with the receipt. -/
lemma reaches_startDb (hok : s.Ok (ledger setting) (ledgerProtocol setting))
    (hmem : receipt ∈ s.world.db.settlements) (hs : Reaches (ledger setting) s s') {i : Nat} {job : Job}
    (hnone : s.world.jobs i = none) (hjob : s'.world.jobs i = some job) :
    receipt ∈ job.startDb.settlements := by
  have hrun := reaches_invariant (P := fun w => receipt ∈ w.db.settlements ∧
    ∀ job, w.jobs i = some job → receipt ∈ job.startDb.settlements) hok
    ⟨hmem, fun job hjob => by cases hnone.symm.trans hjob⟩ ?_ ?_ hs
  · exact hrun.2 job hjob
  · rintro w c - - ⟨hw, hjobs⟩ - - - - - -
    exact ⟨(Database.Grows.of_writes w.db c.writes).mem_settlements hw, hjobs⟩
  · rintro w j command draw - ⟨hw, hjobs⟩ - -
    refine ⟨hw, fun job hjob => ?_⟩
    change Function.update w.jobs j _ i = _ at hjob
    by_cases hij : i = j
    · subst hij
      rw [Function.update_self] at hjob
      exact Option.some.inj hjob ▸ hw
    · rw [Function.update_of_ne hij] at hjob
      exact hjobs job hjob

/-- The receipt of a transfer is found. -/
lemma Consistent.settlementOf_eq {db : Database} (h : Consistent db)
    (hmem : receipt ∈ db.settlements) (ht : receipt.transferId = transferId) :
    db.settlementOf transferId = some receipt := by
  cases hfound : db.settlementOf transferId with
  | none => exact absurd ht (by simpa using List.find?_eq_none.mp hfound receipt hmem)
  | some row =>
    have hrow : row.transferId = transferId := by simpa using List.find?_some hfound
    rw [h.receipt_unique (List.mem_of_find?_eq_some hfound) hmem (hrow.trans ht.symm)]

/-- A settlement that equals the receipt reads the receipt and the wallets, and returns. -/
lemma reads_settleTransfer {db : Database} {dto : SettleInternalTransferDto} (draw : Nat → Draw)
    (h : Consistent db) (hmem : receipt ∈ db.settlements) (ht : receipt.transferId = transferId)
    (hmatches : dto.Matches receipt) :
    ∃ sender receiver, (Ledger.settleTransfer transferId dto draw).reads db 5 =
      .done (.ok (.settled sender receiver)) := by
  obtain ⟨hsender, hreceiver⟩ := h.receiptWallets receipt hmem
  obtain ⟨sp, hsp⟩ := h.projectionOf_some hsender
  obtain ⟨rp, hrp⟩ := h.projectionOf_some hreceiver
  obtain ⟨s, hs⟩ := walletById_some hsender
  obtain ⟨r, hr⟩ := walletById_some hreceiver
  have hfound := h.settlementOf_eq hmem ht
  have hn := hmatches.2.2.1
  have hd := hmatches.2.2.2.2.1
  have hcheck := (SettleInternalTransferDto.matches_iff hn hd).mpr hmatches
  have hprogram : Ledger.settleTransfer transferId dto draw =
      settleTransferLoop transferId dto receipt.amountMinor receipt.destinationAmountMinor
        (dto.targetCurrency.getD dto.currency) draw 1 (24 + 1) := by
    simp only [Ledger.settleTransfer, hn, hd]
    rfl
  refine ⟨toView s sp, toView r rp, ?_⟩
  rw [hprogram, settleTransferLoop]
  simp [readSettlementWallets, readOrThrow, Prog.read, Prog.bind, Prog.attempt, Prog.reads,
    Except.map, hfound, hcheck, hs, hr, hsp, hrp]

/-- A settlement that equals the receipt can be started and run to its end. -/
lemma reaches_settled (hok : s.Ok (ledger setting) (ledgerProtocol setting))
    (hmem : receipt ∈ s.world.db.settlements) (ht : receipt.transferId = transferId) {i : Nat}
    {dto : SettleInternalTransferDto} {draw : Nat → Draw} (hidle : s.threads i = .idle)
    (hnone : s.world.jobs i = none) (hmatches : dto.Matches receipt)
    (huuid : ∀ n, setting.uuid (draw n).transactionId) :
    ∃ s' sender receiver, Reaches (ledger setting) s s' ∧ s'.world.db = s.world.db ∧
      s'.threads i = .run (.done (.ok (.settled sender receiver))) := by
  obtain ⟨sender, receiver, hreads⟩ := reads_settleTransfer draw hok.inv.1 hmem ht hmatches
  have hstart : Step (ledger setting) s _ := .start hidle
    ⟨hnone, .settleTransfer transferId dto, draw, huuid, rfl, rfl⟩
  have hrun := reaches_reads (ledger setting) (s := s) (i := i) 5
    (Ledger.settleTransfer transferId dto draw)
    (s.world.start i (.settleTransfer transferId dto) draw)
  refine ⟨_, sender, receiver, .head hstart hrun, rfl, ?_⟩
  rw [Sys.set_threads_self]
  exact congrArg Thread.run hreads

end Runs

/-- Settlement happens once and excludes release, whatever is called in whatever order. -/
theorem transfer_settles_once (setting : Setting) (users : List User) (s : LedgerSys)
    (transferId : String) (huuid : ¬ setting.uuid transferId)
    (hs : Reaches (ledger setting) (Sys.init (.initial users)) s) :
    SettledOnce setting s transferId := by
  have hok := reaches_ok hs
  have hc : Consistent s.world.db := hok.inv.1
  have hevents := reaches_transferEvents huuid hs
  refine ⟨?single, ?receipt_iff, ?postings, ?excludes, ?appends_nothing, ?answers, ?returns⟩
  case single =>
    by_cases h : ∃ row ∈ s.world.db.settlements, row.transferId = transferId
    · obtain ⟨row, hrow, rfl⟩ := h
      rw [filter_key_eq_singleton hc.receipts hrow]
      exact le_rfl
    · rw [List.filter_eq_nil_iff.mpr fun row hrow ht => h ⟨row, hrow, by simpa using ht⟩]
      exact Nat.zero_le 1
  case receipt_iff =>
    constructor
    · rintro ⟨receipt, hmem, ht⟩
      obtain ⟨debit, credit, hpaid, hpair⟩ := hevents.paid hc hmem ht
      exact ⟨receipt.senderWalletId, receipt.receiverWalletId, debit, credit,
        (hpaid.carried_debit hpair _).trans (if_pos rfl),
        (hpaid.carried_credit hpair _).trans (if_pos rfl)⟩
    · rintro ⟨sender, receiver, debit, credit, hdebit, -⟩
      cases hevents with
      | settled hmem ht => exact ⟨_, hmem, ht⟩
      | unsettled _ hnil =>
        rw [carried_eq, hnil] at hdebit
        cases hdebit
  case postings =>
    intro receipt hmem ht
    obtain ⟨debit, credit, hpaid, hpair⟩ := hevents.paid hc hmem ht
    exact ⟨debit, credit, (hpaid.carried_debit hpair _).trans (if_pos rfl), hpaid.debit_posting,
      (hpaid.carried_credit hpair _).trans (if_pos rfl), hpaid.credit_posting⟩
  case excludes =>
    intro walletId e he hreleased
    have hnone := hc.released_or_consumed he hreleased
    refine ⟨?_, hnone⟩
    cases hevents with
    | unsettled _ hnil => rw [carried_eq, hnil, List.filter_nil]
    | @settled receipt debit credit hmem ht hpaid hpair =>
      rw [hpaid.carried_debit hpair]
      split_ifs with hid
      · -- the debit would consume what was released
        refine absurd (ht ▸ hpaid.debit_hold) (hnone debit (List.mem_filter.mpr ⟨?_, ?_⟩))
        · exact (List.mem_filter.mp (hpair ▸ List.mem_cons_self : debit ∈
            s.world.db.events.filter (carries transferId))).1
        · simp [hpaid.debit_stream, hid]
      · rfl
  case appends_nothing =>
    intro receipt hmem ht s' hs'
    refine ⟨?_, reaches_settle_writes hok hmem ht hs'⟩
    have hok' := reaches_ok (hs.trans hs')
    have hgrows := reaches_grows hok hs'
    obtain ⟨more, hmore, -⟩ := hgrows.events
    obtain ⟨debit, credit, -, hpair⟩ := hevents.paid hc hmem ht
    obtain ⟨debit', credit', -, hpair'⟩ := (reaches_transferEvents huuid (hs.trans hs')).paid
      hok'.inv.1 (hgrows.mem_settlements hmem) ht
    rw [hmore, List.filter_append, hpair] at hpair' ⊢
    -- two events before, two after
    have hlength := congrArg List.length hpair'
    simp only [List.length_append, List.length_cons, List.length_nil] at hlength
    rw [List.eq_nil_of_length_eq_zero (by omega : (more.filter (carries transferId)).length = 0),
      List.append_nil]
  case answers =>
    intro receipt hmem ht s' hs' i job dto hnone hjob hcommand r hthread
    have hok' := reaches_ok (hs.trans hs')
    have houtcome := hok'.post hthread job hjob
    have hstart := reaches_startDb hok hmem hs' hnone hjob
    obtain ⟨hcom, herr⟩ := houtcome.settled transferId dto hcommand receipt hstart ht
    refine ⟨hcom, fun ⟨reply, hreply⟩ => ?_, herr⟩
    have hanswers := houtcome.ok reply hreply
    simp only [Answers, hcommand] at hanswers
    obtain ⟨-, receipt', hmem', ht', hmatches⟩ := hanswers
    have hsame := hok'.inv.1.receipt_unique ((reaches_grows hok hs').mem_settlements hmem) hmem'
      (ht.trans ht'.symm)
    exact hsame ▸ hmatches
  case returns =>
    intro receipt hmem ht i dto draw hidle hnone hmatches hdraw
    exact reaches_settled hok hmem ht hidle hnone hmatches hdraw

/-- Ann and Bob. -/
def annAndBob : List User := [⟨"ann", "ann@example.com"⟩, ⟨"bob", "bob@example.com"⟩]

/-- Both open a wallet, and Ann's has funds under a hold of the transfer `t`. -/
def heldRequests : List Request :=
  [(.getOrCreateForUser "ann" "USD", drawFor "ann"),
    (.getOrCreateForUser "bob" "USD", drawFor "bob"),
    (.deposit "ann-wallet" "ann" 10, drawFor "pay-in"),
    (.placeTransferHold "t" ⟨"ann", "ann-wallet", 4⟩, drawFor "hold")]

/-- The settlement of the transfer. -/
def settleT : Command :=
  .settleTransfer "t" ⟨"ann", "ann-wallet", "bob-wallet", 4, "USD", none, none⟩

/-- No ledger transaction of an owner takes the id of the transfer. -/
def freshLedger : Setting := openLedger fun transactionId => transactionId ≠ "t"

/-- The transfer is settled, then released and settled again. -/
def settledRequests : List Request :=
  heldRequests ++ [(settleT, drawFor "settle"),
    (.releaseTransferHold "t" ⟨"ann", "ann-wallet"⟩, drawFor "release"),
    (settleT, drawFor "again")]

theorem transfer_settles_once_t :
    (servedBy freshLedger annAndBob settledRequests).world.db.settlements =
      [⟨"t", "ann-wallet", "bob-wallet", 400, "USD", 400, "USD"⟩] ∧
    SettledOnce freshLedger (servedBy freshLedger annAndBob settledRequests) "t" := by
  have huuid : ∀ request ∈ settledRequests, ∀ n, freshLedger.uuid (request.2 n).transactionId := by
    simp [settledRequests, heldRequests, drawFor, freshLedger, openLedger]
  exact ⟨by decide +kernel, transfer_settles_once freshLedger annAndBob _ "t" (fun h => h rfl)
    (reaches_servedBy huuid fun _ _ _ _ _ _ _ => trivial)⟩

end Ledger

end PeerLedger
