import PeerLedger.Ledger.Commands

/-!
# The statements of a settlement

A settlement appends to two streams and inserts the receipt of its transfer.  `wp_recordSettlement`
is the rule for all of its statements that write.  It is put together from a rule for the events and
their messages, after which neither stream can move, and one for the projections and the receipt.
-/

namespace PeerLedger

namespace Ledger

open Transactions WalletAggregate

variable {setting : Setting} {i : Nat} {p : List Write} {w : LedgerWorld}

/-! ### The statements -/

/-- The receipt of a settlement. -/
abbrev receiptOf (transferId : String) (dto : SettleInternalTransferDto)
    (amountMinor destinationAmountMinor : Int) (destinationCurrency : String)
    (sender receiver : Wallet) : LedgerTransferSettlement :=
  { transferId, senderWalletId := sender.id, receiverWalletId := receiver.id, amountMinor,
    currency := dto.currency, destinationAmountMinor, destinationCurrency }

/-- The statements of a settlement that write. -/
def recordSettlement (receipt : LedgerTransferSettlement) (sender receiver : Wallet)
    (s r : WalletAggregate) (debit credit : EventData) (draw : Draw) : LedgerTx Reply :=
  (appendEvent sender.id s.version debit draw.now).bind fun storedDebit =>
    (appendEvent receiver.id r.version credit draw.now).bind fun storedCredit =>
      (enqueueWalletEvents sender draw.carrier [storedDebit]).bind fun _ =>
        (enqueueWalletEvents receiver draw.carrier [storedCredit]).bind fun _ =>
          (projectApplied s storedDebit).bind fun senderProjection =>
            (projectApplied r storedCredit).bind fun receiverProjection =>
              (Tx.write (insertSettlement receipt)).bind fun _ =>
                .ret (.settled (toView sender senderProjection) (toView receiver receiverProjection))

/-- The statements of a settlement after its events and their messages. -/
def saveSettlement (receipt : LedgerTransferSettlement) (sender receiver : Wallet)
    (s r : WalletAggregate) (storedDebit storedCredit : StoredEvent) : LedgerTx Reply :=
  (projectApplied s storedDebit).bind fun senderProjection =>
    (projectApplied r storedCredit).bind fun receiverProjection =>
      (Tx.write (insertSettlement receipt)).bind fun _ =>
        .ret (.settled (toView sender senderProjection) (toView receiver receiverProjection))

section Settlement

variable (receipt : LedgerTransferSettlement) (sender receiver : Wallet)
variable (s r s' r' : WalletAggregate) (debit credit : EventData) (draw : Draw)

/-- The row of the debit. -/
abbrev debitRow : StoredEvent := nextEvent sender.id s.version debit draw.now

/-- The row of the credit. -/
abbrev creditRow : StoredEvent := nextEvent receiver.id r.version credit draw.now

/-- The events of a settlement and their messages. -/
abbrev settlementEvents : List Write :=
  [.insertEvent (debitRow sender s debit draw), .insertEvent (creditRow receiver r credit draw),
    .insertOutbox (outboxMessage (debitRow sender s debit draw) sender draw.carrier),
    .insertOutbox (outboxMessage (creditRow receiver r credit draw) receiver draw.carrier)]

/-- The events of a settlement can be appended alone on `db`. -/
structure AppendsSettlement (db : Database) : Prop where
  consistent : Consistent db
  debit_appended : AppendedEvent sender.id s.version debit draw.now db []
  gapFree_debit : GapFree (view db [Write.insertEvent (debitRow sender s debit draw)])
  credit_appended : AppendedEvent receiver.id r.version credit draw.now db
    [.insertEvent (debitRow sender s debit draw)]

/-- The projections and the receipt of a settlement can be saved alone on `db`, after the writes
`p`. -/
structure SavesSettlement (d c : StoredEvent) (p : List Write) (db : Database) : Prop where
  debit_applied : s.apply d = .ok s'
  credit_applied : r.apply c = .ok r'
  debit_saved : saveProjection (projectionFromAggregate s') (view db p) =
    .ok [.saveProjection (projectionFromAggregate s')]
  credit_saved : saveProjection (projectionFromAggregate r')
      (view db (p ++ [.saveProjection (projectionFromAggregate s')])) =
    .ok [.saveProjection (projectionFromAggregate r')]
  receipt_inserted : insertSettlement receipt
      (view db (p ++ [.saveProjection (projectionFromAggregate s')] ++
        [.saveProjection (projectionFromAggregate r')])) =
    .ok [.insertSettlement receipt]

/-- Every statement of the settlement succeeds alone on `db`. -/
structure RecordsSettlement (db : Database) : Prop extends
    AppendsSettlement sender receiver s r debit credit draw db where
  saved : SavesSettlement receipt s r s' r' (debitRow sender s debit draw)
    (creditRow receiver r credit draw)
    (settlementEvents sender receiver s r debit credit draw) db

variable {receipt sender receiver s r s' r' debit credit draw}
variable {d c : StoredEvent} {db : Database}

/-- The receiver's stream does not see the debit. -/
lemma stream_receiver (db : Database) (hne : sender.id ≠ receiver.id) :
    (view db [Write.insertEvent (debitRow sender s debit draw)]).stream receiver.id =
      db.stream receiver.id := by
  have hins : insertedEvents [Write.insertEvent (debitRow sender s debit draw)] =
    [debitRow sender s debit draw] := rfl
  have hid : (debitRow sender s debit draw).streamId = sender.id := rfl
  rw [stream_view, hins]
  simp [hid, hne]

/-- The two events of a settlement have different ids. -/
lemma AppendsSettlement.distinct (h : AppendsSettlement sender receiver s r debit credit draw db) :
    debit.eventId ≠ credit.eventId := by
  have hfree := h.credit_appended.id_free (debitRow sender s debit draw)
  rw [events_view] at hfree
  exact hfree (List.mem_append_right _ (List.mem_singleton_self _))

/-- The message of the debit has a free id. -/
lemma AppendsSettlement.debit_free (h : AppendsSettlement sender receiver s r debit credit draw db) :
    ∀ row ∈ (view db [Write.insertEvent (debitRow sender s debit draw),
      .insertEvent (creditRow receiver r credit draw)]).outbox, row.eventId ≠ debit.eventId := by
  have hnone : insertedOutbox [Write.insertEvent (debitRow sender s debit draw),
    .insertEvent (creditRow receiver r credit draw)] = [] := rfl
  rw [outbox_view, hnone, List.append_nil]
  exact h.consistent.outbox_free h.debit_appended.id_free

/-- So does the message of the credit. -/
lemma AppendsSettlement.credit_free (h : AppendsSettlement sender receiver s r debit credit draw db) :
    ∀ row ∈ (view db [Write.insertEvent (debitRow sender s debit draw),
      .insertEvent (creditRow receiver r credit draw),
      .insertOutbox (outboxMessage (debitRow sender s debit draw) sender draw.carrier)]).outbox,
      row.eventId ≠ credit.eventId := by
  intro row hrow
  rw [outbox_view] at hrow
  rcases List.mem_append.mp hrow with hrow | hrow
  · refine h.consistent.outbox_free (fun e he => h.credit_appended.id_free e ?_) row hrow
    rw [events_view]
    exact List.mem_append_left _ he
  · obtain rfl : row = outboxMessage (debitRow sender s debit draw) sender draw.carrier := by
      simpa [insertedOutbox] using hrow
    exact h.distinct

/-- Once its events can be appended, a settlement alone comes down to its projections and its
receipt. -/
lemma AppendsSettlement.alone (h : AppendsSettlement sender receiver s r debit credit draw db) :
    (recordSettlement receipt sender receiver s r debit credit draw).alone db [] =
      (saveSettlement receipt sender receiver s r (debitRow sender s debit draw)
        (creditRow receiver r credit draw)).alone db
        (settlementEvents sender receiver s r debit credit draw) := by
  refine Tx.alone_bind_ok (alone_appendEvent h.consistent.gapFree h.debit_appended) ?_
  refine Tx.alone_bind_ok (alone_appendEvent h.gapFree_debit h.credit_appended) ?_
  refine Tx.alone_bind_ok
    (alone_enqueueWalletEvents (insertOutbox_ok.mpr ⟨rfl, h.debit_free⟩)) ?_
  exact Tx.alone_bind_ok
    (alone_enqueueWalletEvents (insertOutbox_ok.mpr ⟨rfl, h.credit_free⟩)) rfl

/-- Saving a settlement alone. -/
lemma SavesSettlement.alone (h : SavesSettlement receipt s r s' r' d c p db) :
    (saveSettlement receipt sender receiver s r d c).alone db p =
      .ok (.settled (toView sender (projectionFromAggregate s'))
          (toView receiver (projectionFromAggregate r')),
        p ++ [.saveProjection (projectionFromAggregate s')] ++
          [.saveProjection (projectionFromAggregate r')] ++ [.insertSettlement receipt]) := by
  refine Tx.alone_bind_ok (alone_projectApplied h.debit_applied h.debit_saved) ?_
  refine Tx.alone_bind_ok (alone_projectApplied h.credit_applied h.credit_saved) ?_
  exact Tx.alone_bind_ok (alone_write_ok h.receipt_inserted) rfl

/-- A settlement alone. -/
lemma RecordsSettlement.alone
    (h : RecordsSettlement receipt sender receiver s r s' r' debit credit draw db) :
    (recordSettlement receipt sender receiver s r debit credit draw).alone db [] =
      .ok (.settled (toView sender (projectionFromAggregate s'))
          (toView receiver (projectionFromAggregate r')),
        settlementWrites sender receiver (debitRow sender s debit draw)
          (creditRow receiver r credit draw) s' r' draw.carrier receipt) :=
  h.toAppendsSettlement.alone.trans h.saved.alone

/-- The transfer had no receipt yet. -/
lemma RecordsSettlement.unsettled
    (h : RecordsSettlement receipt sender receiver s r s' r' debit credit draw db) :
    ∀ row ∈ db.settlements, row.transferId ≠ receipt.transferId := by
  obtain ⟨-, -, hfree, -⟩ := insertSettlement_ok.mp h.saved.receipt_inserted
  exact fun row hrow => hfree row (by rw [settlements_view]; exact List.mem_append_left _ hrow)

/-- The identity check in terms of the fields. -/
lemma assertAggregateIdentity_ok {wallet : Wallet} {a : WalletAggregate} :
    assertAggregateIdentity wallet a = .ok () ↔
      a.ownerId = some wallet.ownerId ∧ a.currency = some wallet.currency := by
  simp [assertAggregateIdentity]

/-- The debit continues the sender's stream. -/
lemma RecordsSettlement.debit_recorded
    (h : RecordsSettlement receipt sender receiver s r s' r' debit credit draw db)
    (hmem : sender ∈ db.wallets) (hs : rehydrate sender.id (db.stream sender.id) = .ok s)
    (hid : assertAggregateIdentity sender s = .ok ()) :
    Recorded db sender s (debitRow sender s debit draw) s' := by
  obtain ⟨ho, hc⟩ := assertAggregateIdentity_ok.mp hid
  have hgap : GapFree (view db ([] : List Write)) := h.consistent.gapFree
  exact ⟨hmem, hs, ho, hc, rfl,
    Appended.contiguous_append draw.now hgap h.debit_appended.expectedVersion
      h.debit_appended.aggregateType, h.saved.debit_applied⟩

/-- The credit continues the receiver's stream. -/
lemma RecordsSettlement.credit_recorded
    (h : RecordsSettlement receipt sender receiver s r s' r' debit credit draw db)
    (hne : sender.id ≠ receiver.id) (hmem : receiver ∈ db.wallets)
    (hr : rehydrate receiver.id (db.stream receiver.id) = .ok r)
    (hid : assertAggregateIdentity receiver r = .ok ()) :
    Recorded db receiver r (creditRow receiver r credit draw) r' := by
  obtain ⟨ho, hc⟩ := assertAggregateIdentity_ok.mp hid
  have hcontiguous := Appended.contiguous_append draw.now h.gapFree_debit
    h.credit_appended.expectedVersion h.credit_appended.aggregateType
  dsimp only at hcontiguous
  rw [stream_receiver db hne] at hcontiguous
  exact ⟨hmem, hr, ho, hc, rfl, hcontiguous, h.saved.credit_applied⟩

/-- The ways in which a settlement fails after its two streams were replayed, each with what it has to
establish. -/
structure SettlementErrors (setting : Setting) (i : Nat) (w : LedgerWorld)
    (receipt : LedgerTransferSettlement) (sender receiver : Wallet) (s : WalletAggregate)
    (debit credit : EventData) (draw : Draw) (senderHistory receiverHistory : List StoredEvent)
    (E : LedgerWorld → LedgerError → Prop) : Prop where
  /-- The debit is invalid. -/
  invalid : ∀ message, validateAppendRequest (appendRequest sender.id s.version debit) =
    .error (.typeError message) → E w (.typeError message)
  /-- The settlement fails as it would alone, while the sender's stream is still as it was, whatever the
  receiver's stream then is. -/
  decided : ∀ w₁ w₂ e, Later (ledger setting) (ledgerProtocol setting) i [] w w₁ →
    Later (ledger setting) (ledgerProtocol setting) i [] w₁ w₂ →
    w₁.db.stream sender.id = senderHistory → isConflict e = false →
    (∀ r, rehydrate receiver.id (w₁.db.stream receiver.id) = .ok r →
      (recordSettlement receipt sender receiver s r debit credit draw).alone w₁.db [] = .error e) →
    E w₂ e
  /-- The id of one of the events is taken. -/
  taken : ∀ w₁ id, Later (ledger setting) (ledgerProtocol setting) i [] w w₁ →
    (∃ row ∈ w₁.db.events, row.eventId = debit.eventId ∨ row.eventId = credit.eventId) ∨
      debit.eventId = credit.eventId → E w₁ (.duplicateEventId id)
  /-- One of the streams has moved. -/
  moved : ∀ w₁ e, Later (ledger setting) (ledgerProtocol setting) i [] w w₁ →
    w₁.db.stream sender.id ≠ senderHistory ∨ w₁.db.stream receiver.id ≠ receiverHistory →
    isExpectedStreamVersionError e = true → E w₁ e
  /-- The transfer has a receipt. -/
  settled : ∀ w₁ e, Later (ledger setting) (ledgerProtocol setting) i [] w w₁ →
    (∃ row ∈ w₁.db.settlements, row.transferId = receipt.transferId) →
    isUniqueViolation e = true → E w₁ e

variable {E : LedgerWorld → LedgerError → Prop} {senderHistory receiverHistory : List StoredEvent}

/-- Whatever the error, it is one of these. -/
lemma SettlementErrors.of_any (hinv : (ledgerProtocol setting).inv w)
    (h : ∀ w' e, Later (ledger setting) (ledgerProtocol setting) i [] w w' → E w' e) :
    SettlementErrors setting i w receipt sender receiver s debit credit draw senderHistory
      receiverHistory E where
  invalid _ _ := h w _ (.refl hinv)
  decided _ w₂ e hw₁ hw₂ _ _ _ := h w₂ e (hw₁.trans hw₂)
  taken w₁ _ hw₁ _ := h w₁ _ hw₁
  moved w₁ e hw₁ _ _ := h w₁ e hw₁
  settled w₁ e hw₁ _ _ := h w₁ e hw₁

/-- The debit of a settlement fails in one of its ways. -/
lemma SettlementErrors.of_debit
    (hE : SettlementErrors setting i w receipt sender receiver s debit credit draw senderHistory
      receiverHistory E) :
    AppendErrors setting i [] w sender.id s.version debit draw.now senderHistory E where
  invalid := hE.invalid
  decided w₁ w₂ e hw₁ hw₂ hstream hno h := by
    refine hE.decided w₁ w₂ e hw₁ hw₂ hstream hno fun r₁ _ => ?_
    rw [recordSettlement, Tx.alone_bind]
    exact congrArg (fun x => Except.bind x _) h
  taken w₁ id hw₁ htaken := by
    obtain ⟨row, hrow, hid⟩ := htaken
    exact hE.taken w₁ id hw₁ (.inl ⟨row, hrow, .inl hid⟩)
  moved w₁ e hw₁ hmoved he := hE.moved w₁ e hw₁ (.inl hmoved) he

/-- So does its credit, after the debit has locked the sender's stream. -/
lemma SettlementErrors.of_credit {w₁ : LedgerWorld}
    (hE : SettlementErrors setting i w receipt sender receiver s debit credit draw senderHistory
      receiverHistory E) (hw₁ : Later (ledger setting) (ledgerProtocol setting) i [] w w₁)
    (hne : sender.id ≠ receiver.id) (hr : rehydrate receiver.id receiverHistory = .ok r)
    (hdebit : ∀ w', Later (ledger setting) (ledgerProtocol setting) i
        [Write.insertEvent (debitRow sender s debit draw)] w₁ w' →
      AppendedEvent sender.id s.version debit draw.now w'.db [] ∧
        w'.db.stream sender.id = senderHistory) :
    AppendErrors setting i [.insertEvent (debitRow sender s debit draw)] w₁ receiver.id r.version
      credit draw.now receiverHistory E where
  invalid message hinvalid := by
    obtain ⟨happ, hstream⟩ := hdebit w₁ (.refl hw₁.inv)
    refine hE.decided w₁ w₁ _ hw₁ (.refl hw₁.inv) hstream rfl fun r₁ hr₁ => ?_
    refine Tx.alone_bind_ok (alone_appendEvent hw₁.inv.1.gapFree happ) ?_
    have hversion : 0 ≤ r₁.version := (rehydrate_replayed hr₁).version ▸ Int.natCast_nonneg _
    have hversion' : 0 ≤ r.version := (rehydrate_replayed hr).version ▸ Int.natCast_nonneg _
    rw [Tx.alone_bind, alone_appendEvent_invalid
      ((validateAppendRequest_version hversion hversion').trans hinvalid)]
    rfl
  decided w₂ w₃ e hw₂ hw₃ hstream hno h := by
    obtain ⟨happ, hsender⟩ := hdebit w₂ hw₂
    refine hE.decided w₂ w₃ e (hw₁.trans hw₂.nil) hw₃.nil hsender hno fun r₁ hr₁ => ?_
    rw [stream_receiver w₂.db hne] at hstream
    obtain rfl : r₁ = r := by
      rw [hstream, hr] at hr₁
      exact (Except.ok.inj hr₁).symm
    refine Tx.alone_bind_ok (alone_appendEvent hw₂.inv.1.gapFree happ) ?_
    rw [Tx.alone_bind]
    exact congrArg (fun x => Except.bind x _) h
  taken w₂ id hw₂ htaken := by
    obtain ⟨row, hrow, hid⟩ := htaken
    rw [events_view] at hrow
    rcases List.mem_append.mp hrow with hrow | hrow
    · exact hE.taken w₂ id (hw₁.trans hw₂.nil) (.inl ⟨row, hrow, .inr hid⟩)
    · obtain rfl : row = debitRow sender s debit draw := by simpa [insertedEvents] using hrow
      exact hE.taken w₂ id (hw₁.trans hw₂.nil) (.inr hid)
  moved w₂ e hw₂ hmoved he := by
    rw [stream_receiver w₂.db hne] at hmoved
    exact hE.moved w₂ e (hw₁.trans hw₂.nil) (.inr hmoved) he

/-- A settlement appends its events and enqueues their messages, and from then on neither stream moves;
or it fails in one of these ways. -/
lemma wp_recordSettlement_events {Q : LedgerWorld → List Write → Reply → Prop}
    (hinv : (ledgerProtocol setting).inv w) (hne : sender.id ≠ receiver.id)
    (hs : rehydrate sender.id senderHistory = .ok s)
    (hspre : senderHistory <+: w.db.stream sender.id)
    (hr : rehydrate receiver.id receiverHistory = .ok r)
    (hrpre : receiverHistory <+: w.db.stream receiver.id)
    (hE : SettlementErrors setting i w receipt sender receiver s debit credit draw senderHistory
      receiverHistory E)
    (hQ : ∀ w', Later (ledger setting) (ledgerProtocol setting) i [] w w' →
      (∀ w'', Later (ledger setting) (ledgerProtocol setting) i
          (settlementEvents sender receiver s r debit credit draw) w' w'' →
        AppendsSettlement sender receiver s r debit credit draw w''.db ∧
        w''.db.stream sender.id = senderHistory ∧ w''.db.stream receiver.id = receiverHistory) →
      (saveSettlement receipt sender receiver s r (debitRow sender s debit draw)
        (creditRow receiver r credit draw)).wp (ledger setting) (ledgerProtocol setting) i Q E w'
        (settlementEvents sender receiver s r debit credit draw)) :
    (recordSettlement receipt sender receiver s r debit credit draw).wp (ledger setting)
      (ledgerProtocol setting) i Q E w [] := by
  set d := debitRow sender s debit draw with hd
  set c := creditRow receiver r credit draw with hc
  unfold recordSettlement
  rw [Tx.wp_bind]
  refine wp_appendEvent hinv hinv.1.gapFree (rehydrate_replayed hs).version hspre hE.of_debit
    fun w₁ hw₁ hdebit hgap₀ hgap₁ => ?_
  -- the sender's stream is locked
  have hdebit₁ : ∀ w', Later (ledger setting) (ledgerProtocol setting) i [Write.insertEvent d] w₁ w' →
      AppendedEvent sender.id s.version debit draw.now w'.db [] ∧
        w'.db.stream sender.id = senderHistory := fun w' hw' =>
    AppendedEvent.locked (p := []) hgap₀ hgap₁ hdebit hs
      (hspre.trans ((ledger_appends.grows hw₁).stream sender.id)) hw'
  have hrpre₁ : receiverHistory <+: (view w₁.db [Write.insertEvent d]).stream receiver.id := by
    rw [stream_receiver w₁.db hne]
    exact hrpre.trans ((ledger_appends.grows hw₁).stream receiver.id)
  rw [Tx.wp_bind]
  refine wp_appendEvent hw₁.inv hgap₁ (rehydrate_replayed hr).version hrpre₁
    (hE.of_credit hw₁ hne hr hdebit₁) fun w₂ hw₂ hcredit hgap₂ hgap₂' => ?_
  -- both streams are locked
  have hlocked : ∀ w', Later (ledger setting) (ledgerProtocol setting) i
      [Write.insertEvent d, .insertEvent c] w₂ w' →
      AppendsSettlement sender receiver s r debit credit draw w'.db ∧
      w'.db.stream sender.id = senderHistory ∧ w'.db.stream receiver.id = receiverHistory := by
    intro w' hw'
    have hw₁' : Later (ledger setting) (ledgerProtocol setting) i [Write.insertEvent d] w₁ w' :=
      Later.trans hw₂ (hw'.mono (List.cons_subset_cons _ (List.nil_subset _)))
    obtain ⟨hdebit', hsender⟩ := hdebit₁ w' hw₁'
    obtain ⟨hcredit', hreceiver⟩ := AppendedEvent.locked hgap₂ hgap₂' hcredit hr
      (hrpre₁.trans (hgap₁.view_stream_prefix (ledger_appends.gapFree _ hw₂.inv)
        (ledger_appends.grows hw₂) receiver.id)) hw'
    exact ⟨⟨hw'.inv.1, hdebit', ledger_appends.gapFree_later hgap₁ hw₁', hcredit'⟩, hsender,
      (stream_receiver w'.db hne).symm.trans hreceiver⟩
  rw [Tx.wp_bind]
  refine wp_enqueueWalletEvents (fun w' e hw' htaken => ?_) fun w₃ hw₃ _ => ?_
  · obtain ⟨row, hrow, hid⟩ := htaken
    exact absurd hid ((hlocked w' hw').1.debit_free row hrow)
  have hw₂₃ : ∀ {w' : LedgerWorld}, Later (ledger setting) (ledgerProtocol setting) i
      [Write.insertEvent d, .insertEvent c, .insertOutbox (outboxMessage d sender draw.carrier)] w₃
      w' → Later (ledger setting) (ledgerProtocol setting) i [Write.insertEvent d, .insertEvent c] w₂
      w' := fun hw' => Later.trans hw₃ (hw'.mono (by simp))
  rw [Tx.wp_bind]
  refine wp_enqueueWalletEvents (fun w' e hw' htaken => ?_) fun w₄ hw₄ _ => ?_
  · obtain ⟨row, hrow, hid⟩ := htaken
    exact absurd hid ((hlocked w' (hw₂₃ hw')).1.credit_free row hrow)
  have hw₂₄ : ∀ {w' : LedgerWorld}, Later (ledger setting) (ledgerProtocol setting) i
      (settlementEvents sender receiver s r debit credit draw) w₄ w' →
      Later (ledger setting) (ledgerProtocol setting) i [Write.insertEvent d, .insertEvent c] w₂ w' :=
    fun hw' => hw₂₃ (Later.trans hw₄ (hw'.mono (by simp [settlementEvents, hd, hc])))
  exact hQ w₄ ((hw₁.trans hw₂.nil).trans (hw₂₄ (.refl hw₄.inv)).nil)
    fun w' hw' => hlocked w' (hw₂₄ hw')

/-- The projections and the receipt of a settlement are saved as if the command were alone; or this
fails as it would alone, or because the transfer has a receipt. -/
lemma wp_saveSettlement {Q : LedgerWorld → List Write → Reply → Prop}
    (hinv : (ledgerProtocol setting).inv w)
    (hsender : sender ∈ w.db.wallets ∧ sender.id = s.id)
    (hreceiver : receiver ∈ w.db.wallets ∧ receiver.id = r.id)
    (hdecided : ∀ w' e, Later (ledger setting) (ledgerProtocol setting) i p w w' →
      isConflict e = false → (saveSettlement receipt sender receiver s r d c).alone w'.db p = .error e →
      E w' e)
    (hsettled : ∀ w' e, Later (ledger setting) (ledgerProtocol setting) i p w w' →
      (∃ row ∈ (view w'.db p).settlements, row.transferId = receipt.transferId) →
      isUniqueViolation e = true → E w' e)
    (hQ : ∀ w' s' r', Later (ledger setting) (ledgerProtocol setting) i p w w' →
      (∀ w'', Later (ledger setting) (ledgerProtocol setting) i
          (p ++ [.saveProjection (projectionFromAggregate s')] ++
            [.saveProjection (projectionFromAggregate r')] ++ [.insertSettlement receipt]) w' w'' →
        Later (ledger setting) (ledgerProtocol setting) i p w w'' ∧
          SavesSettlement receipt s r s' r' d c p w''.db) →
      Q w' (p ++ [.saveProjection (projectionFromAggregate s')] ++
          [.saveProjection (projectionFromAggregate r')] ++ [.insertSettlement receipt])
        (.settled (toView sender (projectionFromAggregate s'))
          (toView receiver (projectionFromAggregate r')))) :
    (saveSettlement receipt sender receiver s r d c).wp (ledger setting) (ledgerProtocol setting) i
      Q E w p := by
  unfold saveSettlement
  rw [Tx.wp_bind]
  refine wp_projectApplied hinv (fun w₁ e hw₁ hno herror => ?_) fun w₁ s' hw₁ hs' hsave => ?_
  · refine hdecided w₁ e hw₁ (not_isConflict_of_wallet hw₁ hsender.1 hsender.2 hno) ?_
    rw [saveSettlement, Tx.alone_bind, herror]
    rfl
  rw [Tx.wp_bind]
  refine wp_projectApplied hw₁.inv (fun w₂ e hw₂ hno herror => ?_) fun w₂ r' hw₂ hr' hsave' => ?_
  · have hw₀₂ := hw₁.trans (hw₂.mono (by simp))
    refine hdecided w₂ e hw₀₂ (not_isConflict_of_wallet hw₀₂ hreceiver.1 hreceiver.2 hno) ?_
    refine Tx.alone_bind_ok (alone_projectApplied hs'
      (saveProjection_stable hsave (ledger_appends.grows hw₂))) ?_
    rw [Tx.alone_bind, herror]
    rfl
  rw [Tx.wp_bind, Tx.wp_write]
  intro w₃ hw₃
  have hw₁₃ := hw₂.trans (hw₃.mono (by simp))
  have hw₀₃ := hw₁.trans (hw₁₃.mono (by simp))
  refine ⟨fun e he => ?_, fun ws hreceipt => ?_⟩
  · rcases insertSettlement_error he with ⟨code, rfl⟩ | ⟨hunique, row, hrow, hid⟩
    · refine hdecided w₃ _ hw₀₃ rfl ?_
      refine Tx.alone_bind_ok (alone_projectApplied hs'
        (saveProjection_stable hsave (ledger_appends.grows hw₁₃))) ?_
      refine Tx.alone_bind_ok (alone_projectApplied hr'
        (saveProjection_stable hsave' (ledger_appends.grows hw₃))) ?_
      rw [Tx.alone_bind, Tx.alone_write]
      exact congrArg (fun x => Except.bind (Except.map _ x) _) he
    · refine hsettled w₃ e hw₀₃ ⟨row, ?_, hid⟩ hunique
      change row ∈ (view w₃.db _).settlements at hrow
      simpa [insertedSettlements] using hrow
  obtain ⟨rfl, -⟩ := insertSettlement_ok.mp hreceipt
  refine hQ w₃ s' r' hw₀₃ fun w₄ hw₄ => ?_
  -- the interference after each statement, up to the commit
  have hw₂₄ := hw₃.trans (hw₄.mono (by simp))
  have hw₁₄ := hw₂.trans (hw₂₄.mono (by simp))
  exact ⟨hw₁.trans (hw₁₄.mono (by simp)),
    { debit_applied := hs'
      credit_applied := hr'
      debit_saved := saveProjection_stable hsave (ledger_appends.grows hw₁₄)
      credit_saved := saveProjection_stable hsave' (ledger_appends.grows hw₂₄)
      receipt_inserted := insertSettlement_stable hreceipt (ledger_appends.grows hw₄) }⟩

/-- A settlement writes as if it were alone at the moment of its commit, and neither stream has
moved since it was replayed; or it fails in one of these ways. -/
lemma wp_recordSettlement {Q : LedgerWorld → List Write → Reply → Prop}
    (hinv : (ledgerProtocol setting).inv w) (hsender : sender ∈ w.db.wallets)
    (hreceiver : receiver ∈ w.db.wallets) (hne : sender.id ≠ receiver.id)
    (hs : rehydrate sender.id senderHistory = .ok s)
    (hspre : senderHistory <+: w.db.stream sender.id)
    (hr : rehydrate receiver.id receiverHistory = .ok r)
    (hrpre : receiverHistory <+: w.db.stream receiver.id)
    (hE : SettlementErrors setting i w receipt sender receiver s debit credit draw senderHistory
      receiverHistory E)
    (hQ : ∀ w' s' r', Later (ledger setting) (ledgerProtocol setting) i [] w w' →
      (∀ w'', Later (ledger setting) (ledgerProtocol setting) i
          (settlementWrites sender receiver (debitRow sender s debit draw)
            (creditRow receiver r credit draw) s' r' draw.carrier receipt) w' w'' →
        RecordsSettlement receipt sender receiver s r s' r' debit credit draw w''.db ∧
        w''.db.stream sender.id = senderHistory ∧ w''.db.stream receiver.id = receiverHistory) →
      Q w' (settlementWrites sender receiver (debitRow sender s debit draw)
          (creditRow receiver r credit draw) s' r' draw.carrier receipt)
        (.settled (toView sender (projectionFromAggregate s'))
          (toView receiver (projectionFromAggregate r')))) :
    (recordSettlement receipt sender receiver s r debit credit draw).wp (ledger setting)
      (ledgerProtocol setting) i Q E w [] := by
  refine wp_recordSettlement_events hinv hne hs hspre hr hrpre hE fun w₁ hw₁ happends => ?_
  have hgrows := ledger_appends.grows hw₁
  refine wp_saveSettlement hw₁.inv
    ⟨hgrows.mem_wallets hsender, (rehydrate_replayed hs).id.symm⟩
    ⟨hgrows.mem_wallets hreceiver, (rehydrate_replayed hr).id.symm⟩
    (fun w₂ e hw₂ hno herror => ?_) (fun w₂ e hw₂ hreceipt he => ?_) fun w₂ s' r' hw₂ hsaves => ?_
  · obtain ⟨happends₂, hsender₂, hreceiver₂⟩ := happends w₂ hw₂
    refine hE.decided w₂ w₂ e (hw₁.trans hw₂.nil) (.refl hw₂.inv) hsender₂ hno fun r₁ hr₁ => ?_
    obtain rfl : r₁ = r := by
      rw [hreceiver₂, hr] at hr₁
      exact (Except.ok.inj hr₁).symm
    exact happends₂.alone.trans herror
  · obtain ⟨row, hrow, hid⟩ := hreceipt
    refine hE.settled w₂ e (hw₁.trans hw₂.nil) ⟨row, ?_, hid⟩ he
    rw [settlements_view] at hrow
    exact (List.mem_append.mp hrow).resolve_right (by simp [insertedSettlements])
  · refine hQ w₂ s' r' (hw₁.trans hw₂.nil) fun w₃ hw₃ => ?_
    obtain ⟨hw₁₃, hsaved⟩ := hsaves w₃ hw₃
    obtain ⟨happends₃, hstreams⟩ := happends w₃ hw₁₃
    exact ⟨⟨happends₃, hsaved⟩, hstreams⟩

end Settlement

end Ledger

end PeerLedger
