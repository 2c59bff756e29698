import PeerLedger.Ledger.SettlementStatements

/-!
# Wallet creation and settlements

The two transactions that write more than one wallet event: a new wallet, and a settlement, which
appends to two streams.  Each has one rule for its run among the others (`wp_insertNewWallet`,
`wp_settleTransferAttempt`), from which it follows what its attempts commit.
-/

namespace PeerLedger

namespace Ledger

open Transactions WalletAggregate

variable {setting : Setting} {i : Nat} {p : List Write} {w : LedgerWorld} {job : Job}

/-! ### Wallet creation -/

/-- Every wallet has a projection. -/
lemma Consistent.projectionOf_some {db : Database} (h : Consistent db) {walletId : String}
    (hw : ∃ wallet ∈ db.wallets, wallet.id = walletId) : ∃ row, db.projectionOf walletId = some row := by
  obtain ⟨wallet, hmem, rfl⟩ := hw
  have hid : wallet.id ∈ db.projections.map (·.walletId) := by
    rw [h.projected]
    exact List.mem_map_of_mem hmem
  obtain ⟨row, hrow, hrid⟩ := List.mem_map.mp hid
  have hsome : (db.projectionOf wallet.id).isSome := by
    rw [Database.projectionOf, List.find?_isSome]
    exact ⟨row, hrow, by simpa using hrid⟩
  exact Option.isSome_iff_exists.mp hsome

/-- Without a wallet of the owner in the currency the search finds none. -/
lemma find?_wallets_none {db : Database} {ownerId currency : String}
    (h : ∀ row ∈ db.wallets, row.ownerId = ownerId → row.currency ≠ currency) :
    db.walletIn ownerId currency = none := by
  rw [Database.walletIn, List.find?_eq_none]
  intro row hrow
  simpa using h row hrow

/-- The projection of a wallet after its first event. -/
def firstProjection (walletId : String) (streamVersion : Int) : WalletBalanceProjection :=
  { walletId, balanceMinor := 0, heldMinor := 0, availableMinor := 0, streamVersion }

/-- The statements that create a wallet. -/
def insertNewWallet (wallet : Wallet) (draw : Draw) : LedgerTx Reply :=
  (Tx.write (insertWallet wallet)).bind fun _ =>
    (appendEvent wallet.id 0 (createdEvent draw.eventId wallet.ownerId wallet.currency)
      draw.now).bind fun created =>
      (enqueueWalletEvents wallet draw.carrier [created]).bind fun _ =>
        (Tx.write (saveProjection (firstProjection wallet.id created.streamVersion))).bind fun _ =>
          .ret (.wallet (toView wallet (firstProjection wallet.id created.streamVersion)))

/-- The creation of a wallet looks for it first. -/
lemma createWallet_eq (userId currency : String) (draw : Draw) :
    createWallet userId currency draw =
      (Tx.query fun db => db.walletIn userId currency).bind fun
        | some raced => (findOrThrow (entityNotFound "WalletBalanceProjection") fun db =>
            db.projectionOf raced.id).bind fun projection => .ret (.wallet (toView raced projection))
        | none => insertNewWallet ⟨draw.walletId, userId, currency⟩ draw :=
  rfl

/-- The first event of a wallet. -/
abbrev firstEvent (wallet : Wallet) (draw : Draw) : StoredEvent :=
  nextEvent wallet.id 0 (createdEvent draw.eventId wallet.ownerId wallet.currency) draw.now

/-- A wallet and its first event can be inserted alone on `db`. -/
structure CreatesWallet (wallet : Wallet) (draw : Draw) (db : Database) : Prop where
  consistent : Consistent db
  inserted : insertWallet wallet db = .ok [.insertWallet wallet]
  appended : AppendedEvent wallet.id 0
    (createdEvent draw.eventId wallet.ownerId wallet.currency) draw.now db [.insertWallet wallet]

section Creation

variable {wallet : Wallet} {draw : Draw} {db : Database}

/-- The first projection of a wallet can be saved. -/
lemma saveProjection_first (db : Database) (e : StoredEvent) (message : OutboxMessage) :
    saveProjection (firstProjection wallet.id 1)
        (view db [Write.insertWallet wallet, .insertEvent e, .insertOutbox message]) =
      .ok [.saveProjection (firstProjection wallet.id 1)] := by
  have hzero : (fitsBigint 0 ∧ fitsBigint 0 ∧ fitsBigint 0) := by decide
  refine saveProjection_ok.mpr ⟨rfl, ⟨hzero, le_rfl, le_rfl, le_rfl, one_pos, rfl⟩, wallet, ?_, rfl⟩
  rw [wallets_view]
  exact List.mem_append_right _ (List.mem_singleton_self _)

/-- Creating a wallet alone. -/
lemma CreatesWallet.alone (h : CreatesWallet wallet draw db) :
    (insertNewWallet wallet draw).alone db [] =
      .ok (.wallet (toView wallet (firstProjection wallet.id 1)),
        creationWrites wallet draw.eventId draw.now draw.carrier) := by
  refine Tx.alone_bind_ok (alone_write_ok (p := []) h.inserted) ?_
  refine Tx.alone_bind_ok (alone_appendEvent h.consistent.gapFree h.appended) ?_
  refine Tx.alone_bind_ok (alone_enqueueWalletEvents
    (insertOutbox_ok.mpr ⟨rfl, h.appended.outbox_free h.consistent rfl⟩)) ?_
  exact Tx.alone_bind_ok (alone_write_ok (saveProjection_first db _ _)) rfl

/-- A new wallet is inserted with its first event as if the command were alone at the moment of its
commit; or the insert or the append fails. -/
lemma wp_insertNewWallet {Q : LedgerWorld → List Write → Reply → Prop}
    {E : LedgerWorld → LedgerError → Prop}
    (hinsert : ∀ w' e, Later (ledger setting) (ledgerProtocol setting) i [] w w' →
      insertWallet wallet w'.db = .error e → E w' e)
    (happend : ∀ w', Later (ledger setting) (ledgerProtocol setting) i [] w w' →
      AppendErrors setting i [.insertWallet wallet] w' wallet.id 0
        (createdEvent draw.eventId wallet.ownerId wallet.currency) draw.now [] E)
    (hQ : ∀ w', Later (ledger setting) (ledgerProtocol setting) i [] w w' →
      (∀ w'', Later (ledger setting) (ledgerProtocol setting) i
          (creationWrites wallet draw.eventId draw.now draw.carrier) w' w'' →
        CreatesWallet wallet draw w''.db) →
      Q w' (creationWrites wallet draw.eventId draw.now draw.carrier)
        (.wallet (toView wallet (firstProjection wallet.id 1)))) :
    (insertNewWallet wallet draw).wp (ledger setting) (ledgerProtocol setting) i Q E w [] := by
  unfold insertNewWallet
  rw [Tx.wp_bind, Tx.wp_write]
  refine fun w₁ hw₁ => ⟨fun e he => hinsert w₁ e hw₁ he, fun ws hws => ?_⟩
  obtain ⟨rfl, -⟩ := insertWallet_ok.mp hws
  have hgap₁ : GapFree (view w₁.db [Write.insertWallet wallet]) := hw₁.inv.1.gapFree
  have hlength : (0 : Int) = ([] : List StoredEvent).length := rfl
  rw [Tx.wp_bind]
  refine wp_appendEvent hw₁.inv hgap₁ hlength List.nil_prefix (happend w₁ hw₁)
    fun w₂ hw₂ happ _ hgap₂ => ?_
  -- from now on the wallet and its stream are locked
  have hlocked : ∀ w', Later (ledger setting) (ledgerProtocol setting) i
      [Write.insertWallet wallet, .insertEvent (firstEvent wallet draw)] w₂ w' →
      CreatesWallet wallet draw w'.db := fun w' hw' => by
    have hw₁' : Later (ledger setting) (ledgerProtocol setting) i [Write.insertWallet wallet] w₁ w' :=
      Later.trans hw₂ (hw'.mono (by simp))
    exact ⟨hw'.inv.1, insertWallet_stable hws (ledger_appends.grows hw₁'),
      (happ.stable hgap₂ (ledger_appends.gapFree _ hw'.inv) (ledger_appends.grows hw')).1⟩
  rw [Tx.wp_bind]
  refine wp_enqueueWalletEvents (fun w' e hw' htaken => ?_) fun w₃ hw₃ _ => ?_
  · obtain ⟨row, hrow, hid⟩ := htaken
    exact absurd hid ((hlocked w' hw').appended.outbox_free hw'.inv.1 rfl row hrow)
  rw [Tx.wp_bind, Tx.wp_write]
  refine fun w₄ hw₄ => ⟨fun e he => ?_, fun ws hsave => ?_⟩
  · cases he.symm.trans (saveProjection_first w₄.db _ _)
  obtain ⟨rfl, -⟩ := saveProjection_ok.mp hsave
  refine hQ w₄ ((hw₁.trans hw₂.nil).trans (hw₃.nil.trans hw₄.nil)) fun w₅ hw₅ => hlocked w₅ ?_
  have h₃₅ := hw₄.trans (hw₅.mono (by simp [creationWrites, records]))
  exact Later.trans hw₃ (h₃₅.mono (by simp))

end Creation

/-- The transaction that creates a wallet. -/
lemma commits_createWallet (hcreates : job.command.Creates) (userId currency : String)
    (draw : Draw) :
    Commits setting i job (fun reply => ∃ view, reply = .wallet view)
      (createWallet userId currency draw) := by
  intro w hrun Q E hE hQ
  rw [createWallet_eq] at hQ ⊢
  rw [Tx.wp_bind, Tx.wp_query]
  intro w₁ hw₁
  cases hfound : (view ((ledger setting).db w₁) ([] : List Write)).walletIn userId currency with
  | some raced =>
    rw [Tx.wp_bind]
    refine wp_findOrThrow (fun w' hw' _ => hE _ _ (hw₁.trans hw')) fun w₂ row hw₂ hrow => ?_
    refine hQ w₂ [] _ (hw₁.trans hw₂) ⟨_, rfl⟩ fun w₃ hw₃ => ?_
    -- the wallet and its projection are still there at the commit
    have hrun₃ := (hrun.later hw₁).later (hw₂.trans hw₃)
    have hfound₃ : w₃.db.walletIn userId currency = some raced :=
      find?_wallets_grows (ledger_appends.grows (hw₂.trans hw₃)) hfound
    have hmem := List.mem_of_find?_eq_some hfound₃
    obtain ⟨row₃, hrow₃⟩ := hrun₃.consistent.projectionOf_some ⟨raced, hmem, rfl⟩
    refine ⟨.noop (.created hcreates hmem), .inr ⟨.wallet (toView raced row₃), ?_⟩⟩
    refine Tx.alone_bind_ok (Tx.alone_query _ _ _) ?_
    rw [view_nil, hfound₃]
    exact Tx.alone_bind_ok (alone_findOrThrow (p := []) hrow₃) rfl
  | none =>
    refine wp_insertNewWallet (fun w' e hw' _ => hE _ _ (hw₁.trans hw'))
      (fun w' hw' => .of_any hw'.inv fun w'' e hw'' => hE _ _ ((hw₁.trans hw').trans hw''.nil))
      fun w₂ hw₂ hcreated => hQ w₂ _ _ (hw₁.trans hw₂) ⟨_, rfl⟩ fun w₃ hw₃ => ?_
    have h := hcreated w₃ hw₃
    obtain ⟨-, hfresh, hcurrency, -⟩ := insertWallet_ok.mp h.inserted
    have hlength : ((w₃.db.stream draw.walletId).length : Int) = 0 := h.appended.expectedVersion
    have hempty : w₃.db.stream draw.walletId = [] :=
      List.eq_nil_of_length_eq_zero (by exact_mod_cast hlength)
    refine ⟨Effect.created hcreates draw.walletId_uuid hfresh hempty,
      .inr ⟨.wallet (toView ⟨draw.walletId, userId, currency⟩ (firstProjection draw.walletId 1)), ?_⟩⟩
    refine Tx.alone_bind_ok (Tx.alone_query _ _ _) ?_
    rw [view_nil, find?_wallets_none hcurrency]
    exact h.alone

/-! ### Settlements -/

/-- The comparison of a receipt in terms of the fields. -/
lemma assertSettlementMatches_ok {receipt : LedgerTransferSettlement}
    {dto : SettleInternalTransferDto} {n d : Int} {currency : String} :
    assertSettlementMatches receipt dto n d currency = .ok () ↔
      receipt.senderWalletId = dto.senderWalletId ∧
      receipt.receiverWalletId = dto.receiverWalletId ∧ receipt.amountMinor = n ∧
      receipt.currency = dto.currency ∧ receipt.destinationAmountMinor = d ∧
      receipt.destinationCurrency = currency := by
  simp only [assertSettlementMatches, ite_error_eq_ok, not_or, not_not, ne_eq, and_true]

/-- A wallet that is there is found. -/
lemma walletById_some {db : Database} {walletId : String}
    (h : ∃ wallet ∈ db.wallets, wallet.id = walletId) :
    ∃ wallet, db.walletById walletId = some wallet := by
  obtain ⟨wallet, hwallet, hid⟩ := h
  refine Option.isSome_iff_exists.mp ?_
  rw [Database.walletById, List.find?_isSome]
  exact ⟨wallet, hwallet, by simpa using hid⟩

/-- The wallets of a receipt can always be read. -/
lemma Consistent.alone_findSettlementWallets {db : Database} (h : Consistent db)
    {receipt : LedgerTransferSettlement} (hmem : receipt ∈ db.settlements) :
    ∃ sender receiver, (findSettlementWallets receipt).alone db [] =
      .ok (.settled sender receiver, []) := by
  obtain ⟨hsender, hreceiver⟩ := h.receiptWallets receipt hmem
  obtain ⟨sp, hsp⟩ := h.projectionOf_some hsender
  obtain ⟨rp, hrp⟩ := h.projectionOf_some hreceiver
  obtain ⟨s, hs⟩ := walletById_some hsender
  obtain ⟨r, hr⟩ := walletById_some hreceiver
  refine ⟨toView s sp, toView r rp, ?_⟩
  refine Tx.alone_bind_ok (alone_findOrThrow (p := []) hs) ?_
  refine Tx.alone_bind_ok (alone_findOrThrow (p := []) hr) ?_
  refine Tx.alone_bind_ok (alone_findOrThrow (p := []) hsp) ?_
  exact Tx.alone_bind_ok (alone_findOrThrow (p := []) hrp) rfl

lemma settleTransferAttempt_eq (transferId : String) (dto : SettleInternalTransferDto) (n d : Int)
    (currency : String) (draw : Draw) :
    settleTransferAttempt transferId dto n d currency draw =
    (Tx.query fun db => db.settlementOf transferId).bind fun
      | some raced => (Tx.ofExcept (assertSettlementMatches raced dto n d currency)).bind fun _ =>
          findSettlementWallets raced
      | none =>
        (Tx.query fun db => db.wallets.find? fun wallet => wallet.id = dto.senderWalletId ∧
          wallet.ownerId = dto.senderUserId ∧ wallet.currency = dto.currency).bind fun sender =>
        (Tx.query fun db => db.wallets.find? fun wallet => wallet.id = dto.receiverWalletId ∧
          wallet.currency = currency).bind fun receiver =>
        match sender, receiver with
        | some sender, some receiver =>
          if sender.id = receiver.id then
            .abort (.badRequest "Sender and receiver wallets must differ")
          else
            (rehydrateStream sender.id).bind fun s => (rehydrateStream receiver.id).bind fun r =>
            (Tx.ofExcept (assertAggregateIdentity sender s)).bind fun _ =>
            (Tx.ofExcept (assertAggregateIdentity receiver r)).bind fun _ =>
            (Tx.ofExcept (decideDebit transferId n s draw.eventId)).bind fun debit =>
            (Tx.ofExcept ((r.deposit d draw.creditEventId transferId).mapError .error)).bind
              fun credit =>
            recordSettlement (receiptOf transferId dto n d currency sender receiver) sender receiver
              s r debit credit draw
        | _, _ => .abort (.notFound "Transfer wallet not found") :=
  rfl

/-- The two wallets that a settlement finds. -/
structure FoundWallets (db : Database) (dto : SettleInternalTransferDto) (currency : String)
    (sender receiver : Wallet) : Prop where
  findsSender : (db.wallets.find? fun wallet => wallet.id = dto.senderWalletId ∧
    wallet.ownerId = dto.senderUserId ∧ wallet.currency = dto.currency) = some sender
  findsReceiver : (db.wallets.find? fun wallet => wallet.id = dto.receiverWalletId ∧
    wallet.currency = currency) = some receiver
  distinct : sender.id ≠ receiver.id

lemma FoundWallets.grows {db db' : Database} {locked : List Lock} {dto : SettleInternalTransferDto}
    {currency : String} {sender receiver : Wallet} (h : FoundWallets db dto currency sender receiver)
    (hg : db.Grows locked db') : FoundWallets db' dto currency sender receiver :=
  ⟨find?_wallets_grows hg h.findsSender, find?_wallets_grows hg h.findsReceiver, h.distinct⟩

/-- In consistent tables a settlement alone gets as far as its decisions. -/
lemma FoundWallets.alone {db : Database} {dto : SettleInternalTransferDto} {currency : String}
    {sender receiver : Wallet} (h : FoundWallets db dto currency sender receiver) (hc : Consistent db)
    {transferId : String} (hnone : db.settlementOf transferId = none) {s r : WalletAggregate}
    (hs : rehydrate sender.id (db.stream sender.id) = .ok s)
    (hr : rehydrate receiver.id (db.stream receiver.id) = .ok r) (n d : Int) (draw : Draw) :
    (settleTransferAttempt transferId dto n d currency draw).alone db [] =
      ((Tx.ofExcept (decideDebit transferId n s draw.eventId)).bind fun debit =>
        (Tx.ofExcept ((r.deposit d draw.creditEventId transferId).mapError .error)).bind fun credit =>
          recordSettlement (receiptOf transferId dto n d currency sender receiver) sender receiver s r
            debit credit draw).alone db [] := by
  rw [settleTransferAttempt_eq]
  refine Tx.alone_bind_ok (Tx.alone_query _ _ _) ?_
  rw [view_nil, hnone]
  refine Tx.alone_bind_ok (Tx.alone_query _ _ _) ?_
  refine Tx.alone_bind_ok (Tx.alone_query _ _ _) ?_
  rw [view_nil, h.findsSender, h.findsReceiver]
  dsimp only
  rw [if_neg h.distinct]
  refine Tx.alone_bind_ok (alone_rehydrateStream (p := []) hc.gapFree hs) ?_
  refine Tx.alone_bind_ok (alone_rehydrateStream (p := []) hc.gapFree hr) ?_
  rw [hc.identity (List.mem_of_find?_eq_some h.findsSender) hs,
    hc.identity (List.mem_of_find?_eq_some h.findsReceiver) hr]
  rfl

/-- A settlement one of whose wallets is missing fails alone. -/
lemma alone_settleTransferAttempt_missing {db : Database} {transferId : String}
    {dto : SettleInternalTransferDto} {currency : String}
    (hnone : db.settlementOf transferId = none)
    (hmissing : (db.wallets.find? fun wallet => wallet.id = dto.senderWalletId ∧
        wallet.ownerId = dto.senderUserId ∧ wallet.currency = dto.currency) = none ∨
      (db.wallets.find? fun wallet => wallet.id = dto.receiverWalletId ∧
        wallet.currency = currency) = none) (n d : Int) (draw : Draw) :
    (settleTransferAttempt transferId dto n d currency draw).alone db [] =
      .error (.notFound "Transfer wallet not found") := by
  rw [settleTransferAttempt_eq]
  refine Tx.alone_bind_ok (Tx.alone_query _ _ _) ?_
  rw [view_nil, hnone]
  refine Tx.alone_bind_ok (Tx.alone_query _ _ _) ?_
  refine Tx.alone_bind_ok (Tx.alone_query _ _ _) ?_
  rw [view_nil]
  cases hsender : db.wallets.find? fun wallet => wallet.id = dto.senderWalletId ∧
      wallet.ownerId = dto.senderUserId ∧ wallet.currency = dto.currency with
  | none => rfl
  | some sender =>
    rw [hsender] at hmissing
    rw [hmissing.resolve_left (by simp)]
    rfl

/-- A settlement whose two wallets are the same fails alone. -/
lemma alone_settleTransferAttempt_same {db : Database} {transferId : String}
    {dto : SettleInternalTransferDto} {currency : String} {sender receiver : Wallet}
    (hnone : db.settlementOf transferId = none)
    (hsender : (db.wallets.find? fun wallet => wallet.id = dto.senderWalletId ∧
      wallet.ownerId = dto.senderUserId ∧ wallet.currency = dto.currency) = some sender)
    (hreceiver : (db.wallets.find? fun wallet => wallet.id = dto.receiverWalletId ∧
      wallet.currency = currency) = some receiver)
    (heq : sender.id = receiver.id) (n d : Int) (draw : Draw) :
    (settleTransferAttempt transferId dto n d currency draw).alone db [] =
      .error (.badRequest "Sender and receiver wallets must differ") := by
  rw [settleTransferAttempt_eq]
  refine Tx.alone_bind_ok (Tx.alone_query _ _ _) ?_
  rw [view_nil, hnone]
  refine Tx.alone_bind_ok (Tx.alone_query _ _ _) ?_
  refine Tx.alone_bind_ok (Tx.alone_query _ _ _) ?_
  rw [view_nil, hsender, hreceiver]
  dsimp only
  rw [if_pos heq]
  rfl

/-- A transfer without a receipt never had one. -/
lemma settlementOf_none {w' : LedgerWorld}
    (h : Later (ledger setting) (ledgerProtocol setting) i p w w') {transferId : String}
    (hnone : w'.db.settlementOf transferId = none) : w.db.settlementOf transferId = none := by
  cases hw : w.db.settlementOf transferId with
  | none => rfl
  | some receipt =>
    have hlater : w'.db.settlementOf transferId = some receipt :=
      (ledger_appends.grows h).settlementOf hw
    rw [hlater] at hnone
    cases hnone

/-- A deposit of a positive amount is accepted in every state of the wallet. -/
lemma deposit_of_pos {n : Int} (hn : 0 < n) (a : WalletAggregate) (eventId transactionId : String) :
    a.deposit n eventId transactionId =
      .ok ((Change.deposited n transactionId).event a.id eventId) := by
  unfold WalletAggregate.deposit moneyEvent
  rw [createLedgerTransaction_eq, if_neg (by omega)]
  rfl

/-- What `toPositiveMinorUnits` accepts is positive. -/
lemma toPositiveMinorUnits_pos {amount : ℚ} {n : Int} (h : toPositiveMinorUnits amount = .ok n) :
    0 < n := by
  simp only [toPositiveMinorUnits, toMinorUnits] at h
  split at h
  · cases h
  · obtain ⟨hn, h⟩ := ite_error_eq_ok.mp h
    obtain rfl := Except.ok.inj h
    omega

/-- A settlement that decides against its debit is not in conflict. -/
lemma decideDebit_error {transferId eventId : String} {n : Int} {a : WalletAggregate}
    {e : LedgerError} (h : decideDebit transferId n a eventId = .error e) : isConflict e = false := by
  unfold decideDebit at h
  split at h
  · obtain rfl := Except.error.inj h
    rfl
  · split_ifs at h
    · obtain rfl := Except.error.inj h
      rfl
    · split at h
      · obtain rfl := Except.error.inj h
        unfold throwHoldDomainError
        split_ifs <;> rfl
      · obtain rfl := Except.error.inj h
        rfl
      · cases h

/-- Reading the wallets of a receipt throws no conflict. -/
lemma wp_findSettlementWallets {Q : LedgerWorld → List Write → Reply → Prop}
    {E : LedgerWorld → LedgerError → Prop} (receipt : LedgerTransferSettlement)
    (hE : ∀ w' e, Later (ledger setting) (ledgerProtocol setting) i [] w w' →
      isConflict e = false → E w' e)
    (hQ : ∀ w' sender receiver, Later (ledger setting) (ledgerProtocol setting) i [] w w' →
      Q w' [] (.settled sender receiver)) :
    (findSettlementWallets receipt).wp (ledger setting) (ledgerProtocol setting) i Q E w [] := by
  unfold findSettlementWallets
  simp only [Tx.bind_eq]
  rw [Tx.wp_bind]
  refine wp_findOrThrow (fun w' hw' _ => hE w' _ hw' rfl) fun w₁ _ hw₁ _ => ?_
  rw [Tx.wp_bind]
  refine wp_findOrThrow (fun w' hw' _ => hE w' _ (hw₁.trans hw') rfl) fun w₂ _ hw₂ _ => ?_
  have hw₀₂ := hw₁.trans hw₂
  rw [Tx.wp_bind]
  refine wp_findOrThrow (fun w' hw' _ => hE w' _ (hw₀₂.trans hw') rfl) fun w₃ _ hw₃ _ => ?_
  have hw₀₃ := hw₀₂.trans hw₃
  rw [Tx.wp_bind]
  exact wp_findOrThrow (fun w' hw' _ => hE w' _ (hw₀₃.trans hw') rfl)
    fun w₄ _ hw₄ _ => hQ w₄ _ _ (hw₀₃.trans hw₄)

/-- A settlement finds its receipt and answers with its wallets, or is refused; or it fails as it would
alone while its transfer has no receipt; or it gets to its writes, having read the sender's stream
first. -/
lemma wp_settleTransferAttempt {Q : LedgerWorld → List Write → Reply → Prop}
    {E : LedgerWorld → LedgerError → Prop} {transferId : String} {dto : SettleInternalTransferDto}
    {n d : Int} {currency : String} {draw : Draw} (hd : 0 < d)
    (hraced : ∀ w₁ w₂ raced sender receiver,
      Later (ledger setting) (ledgerProtocol setting) i [] w w₁ →
      Later (ledger setting) (ledgerProtocol setting) i [] w₁ w₂ →
      w₁.db.settlementOf transferId = some raced →
      assertSettlementMatches raced dto n d currency = .ok () →
      Q w₂ [] (.settled sender receiver))
    (hrefused : ∀ w₁ w₂ raced e, Later (ledger setting) (ledgerProtocol setting) i [] w w₁ →
      Later (ledger setting) (ledgerProtocol setting) i [] w₁ w₂ →
      w₁.db.settlementOf transferId = some raced → isConflict e = false → E w₂ e)
    (hdecided : ∀ w₁ w₂ e, Later (ledger setting) (ledgerProtocol setting) i [] w w₁ →
      Later (ledger setting) (ledgerProtocol setting) i [] w₁ w₂ → isConflict e = false →
      (w₁.db.settlementOf transferId = none →
        (settleTransferAttempt transferId dto n d currency draw).alone w₁.db [] = .error e) →
      E w₂ e)
    (hrecord : ∀ w₁ w₂ sender receiver s r debit credit,
      Later (ledger setting) (ledgerProtocol setting) i [] w w₁ →
      Later (ledger setting) (ledgerProtocol setting) i [] w₁ w₂ →
      w.db.settlementOf transferId = none → FoundWallets w₁.db dto currency sender receiver →
      rehydrate sender.id (w₁.db.stream sender.id) = .ok s →
      rehydrate receiver.id (w₂.db.stream receiver.id) = .ok r →
      decideDebit transferId n s draw.eventId = .ok debit →
      (r.deposit d draw.creditEventId transferId).mapError LedgerError.error = .ok credit →
      (recordSettlement (receiptOf transferId dto n d currency sender receiver) sender receiver s r
        debit credit draw).wp (ledger setting) (ledgerProtocol setting) i Q E w₂ []) :
    (settleTransferAttempt transferId dto n d currency draw).wp (ledger setting)
      (ledgerProtocol setting) i Q E w [] := by
  rw [settleTransferAttempt_eq, Tx.wp_bind, Tx.wp_query]
  intro w₁ hw₁
  cases hreceipt : (view ((ledger setting).db w₁) ([] : List Write)).settlementOf transferId with
  | some raced =>
    rw [Tx.wp_bind, Tx.wp_ofExcept]
    refine ⟨fun e he => hrefused w₁ w₁ raced e hw₁ (.refl hw₁.inv) hreceipt ?_,
      fun _ hmatches => ?_⟩
    · unfold assertSettlementMatches at he
      split_ifs at he
      obtain rfl := Except.error.inj he
      rfl
    · exact wp_findSettlementWallets raced
        (fun w' e hw' hno => hrefused w₁ w' raced e hw₁ hw' hreceipt hno)
        fun w' sender receiver hw' => hraced w₁ w' raced sender receiver hw₁ hw' hreceipt hmatches
  | none =>
    rw [Tx.wp_bind, Tx.wp_query]
    intro w₂ hw₂
    rw [Tx.wp_bind, Tx.wp_query]
    intro w₃ hw₃
    have h₀₃ := (hw₁.trans hw₂).trans hw₃
    cases hsender : (view ((ledger setting).db w₂) ([] : List Write)).wallets.find? fun wallet =>
        wallet.id = dto.senderWalletId ∧ wallet.ownerId = dto.senderUserId ∧
          wallet.currency = dto.currency with
    | none =>
      exact hdecided w₂ w₃ _ (hw₁.trans hw₂) hw₃ rfl fun hnone =>
        alone_settleTransferAttempt_missing hnone (.inl hsender) n d draw
    | some sender =>
    have hsender₃ := find?_wallets_grows (ledger_appends.grows hw₃) hsender
    cases hreceiver : (view ((ledger setting).db w₃) ([] : List Write)).wallets.find? fun wallet =>
        wallet.id = dto.receiverWalletId ∧ wallet.currency = currency with
    | none =>
      exact hdecided w₃ w₃ _ h₀₃ (.refl hw₃.inv) rfl fun hnone =>
        alone_settleTransferAttempt_missing hnone (.inr hreceiver) n d draw
    | some receiver =>
    dsimp only
    split_ifs with hne
    · exact hdecided w₃ w₃ _ h₀₃ (.refl hw₃.inv) rfl fun hnone =>
        alone_settleTransferAttempt_same hnone hsender₃ hreceiver hne n d draw
    have hfound₃ : FoundWallets w₃.db dto currency sender receiver := ⟨hsender₃, hreceiver, hne⟩
    rw [Tx.wp_bind]
    refine wp_rehydrateStream_ok hw₃.inv fun w₄ s hw₄ hs => ?_
    have hfound₄ : FoundWallets w₄.db dto currency sender receiver :=
      hfound₃.grows (ledger_appends.grows hw₄)
    have h₀₄ := h₀₃.trans hw₄
    rw [Tx.wp_bind]
    refine wp_rehydrateStream_ok hw₄.inv fun w₅ r hw₅ hr => ?_
    have hfound₅ : FoundWallets w₅.db dto currency sender receiver :=
      hfound₄.grows (ledger_appends.grows hw₅)
    have hsid := hw₄.inv.1.identity (List.mem_of_find?_eq_some hfound₄.findsSender) hs
    have hrid := hw₅.inv.1.identity (List.mem_of_find?_eq_some hfound₅.findsReceiver) hr
    rw [hsid, hrid, Tx.ofExcept_ok, Tx.ret_bind, Tx.ret_bind, Tx.wp_bind, Tx.wp_ofExcept]
    refine ⟨fun e he => ?_, fun debit hdebit => ?_⟩
    · refine hdecided w₄ w₅ e h₀₄ hw₅ (decideDebit_error he) fun hnone => ?_
      obtain ⟨r₁, hr₁⟩ := hw₄.inv.1.rehydrate_ok receiver.id
      refine (hfound₄.alone hw₄.inv.1 hnone hs hr₁ n d draw).trans ?_
      rw [he]
      rfl
    rw [Tx.wp_bind, Tx.wp_ofExcept]
    refine ⟨fun e he => ?_, fun credit hcredit => ?_⟩
    · rw [deposit_of_pos hd] at he
      cases he
    · exact hrecord w₄ w₅ sender receiver s r debit credit h₀₄ hw₅
        (settlementOf_none hw₁ hreceipt) hfound₄ hs hr hdebit hcredit

/-- A settlement that finds its receipt has an effect, wherever it commits. -/
lemma settled_effect {transferId : String} {dto : SettleInternalTransferDto} {n d : Int}
    (hcommand : job.command = .settleTransfer transferId dto)
    (hn : toPositiveMinorUnits dto.amount = .ok n)
    (hd : toPositiveMinorUnits (dto.destinationAmount.getD dto.amount) = .ok d) (draw : Draw)
    {raced : LedgerTransferSettlement} {db : Database} (hc : Consistent db)
    (hfound : db.settlementOf transferId = some raced)
    (hmatches : assertSettlementMatches raced dto n d (dto.targetCurrency.getD dto.currency) =
      .ok ()) :
    Effect job.draw job.startDb db job.command [] ∧
      Serial job.command db (settleTransferAttempt transferId dto n d
        (dto.targetCurrency.getD dto.currency) draw) [] := by
  have hmem := List.mem_of_find?_eq_some hfound
  have htransfer : raced.transferId = transferId := by simpa using List.find?_some hfound
  obtain ⟨sender, receiver, halone⟩ := hc.alone_findSettlementWallets hmem
  obtain ⟨h₁, h₂, h₃, h₄, h₅, h₆⟩ := assertSettlementMatches_ok.mp hmatches
  refine ⟨?_, .inr ⟨.settled sender receiver, ?_⟩⟩
  · rw [hcommand]
    exact .noop (.settled hmem htransfer ⟨h₁, h₂, h₃ ▸ hn, h₄, h₅ ▸ hd, h₆⟩)
  · rw [settleTransferAttempt_eq]
    refine Tx.alone_bind_ok (Tx.alone_query _ _ _) ?_
    rw [view_nil, hfound]
    exact Tx.alone_bind_ok (by rw [hmatches]; rfl) halone

/-- Attempts of a settlement. -/
lemma commits_settle {transferId : String} {dto : SettleInternalTransferDto} {n d : Int}
    (hcommand : job.command = .settleTransfer transferId dto)
    (hn : toPositiveMinorUnits dto.amount = .ok n)
    (hd : toPositiveMinorUnits (dto.destinationAmount.getD dto.amount) = .ok d) (draw : Draw) :
    Commits setting i job (fun reply => ∃ sender receiver, reply = .settled sender receiver)
      (settleTransferAttempt transferId dto n d (dto.targetCurrency.getD dto.currency) draw) := by
  intro w hrun Q E hE hQ
  refine wp_settleTransferAttempt (toPositiveMinorUnits_pos hd)
    (fun w₁ w₂ raced sender receiver hw₁ hw₂ hfound hmatches => ?_)
    (fun w₁ w₂ _ e hw₁ hw₂ _ _ => hE w₂ e (hw₁.trans hw₂))
    (fun w₁ w₂ e hw₁ hw₂ _ _ => hE w₂ e (hw₁.trans hw₂))
    fun w₁ w₂ sender receiver s r debit credit hw₁ hw₂ _ hfound hs hr hdebit hcredit => ?_
  · refine hQ w₂ [] _ (hw₁.trans hw₂) ⟨sender, receiver, rfl⟩ fun w₃ hw₃ => ?_
    exact settled_effect hcommand hn hd draw hw₃.inv.1
      ((ledger_appends.grows (hw₂.trans hw₃)).settlementOf hfound) hmatches
  have hw₀₂ := hw₁.trans hw₂
  have hfound₂ := hfound.grows (ledger_appends.grows hw₂)
  refine wp_recordSettlement hw₂.inv (List.mem_of_find?_eq_some hfound₂.findsSender)
    (List.mem_of_find?_eq_some hfound₂.findsReceiver) hfound.distinct hs
    ((ledger_appends.grows hw₂).stream sender.id) hr List.prefix_rfl
    (.of_any hw₂.inv fun w' e hw' => hE w' e (hw₀₂.trans hw')) fun w₃ s' r' hw₃ hrecords => ?_
  refine hQ w₃ _ _ (hw₀₂.trans hw₃) ⟨_, _, rfl⟩ fun w₄ hw₄ => ?_
  obtain ⟨hrecord, hsender, hreceiver⟩ := hrecords w₄ hw₄
  have hfound₄ := hfound₂.grows (ledger_appends.grows (hw₃.trans hw₄.nil))
  have hs₄ : rehydrate sender.id (w₄.db.stream sender.id) = .ok s := hsender ▸ hs
  have hr₄ : rehydrate receiver.id (w₄.db.stream receiver.id) = .ok r := hreceiver ▸ hr
  have hsmem := List.mem_of_find?_eq_some hfound₄.findsSender
  have hrmem := List.mem_of_find?_eq_some hfound₄.findsReceiver
  obtain ⟨hsid, -, hscur⟩ : sender.id = dto.senderWalletId ∧ sender.ownerId = dto.senderUserId ∧
      sender.currency = dto.currency := by simpa using List.find?_some hfound.findsSender
  obtain ⟨hrid, hrcur⟩ : receiver.id = dto.receiverWalletId ∧
      receiver.currency = dto.targetCurrency.getD dto.currency := by
    simpa using List.find?_some hfound.findsReceiver
  refine ⟨?_, .inr ⟨.settled (toView sender (projectionFromAggregate s'))
    (toView receiver (projectionFromAggregate r')), ?_⟩⟩
  · rw [hcommand]
    exact .settled
      { transfer := rfl
        dto_matches := ⟨hsid, hrid, hn, rfl, hd, rfl⟩
        sender_id := rfl
        receiver_id := rfl
        sender_currency := hscur
        receiver_currency := hrcur
        distinct := hfound.distinct
        unsettled := hrecord.unsettled
        debit_recorded := hrecord.debit_recorded hsmem hs₄ (hw₄.inv.1.identity hsmem hs₄)
        credit_recorded := hrecord.credit_recorded hfound.distinct hrmem hr₄
          (hw₄.inv.1.identity hrmem hr₄)
        debit_eq := ⟨_, _, _, hdebit, rfl⟩
        credit_eq := ⟨_, _, _, except_mapError_ok.mp hcredit, rfl⟩ }
  · have hnone : w₄.db.settlementOf transferId = none := by
      refine List.find?_eq_none.mpr fun row hrow => ?_
      simpa using hrecord.unsettled row hrow
    refine (hfound₄.alone hw₄.inv.1 hnone hs₄ hr₄ n d draw).trans ?_
    rw [hdebit, hcredit]
    exact hrecord.alone

end Ledger

end PeerLedger
