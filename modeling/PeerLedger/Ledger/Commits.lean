import PeerLedger.Ledger.Wallets
import PeerLedger.Ledger.WalletHistory

/-!
# What the commits of the ledger do

`Effect` lists everything that a commit of a wallet command can do to the tables: nothing, because
the command has already been carried out (`Done`); a new wallet; one event of one wallet with its
outbox message and projection (`Recorded`); or the two events, messages and projections and the
receipt of a settlement.
-/

namespace PeerLedger

namespace Ledger

open Transactions WalletAggregate

/-! ### Single wallet events -/

/-- The hold of a wallet according to its stream. -/
def Database.hold (db : Database) (walletId holdId : String) : Option HoldState :=
  match rehydrate walletId (db.stream walletId) with
  | .ok a => a.holds.lookup holdId
  | .error _ => none

/-- The row of the next event of a wallet. -/
def nextEvent (walletId : String) (version : Int) (event : EventData) (now : Int) : StoredEvent :=
  storedEvent
    { streamId := walletId, aggregateType := "Wallet", expectedVersion := version,
      events := [event] } now 0 event

/-- The event `e` continues the stream of the wallet, whose aggregate goes from `a` to `a'`. -/
structure Recorded (db : Database) (wallet : Wallet) (a : WalletAggregate) (e : StoredEvent)
    (a' : WalletAggregate) : Prop where
  wallet_mem : wallet ∈ db.wallets
  rehydrated : rehydrate wallet.id (db.stream wallet.id) = .ok a
  ownerId : a.ownerId = some wallet.ownerId
  currency : a.currency = some wallet.currency
  streamId : e.streamId = wallet.id
  contiguous : Contiguous (db.stream wallet.id ++ [e])
  applied : a.apply e = .ok a'

/-- The writes of one wallet event. -/
def records (wallet : Wallet) (e : StoredEvent) (a' : WalletAggregate) (carrier : TraceCarrier) :
    List Write :=
  [.insertEvent e, .insertOutbox (outboxMessage e wallet carrier),
    .saveProjection (projectionFromAggregate a')]

/-- The writes of a settlement. -/
def settlementWrites (sender receiver : Wallet) (debit credit : StoredEvent)
    (s' r' : WalletAggregate) (carrier : TraceCarrier) (receipt : LedgerTransferSettlement) :
    List Write :=
  [.insertEvent debit, .insertEvent credit, .insertOutbox (outboxMessage debit sender carrier),
    .insertOutbox (outboxMessage credit receiver carrier),
    .saveProjection (projectionFromAggregate s'), .saveProjection (projectionFromAggregate r'),
    .insertSettlement receipt]

/-- The writes of a new wallet with its first event. -/
def creationWrites (wallet : Wallet) (eventId : String) (now : Int) (carrier : TraceCarrier) :
    List Write :=
  .insertWallet wallet ::
    records wallet
      (nextEvent wallet.id 0
        (createdEvent eventId wallet.ownerId wallet.currency) now)
      { empty wallet.id with
        version := 1, ownerId := some wallet.ownerId, currency := some wallet.currency }
      carrier

/-! ### Effects of commands -/

/-- The hold that a command places, and its amount. -/
inductive Command.Places : Command → String → String → String → ℚ → Prop
  | placeHold {walletId ownerId holdId amount} :
      Places (.placeHold walletId ownerId holdId amount) walletId ownerId holdId amount
  | placeTransferHold {transferId dto} :
      Places (.placeTransferHold transferId dto) dto.senderWalletId dto.senderUserId transferId
        dto.amount

/-- The hold that a command releases, and whether the hold may be missing. -/
inductive Command.Releases : Command → String → String → String → Bool → Prop
  | releaseHold {walletId ownerId holdId} :
      Releases (.releaseHold walletId ownerId holdId) walletId ownerId holdId false
  | releaseTransferHold {transferId dto} :
      Releases (.releaseTransferHold transferId dto) dto.senderWalletId dto.senderUserId transferId
        true

/-- The commands that create wallets. -/
inductive Command.Creates : Command → Prop
  | getOrCreateForUser {userId currency} : Creates (.getOrCreateForUser userId currency)
  | validateTransfer {dto} : Creates (.validateTransfer dto)

/-- The event that a command of an owner decides on for a wallet in state `a`. -/
inductive Decides (draw : Draw) (walletId ownerId : String) (a : WalletAggregate)
    (event : EventData) : Command → Prop
  | deposit {amount n} : toMinorUnits "Сума повинна бути додатною" amount = .ok n →
      a.deposit n draw.eventId draw.transactionId = .ok event →
      Decides draw walletId ownerId a event (.deposit walletId ownerId amount)
  | withdraw {amount n} : toMinorUnits "Сума повинна бути додатною" amount = .ok n →
      a.withdraw n draw.eventId draw.transactionId = .ok event →
      Decides draw walletId ownerId a event (.withdraw walletId ownerId amount)
  | place {command holdId amount n} : command.Places walletId ownerId holdId amount →
      toMinorUnits "Сума повинна бути додатною" amount = .ok n →
      a.placeHold holdId n draw.eventId = .ok (some event) →
      Decides draw walletId ownerId a event command
  | release {command holdId allow} : command.Releases walletId ownerId holdId allow →
      a.releaseHold holdId draw.eventId = .ok (some event) →
      Decides draw walletId ownerId a event command
  | consume {holdId} : a.consumeHold holdId draw.eventId draw.transactionId = .ok (some event) →
      Decides draw walletId ownerId a event (.consumeHold walletId ownerId holdId)

/-- The receipt has the parameters of the command. -/
def SettleInternalTransferDto.Matches (dto : SettleInternalTransferDto)
    (receipt : LedgerTransferSettlement) : Prop :=
  receipt.senderWalletId = dto.senderWalletId ∧ receipt.receiverWalletId = dto.receiverWalletId ∧
  toPositiveMinorUnits dto.amount = .ok receipt.amountMinor ∧ receipt.currency = dto.currency ∧
  toPositiveMinorUnits (dto.destinationAmount.getD dto.amount) =
    .ok receipt.destinationAmountMinor ∧
  receipt.destinationCurrency = dto.targetCurrency.getD dto.currency

/-- The command has nothing left to do.  A release is also done when it may be missing and the hold
was missing some time after the command started; `startDb` are the contents then. -/
inductive Done (startDb db : Database) : Command → Prop
  | created {command} {wallet : Wallet} : command.Creates → wallet ∈ db.wallets →
      Done startDb db command
  | placed {command walletId ownerId holdId amount hold} :
      command.Places walletId ownerId holdId amount → db.hold walletId holdId = some hold →
      toMinorUnits "Сума повинна бути додатною" amount = .ok hold.amountMinor →
      Done startDb db command
  | released {command walletId ownerId holdId allow} :
      command.Releases walletId ownerId holdId allow →
      (∃ n, db.hold walletId holdId = some ⟨n, .released⟩) ∨
        (allow = true ∧ startDb.hold walletId holdId = none) → Done startDb db command
  | consumed {walletId ownerId holdId n} : db.hold walletId holdId = some ⟨n, .consumed⟩ →
      Done startDb db (.consumeHold walletId ownerId holdId)
  | settled {transferId dto} {receipt : LedgerTransferSettlement} : receipt ∈ db.settlements →
      receipt.transferId = transferId → dto.Matches receipt →
      Done startDb db (.settleTransfer transferId dto)

/-- A settlement of the transfer on the contents `db`: the sender's hold is consumed by `debit`, and
`credit` is deposited with the receiver. -/
structure Settles (db : Database) (transferId : String) (dto : SettleInternalTransferDto)
    (receipt : LedgerTransferSettlement) (sender receiver : Wallet)
    (s s' r r' : WalletAggregate) (debit credit : StoredEvent) : Prop where
  transfer : receipt.transferId = transferId
  dto_matches : dto.Matches receipt
  sender_id : sender.id = receipt.senderWalletId
  receiver_id : receiver.id = receipt.receiverWalletId
  sender_currency : sender.currency = receipt.currency
  receiver_currency : receiver.currency = receipt.destinationCurrency
  distinct : sender.id ≠ receiver.id
  unsettled : ∀ row ∈ db.settlements, row.transferId ≠ transferId
  debit_recorded : Recorded db sender s debit s'
  credit_recorded : Recorded db receiver r credit r'
  debit_eq : ∃ eventId event now, decideDebit transferId receipt.amountMinor s eventId = .ok event ∧
    debit = nextEvent sender.id s.version event now
  credit_eq : ∃ eventId event now,
    r.deposit receipt.destinationAmountMinor eventId transferId = .ok event ∧
    credit = nextEvent receiver.id r.version event now

/-- Everything that the commit of a command can do to the contents `db`. -/
inductive Effect (draw : Nat → Draw) (startDb db : Database) : Command → List Write → Prop
  | noop {command} : Done startDb db command → Effect draw startDb db command []
  | created {command} {wallet : Wallet} {eventId : String} {now : Int} {carrier : TraceCarrier} :
      command.Creates → uuid wallet.id = wallet.id → (∀ row ∈ db.wallets, row.id ≠ wallet.id) →
      db.stream wallet.id = [] →
      Effect draw startDb db command (creationWrites wallet eventId now carrier)
  | recorded {command wallet a a' event now carrier} :
      Decides (draw 0) wallet.id wallet.ownerId a event command →
      Recorded db wallet a (nextEvent wallet.id a.version event now) a' →
      Effect draw startDb db command (records wallet (nextEvent wallet.id a.version event now) a' carrier)
  | settled {transferId dto receipt sender receiver s s' r r' debit credit carrier} :
      Settles db transferId dto receipt sender receiver s s' r r' debit credit →
      Effect draw startDb db (.settleTransfer transferId dto)
        (settlementWrites sender receiver debit credit s' r' carrier receipt)

/-! ### Recorded events -/

section Record

variable {db : Database} {wallet : Wallet} {a a' : WalletAggregate} {e : StoredEvent}
variable {carrier : TraceCarrier}

/-- An aggregate with an owner has replayed at least one event. -/
lemma version_ne_zero {walletId ownerId : String} {events : List StoredEvent}
    (h : rehydrate walletId events = .ok a) (ho : a.ownerId = some ownerId) : a.version ≠ 0 := by
  intro hv
  have hlen := (rehydrate_replayed h).version
  rw [hv] at hlen
  have hnil : events = [] := List.eq_nil_of_length_eq_zero (by omega)
  subst hnil
  cases h
  cases ho

lemma Recorded.rehydrated_concat (h : Recorded db wallet a e a') :
    rehydrate wallet.id (db.stream wallet.id ++ [e]) = .ok a' := by
  rw [rehydrate_concat, h.rehydrated]
  exact h.applied

lemma Recorded.id_eq (h : Recorded db wallet a e a') : a'.id = wallet.id :=
  (rehydrate_replayed h.rehydrated_concat).id

lemma Recorded.identity_eq (h : Recorded db wallet a e a') :
    a'.ownerId = some wallet.ownerId ∧ a'.currency = some wallet.currency := by
  obtain ⟨ho, hc⟩ := (apply_ok h.applied).2.identity_eq (version_ne_zero h.rehydrated h.ownerId)
  exact ⟨ho.trans h.ownerId, hc.trans h.currency⟩

/-- Only the wallet's own stream grows. -/
lemma stream_records (hs : e.streamId = wallet.id) (streamId : String) :
    (view db (records wallet e a' carrier)).stream streamId =
      if streamId = wallet.id then db.stream wallet.id ++ [e] else db.stream streamId := by
  have hins : insertedEvents (records wallet e a' carrier) = [e] := rfl
  rw [stream_view, hins]
  by_cases h : streamId = wallet.id
  · simp [h, hs]
  · simp [h, hs, Ne.symm h]

/-- An event of another wallet leaves a wallet's next event alone. -/
lemma Recorded.frame {other : Wallet} {d : StoredEvent} (h : Recorded db wallet a e a')
    (hd : d.streamId = other.id) (hne : wallet.id ≠ other.id) (b' : WalletAggregate)
    (carrier : TraceCarrier) :
    Recorded (view db (records other d b' carrier)) wallet a e a' := by
  have hstream : (view db (records other d b' carrier)).stream wallet.id = db.stream wallet.id := by
    rw [stream_records hd, if_neg hne]
  exact ⟨h.wallet_mem, hstream ▸ h.rehydrated, h.ownerId, h.currency, h.streamId,
    hstream ▸ h.contiguous, h.applied⟩

end Record

/-- The writes of a settlement record the debit, then the credit, then the receipt. -/
lemma view_settlement (db : Database) (sender receiver : Wallet) (s' r' : WalletAggregate)
    (debit credit : StoredEvent) (carrier : TraceCarrier) (receipt : LedgerTransferSettlement) :
    view db (settlementWrites sender receiver debit credit s' r' carrier receipt) =
    view (view (view db (records sender debit s' carrier)) (records receiver credit r' carrier))
      [Write.insertSettlement receipt] := rfl

/-- The aggregate after the first event of a wallet. -/
lemma rehydrate_created (wallet : Wallet) (eventId : String) (now : Int) :
    rehydrate wallet.id [nextEvent wallet.id 0
        (createdEvent eventId wallet.ownerId wallet.currency) now] =
      .ok { empty wallet.id with
        version := 1, ownerId := some wallet.ownerId, currency := some wallet.currency } := by
  rfl

end Ledger

end PeerLedger
