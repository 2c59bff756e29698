import PeerLedger.Transactions.Program
import PeerLedger.Ledger.WalletHistory
import Mathlib.Data.List.Sort

/-!
# The ledger's tables

The six tables of the ledger service with their constraints, as the migrations create them.  A
statement that inserts or saves a row computes the pending write from what its transaction sees, or
fails with the constraint that the row violates.  `Lock` lists the unique index entries and rows that
an uncommitted write occupies: a second insert of the same key waits for the first transaction.
-/

namespace PeerLedger

namespace Ledger

open Transactions

/-- The text of an id in a `uuid` column: the letters of what was given are in lower case. -/
def uuid (id : String) : String := String.ofList (id.toList.map Char.toLower)

@[simp]
lemma uuid_uuid (id : String) : uuid (uuid id) = uuid id := by
  have hlower : Char.toLower ∘ Char.toLower = Char.toLower := by
    funext c
    rw [Function.comp_apply]
    unfold Char.toLower
    simp only [UInt32.le_iff_toNat_le]
    split_ifs with hupper hagain
    · -- a letter in lower case is not in upper case
      simp at hupper hagain
      omega
    · rfl
    · rfl
  simp [uuid, String.toList_ofList, List.map_map, hlower]

/-- The errors that the ledger service throws. -/
inductive LedgerError where
  /-- `TypeError` of an invalid append request. -/
  | typeError (message : String)
  | expectedStreamVersion (streamId : String) (expectedVersion : Int) (actualVersion : Option Int)
  | streamAggregateType (streamId expectedAggregateType actualAggregateType : String)
  | duplicateEventId (eventId : Option String)
  /-- A database error `23505`, with the name of the violated constraint. -/
  | uniqueViolation (constraint : String)
  /-- Any other database error, with its code. -/
  | queryFailed (code : String)
  | badRequest (message : String)
  | notFound (message : String)
  | conflict (message : String)
  /-- A plain `Error`. -/
  | error (message : String)
deriving DecidableEq

/-- A row of `users`, without its credentials. -/
structure User where
  id : String
  email : String
deriving DecidableEq

/-- A row of `wallets`. -/
structure Wallet where
  id : String
  ownerId : String
  currency : String
deriving DecidableEq

/-- A row of `wallet_balance_projection`. -/
structure WalletBalanceProjection where
  walletId : String
  balanceMinor : Int
  heldMinor : Int
  availableMinor : Int
  streamVersion : Int
deriving DecidableEq

/-- A row of `ledger_transfer_settlements`: the receipt of a settled transfer. -/
structure LedgerTransferSettlement where
  transferId : String
  senderWalletId : String
  receiverWalletId : String
  amountMinor : Int
  currency : String
  destinationAmountMinor : Int
  destinationCurrency : String
deriving DecidableEq

/-- The trace context of a request. -/
structure TraceCarrier where
  traceId : Option String := none
  traceparent : Option String := none
  tracestate : Option String := none

/-- The envelope of an integration event. -/
structure IntegrationEventEnvelope where
  eventId : String
  eventType : String
  schemaVersion : Int
  occurredAt : Int
  producer : String
  correlationId : Option String
  traceId : Option String
  traceparent : Option String
  tracestate : Option String
  aggregateType : String
  aggregateId : String
  aggregateVersion : Int
  payload : Json

/-- A row of `integration_outbox`. -/
structure OutboxMessage where
  eventId : String
  routingKey : String
  event : IntegrationEventEnvelope
  attempts : Int
  availableAt : Int
  lockedUntil : Option Int
  lockId : Option String
  publishedAt : Option Int
  lastError : Option String

/-- The contents of the ledger database; the rows of a table are in order of insertion. -/
structure Database where
  users : List User
  wallets : List Wallet
  events : List StoredEvent
  outbox : List OutboxMessage
  projections : List WalletBalanceProjection
  settlements : List LedgerTransferSettlement

/-- The database as the migrations leave it, with some users. -/
def Database.initial (users : List User) : Database :=
  { users, wallets := [], events := [], outbox := [], projections := [], settlements := [] }

/-- The writes of the ledger's transactions. -/
inductive Write where
  | insertWallet (wallet : Wallet)
  | insertEvent (event : StoredEvent)
  | insertOutbox (message : OutboxMessage)
  | saveProjection (projection : WalletBalanceProjection)
  | insertSettlement (settlement : LedgerTransferSettlement)

/-- What an uncommitted write occupies. -/
inductive Lock where
  | walletId (id : String)
  | walletOwnerCurrency (ownerId currency : String)
  | eventId (id : String)
  | streamVersion (streamId : String) (version : Int)
  | outboxId (id : String)
  | projection (walletId : String)
  | settlement (transferId : String)
deriving DecidableEq

/-- `save` of a projection: the row of the wallet is updated, or inserted when there is none. -/
def saveRow (p : WalletBalanceProjection) (rows : List WalletBalanceProjection) :
    List WalletBalanceProjection :=
  if rows.any fun row => row.walletId = p.walletId then
    rows.map fun row => if row.walletId = p.walletId then p else row
  else rows ++ [p]

/-- The contents after a write. -/
def Database.apply (db : Database) : Write → Database
  | .insertWallet wallet => { db with wallets := db.wallets ++ [wallet] }
  | .insertEvent event => { db with events := db.events ++ [event] }
  | .insertOutbox message => { db with outbox := db.outbox ++ [message] }
  | .saveProjection p => { db with projections := saveRow p db.projections }
  | .insertSettlement s => { db with settlements := db.settlements ++ [s] }

/-- The unique index entries and rows of a write. -/
def Write.locks : Write → List Lock
  | .insertWallet wallet => [.walletId wallet.id, .walletOwnerCurrency wallet.ownerId wallet.currency]
  | .insertEvent event =>
    [.eventId event.eventId, .streamVersion event.streamId event.streamVersion]
  | .insertOutbox message => [.outboxId message.eventId]
  | .saveProjection p => [.projection p.walletId]
  | .insertSettlement s => [.settlement s.transferId]

instance : Store Database Write Lock where
  apply := Database.apply
  locks := Write.locks

/-! ### Queries -/

namespace Database

/-- The events of a stream, in order of insertion. -/
def stream (db : Database) (streamId : String) : List StoredEvent :=
  db.events.filter fun event => event.streamId = streamId

/-- Events in order of their version. -/
def orderByVersion (events : List StoredEvent) : List StoredEvent :=
  events.insertionSort fun e e' => e.streamVersion ≤ e'.streamVersion

/-- The stream from a version on, in ascending order. -/
def loadStream (db : Database) (streamId : String) (fromVersion : Int := 1) : List StoredEvent :=
  orderByVersion ((db.stream streamId).filter fun event => fromVersion ≤ event.streamVersion)

/-- The event of the stream with the highest version. -/
def latest (db : Database) (streamId : String) : Option StoredEvent :=
  (orderByVersion (db.stream streamId)).getLast?

/-- The events of the stream with versions between two bounds, in ascending order. -/
def between (db : Database) (streamId : String) (first last : Int) : List StoredEvent :=
  orderByVersion ((db.stream streamId).filter fun event =>
    first ≤ event.streamVersion ∧ event.streamVersion ≤ last)

/-- The wallet with an id. -/
def walletById (db : Database) (walletId : String) : Option Wallet :=
  db.wallets.find? fun wallet => wallet.id = walletId

/-- The projection row of a wallet. -/
def projectionOf (db : Database) (walletId : String) : Option WalletBalanceProjection :=
  db.projections.find? fun row => row.walletId = walletId

/-- The receipt of a transfer. -/
def settlementOf (db : Database) (transferId : String) : Option LedgerTransferSettlement :=
  db.settlements.find? fun row => row.transferId = transferId

end Database

/-! ### Inserts and their constraints -/

/-- The values that fit a `bigint` column. -/
def fitsBigint (n : Int) : Prop := -2 ^ 63 ≤ n ∧ n < 2 ^ 63

instance (n : Int) : Decidable (fitsBigint n) := inferInstanceAs (Decidable (_ ∧ _))

/-- The values that fit an `integer` column. -/
def fitsInteger (n : Int) : Prop := -2 ^ 31 ≤ n ∧ n < 2 ^ 31

instance (n : Int) : Decidable (fitsInteger n) := inferInstanceAs (Decidable (_ ∧ _))

def EVENT_ID_CONSTRAINT : String := "PK_ledger_events"
def STREAM_VERSION_CONSTRAINT : String := "UQ_ledger_events_stream_version"

/-- `INSERT INTO ledger_events` of one row. -/
def insertEvent (event : StoredEvent) (db : Database) : Except LedgerError (List Write) :=
  if ¬ (fitsInteger event.streamVersion ∧ fitsInteger event.schemaVersion) then
    .error (.queryFailed "22003")
  else if event.streamVersion ≤ 0 ∨ event.schemaVersion ≤ 0 then .error (.queryFailed "23514")
  else if db.events.any fun row => row.eventId = event.eventId then
    .error (.uniqueViolation EVENT_ID_CONSTRAINT)
  else if db.events.any fun row =>
      row.streamId = event.streamId ∧ row.streamVersion = event.streamVersion then
    .error (.uniqueViolation STREAM_VERSION_CONSTRAINT)
  else .ok [.insertEvent event]

/-- `INSERT INTO wallets`. -/
def insertWallet (wallet : Wallet) (db : Database) : Except LedgerError (List Write) :=
  if db.wallets.any fun row => row.id = wallet.id then .error (.uniqueViolation "PK_wallets")
  else if db.wallets.any fun row => row.ownerId = wallet.ownerId ∧ row.currency = wallet.currency then
    .error (.uniqueViolation "UQ_wallets_owner_currency")
  else if db.users.any fun user => user.id = wallet.ownerId then .ok [.insertWallet wallet]
  else .error (.queryFailed "23503")

/-- `INSERT INTO integration_outbox` of one row. -/
def insertOutbox (message : OutboxMessage) (db : Database) : Except LedgerError (List Write) :=
  if db.outbox.any fun row => row.eventId = message.eventId then
    .error (.uniqueViolation "integration_outbox_pkey")
  else .ok [.insertOutbox message]

/-- `save` of a projection row, with the checks of the table.  A row that is there under another spelling
of its id is not recognised as the same, and is inserted again. -/
def saveProjection (p : WalletBalanceProjection) (db : Database) : Except LedgerError (List Write) :=
  if ¬ (fitsBigint p.balanceMinor ∧ fitsBigint p.heldMinor ∧ fitsBigint p.availableMinor) then
    .error (.queryFailed "22003")
  else if p.balanceMinor < 0 ∨ p.heldMinor < 0 ∨ p.availableMinor < 0 ∨ p.streamVersion ≤ 0 ∨
      p.availableMinor ≠ p.balanceMinor - p.heldMinor then .error (.queryFailed "23514")
  else if db.wallets.any fun wallet => wallet.id = p.walletId then .ok [.saveProjection p]
  else if db.projections.any fun row => row.walletId = uuid p.walletId then
    .error (.uniqueViolation "wallet_balance_projection_pkey")
  else .error (.queryFailed "23503")

/-- `INSERT INTO ledger_transfer_settlements`. -/
def insertSettlement (s : LedgerTransferSettlement) (db : Database) :
    Except LedgerError (List Write) :=
  if ¬ (fitsBigint s.amountMinor ∧ fitsBigint s.destinationAmountMinor) then
    .error (.queryFailed "22003")
  else if s.amountMinor ≤ 0 ∨ s.destinationAmountMinor ≤ 0 ∨ s.senderWalletId = s.receiverWalletId then
    .error (.queryFailed "23514")
  else if db.settlements.any fun row => row.transferId = s.transferId then
    .error (.uniqueViolation "ledger_transfer_settlements_pkey")
  else if (db.wallets.any fun wallet => wallet.id = s.senderWalletId) ∧
      db.wallets.any fun wallet => wallet.id = s.receiverWalletId then .ok [.insertSettlement s]
  else .error (.queryFailed "23503")

/-! ### What pending writes add to the tables -/

/-- The events that writes insert. -/
def insertedEvents (ws : List Write) : List StoredEvent :=
  ws.filterMap fun
    | .insertEvent event => some event
    | _ => none

/-- The wallets that writes insert. -/
def insertedWallets (ws : List Write) : List Wallet :=
  ws.filterMap fun
    | .insertWallet wallet => some wallet
    | _ => none

/-- The outbox messages that writes insert. -/
def insertedOutbox (ws : List Write) : List OutboxMessage :=
  ws.filterMap fun
    | .insertOutbox message => some message
    | _ => none

/-- The receipts that writes insert. -/
def insertedSettlements (ws : List Write) : List LedgerTransferSettlement :=
  ws.filterMap fun
    | .insertSettlement s => some s
    | _ => none

@[simp]
lemma insertedEvents_nil : insertedEvents [] = [] := rfl

@[simp]
lemma insertedEvents_append (ws ws' : List Write) :
    insertedEvents (ws ++ ws') = insertedEvents ws ++ insertedEvents ws' :=
  List.filterMap_append

lemma mem_insertedEvents {ws : List Write} {event : StoredEvent} :
    event ∈ insertedEvents ws ↔ .insertEvent event ∈ ws := by
  simp only [insertedEvents, List.mem_filterMap]
  constructor
  · rintro ⟨w, hw, he⟩
    cases w <;> simp_all
  · exact fun h => ⟨_, h, rfl⟩

lemma mem_insertedWallets {ws : List Write} {wallet : Wallet} :
    wallet ∈ insertedWallets ws ↔ .insertWallet wallet ∈ ws := by
  simp only [insertedWallets, List.mem_filterMap]
  constructor
  · rintro ⟨w, hw, he⟩
    cases w <;> simp_all
  · exact fun h => ⟨_, h, rfl⟩

lemma mem_insertedOutbox {ws : List Write} {message : OutboxMessage} :
    message ∈ insertedOutbox ws ↔ .insertOutbox message ∈ ws := by
  simp only [insertedOutbox, List.mem_filterMap]
  constructor
  · rintro ⟨w, hw, he⟩
    cases w <;> simp_all
  · exact fun h => ⟨_, h, rfl⟩

lemma mem_insertedSettlements {ws : List Write} {s : LedgerTransferSettlement} :
    s ∈ insertedSettlements ws ↔ .insertSettlement s ∈ ws := by
  simp only [insertedSettlements, List.mem_filterMap]
  constructor
  · rintro ⟨w, hw, he⟩
    cases w <;> simp_all
  · exact fun h => ⟨_, h, rfl⟩

/-- No statement of the ledger writes `users`. -/
@[simp]
lemma users_view (db : Database) (ws : List Write) : (view db ws).users = db.users := by
  induction ws generalizing db with
  | nil => rfl
  | cons w ws ih =>
    rw [view_cons, ih]
    cases w <;> rfl

/-- The events after pending writes. -/
@[simp]
lemma events_view (db : Database) (ws : List Write) :
    (view db ws).events = db.events ++ insertedEvents ws := by
  induction ws generalizing db with
  | nil => simp [insertedEvents]
  | cons w ws ih =>
    rw [view_cons, ih]
    cases w <;> simp [Store.apply, Database.apply, insertedEvents]

/-- The wallets after pending writes. -/
@[simp]
lemma wallets_view (db : Database) (ws : List Write) :
    (view db ws).wallets = db.wallets ++ insertedWallets ws := by
  induction ws generalizing db with
  | nil => simp [insertedWallets]
  | cons w ws ih =>
    rw [view_cons, ih]
    cases w <;> simp [Store.apply, Database.apply, insertedWallets]

/-- The outbox after pending writes. -/
@[simp]
lemma outbox_view (db : Database) (ws : List Write) :
    (view db ws).outbox = db.outbox ++ insertedOutbox ws := by
  induction ws generalizing db with
  | nil => simp [insertedOutbox]
  | cons w ws ih =>
    rw [view_cons, ih]
    cases w <;> simp [Store.apply, Database.apply, insertedOutbox]

/-- The receipts after pending writes. -/
@[simp]
lemma settlements_view (db : Database) (ws : List Write) :
    (view db ws).settlements = db.settlements ++ insertedSettlements ws := by
  induction ws generalizing db with
  | nil => simp [insertedSettlements]
  | cons w ws ih =>
    rw [view_cons, ih]
    cases w <;> simp [Store.apply, Database.apply, insertedSettlements]

/-- The stream after pending writes. -/
lemma stream_view (db : Database) (ws : List Write) (streamId : String) :
    (view db ws).stream streamId =
      db.stream streamId ++ (insertedEvents ws).filter fun event => event.streamId = streamId := by
  simp [Database.stream]

/-- Saving a row replaces the row of its wallet. -/
lemma mem_saveRow {p row : WalletBalanceProjection} {rows : List WalletBalanceProjection} :
    row ∈ saveRow p rows ↔ row = p ∨ (row ∈ rows ∧ row.walletId ≠ p.walletId) := by
  unfold saveRow
  split_ifs with h
  · simp only [List.any_eq_true, decide_eq_true_eq, List.mem_map] at h ⊢
    obtain ⟨old, hold, hid⟩ := h
    constructor
    · rintro ⟨x, hx, rfl⟩
      split_ifs with hxp
      · exact .inl rfl
      · exact .inr ⟨hx, hxp⟩
    · rintro (rfl | ⟨hrow, hne⟩)
      · exact ⟨old, hold, by simp [hid]⟩
      · exact ⟨row, hrow, by simp [hne]⟩
  · simp only [List.any_eq_true, decide_eq_true_eq, not_exists, not_and] at h
    simp only [List.mem_append, List.mem_singleton]
    constructor
    · exact fun hrow => hrow.elim (fun hrow => .inr ⟨hrow, h row hrow⟩) .inl
    · exact fun hrow => hrow.elim .inr fun hrow => .inl hrow.1

/-- Saving a row adds its wallet if it had no row. -/
lemma map_walletId_saveRow (p : WalletBalanceProjection) (rows : List WalletBalanceProjection) :
    (saveRow p rows).map (·.walletId) =
      if p.walletId ∈ rows.map (·.walletId) then rows.map (·.walletId)
      else rows.map (·.walletId) ++ [p.walletId] := by
  have hany : (rows.any fun row => row.walletId = p.walletId) = true ↔
      p.walletId ∈ rows.map (·.walletId) := by
    simp [List.any_eq_true]
  unfold saveRow
  simp only [hany]
  split_ifs with h
  · rw [List.map_map]
    refine List.map_congr_left fun row _ => ?_
    simp only [Function.comp]
    split_ifs with hp
    · exact hp.symm
    · rfl
  · simp

/-! ### Tables that only grow -/

/-- `db'` has the rows of `db` and further rows, none of which occupies one of the `locked` index
entries.  Projections are rewritten in place. -/
structure Database.Grows (locked : List Lock) (db db' : Database) : Prop where
  users : db'.users = db.users
  wallets : ∃ more, db'.wallets = db.wallets ++ more ∧
    ∀ x ∈ more, List.Disjoint locked (Write.insertWallet x).locks
  events : ∃ more, db'.events = db.events ++ more ∧
    ∀ x ∈ more, List.Disjoint locked (Write.insertEvent x).locks
  outbox : ∃ more, db'.outbox = db.outbox ++ more ∧
    ∀ x ∈ more, List.Disjoint locked (Write.insertOutbox x).locks
  settlements : ∃ more, db'.settlements = db.settlements ++ more ∧
    ∀ x ∈ more, List.Disjoint locked (Write.insertSettlement x).locks

namespace Database.Grows

variable {locked locked' : List Lock} {a b c : Database}

lemma refl (locked : List Lock) (db : Database) : db.Grows locked db :=
  ⟨rfl, ⟨[], by simp⟩, ⟨[], by simp⟩, ⟨[], by simp⟩, ⟨[], by simp⟩⟩

lemma trans (h : a.Grows locked b) (h' : b.Grows locked c) : a.Grows locked c := by
  obtain ⟨hu, ⟨mw, hw, hw'⟩, ⟨me, he, he'⟩, ⟨mo, ho, ho'⟩, ⟨ms, hs, hs'⟩⟩ := h
  obtain ⟨ku, ⟨nw, kw, kw'⟩, ⟨ne, ke, ke'⟩, ⟨no, ko, ko'⟩, ⟨ns, ks, ks'⟩⟩ := h'
  refine ⟨ku.trans hu, ⟨mw ++ nw, by simp [kw, hw], ?_⟩, ⟨me ++ ne, by simp [ke, he], ?_⟩,
    ⟨mo ++ no, by simp [ko, ho], ?_⟩, ⟨ms ++ ns, by simp [ks, hs], ?_⟩⟩
  · exact fun x hx => (List.mem_append.mp hx).elim (hw' x) (kw' x)
  · exact fun x hx => (List.mem_append.mp hx).elim (he' x) (ke' x)
  · exact fun x hx => (List.mem_append.mp hx).elim (ho' x) (ko' x)
  · exact fun x hx => (List.mem_append.mp hx).elim (hs' x) (ks' x)

/-- Fewer locks leave more room to grow. -/
lemma mono (hl : locked' ⊆ locked) (h : a.Grows locked b) : a.Grows locked' b := by
  obtain ⟨hu, ⟨mw, hw, hw'⟩, ⟨me, he, he'⟩, ⟨mo, ho, ho'⟩, ⟨ms, hs, hs'⟩⟩ := h
  exact ⟨hu, ⟨mw, hw, fun x hx _ hk => hw' x hx (hl hk)⟩, ⟨me, he, fun x hx _ hk => he' x hx (hl hk)⟩,
    ⟨mo, ho, fun x hx _ hk => ho' x hx (hl hk)⟩, ⟨ms, hs, fun x hx _ hk => hs' x hx (hl hk)⟩⟩

/-- Committed writes add their rows, which occupy the locks of the writes. -/
lemma of_view (db : Database) {ws : List Write}
    (h : List.Disjoint locked (locksOf (σ := Database) ws)) : db.Grows locked (view db ws) := by
  have hdisj : ∀ w ∈ ws, List.Disjoint locked w.locks := fun w hw k hk hkw =>
    h hk (List.mem_flatMap.mpr ⟨w, hw, hkw⟩)
  refine ⟨users_view db ws, ⟨_, wallets_view db ws, ?_⟩, ⟨_, events_view db ws, ?_⟩,
    ⟨_, outbox_view db ws, ?_⟩, ⟨_, settlements_view db ws, ?_⟩⟩
  · exact fun x hx => hdisj _ (mem_insertedWallets.mp hx)
  · exact fun x hx => hdisj _ (mem_insertedEvents.mp hx)
  · exact fun x hx => hdisj _ (mem_insertedOutbox.mp hx)
  · exact fun x hx => hdisj _ (mem_insertedSettlements.mp hx)

/-- Committed writes add their rows. -/
lemma of_writes (db : Database) (ws : List Write) : db.Grows [] (view db ws) :=
  of_view db (List.disjoint_nil_left _)

/-- A stream of a growing database only grows. -/
lemma stream (h : a.Grows locked b) (streamId : String) : a.stream streamId <+: b.stream streamId := by
  obtain ⟨more, hmore, -⟩ := h.events
  exact ⟨more.filter fun event => event.streamId = streamId, by simp [Database.stream, hmore]⟩

/-- A wallet that is there stays. -/
lemma walletById (h : a.Grows locked b) {walletId : String} {wallet : Wallet}
    (hw : a.walletById walletId = some wallet) : b.walletById walletId = some wallet := by
  obtain ⟨more, hmore, -⟩ := h.wallets
  simp only [Database.walletById] at hw ⊢
  rw [hmore, List.find?_append, hw, Option.some_or]

/-- Receipts stay. -/
lemma mem_settlements (h : a.Grows locked b) {s : LedgerTransferSettlement}
    (hs : s ∈ a.settlements) : s ∈ b.settlements := by
  obtain ⟨more, hmore, -⟩ := h.settlements
  exact hmore ▸ List.mem_append_left _ hs

/-- Wallets stay. -/
lemma mem_wallets (h : a.Grows locked b) {wallet : Wallet} (hw : wallet ∈ a.wallets) :
    wallet ∈ b.wallets := by
  obtain ⟨more, hmore, -⟩ := h.wallets
  exact hmore ▸ List.mem_append_left _ hw

/-- A receipt that is there is still the one that is found. -/
lemma settlementOf (h : a.Grows locked b) {transferId : String} {s : LedgerTransferSettlement}
    (hs : a.settlementOf transferId = some s) : b.settlementOf transferId = some s := by
  obtain ⟨more, hmore, -⟩ := h.settlements
  simp only [Database.settlementOf] at hs ⊢
  rw [hmore, List.find?_append, hs, Option.some_or]

end Database.Grows

/-! ### When a statement succeeds, and that it then keeps succeeding -/

/-- A check that throws lets through what fails its condition. -/
lemma ite_error_eq_ok {ε α : Type} {c : Prop} [Decidable c] {e : ε} {x : Except ε α} {a : α} :
    (if c then .error e else x) = .ok a ↔ ¬ c ∧ x = .ok a := by
  split_ifs with h <;> simp [h]

/-- A check that throws otherwise lets through what meets its condition. -/
lemma ite_ok_eq_ok {ε α : Type} {c : Prop} [Decidable c] {e : ε} {a b : α} :
    (if c then .ok b else .error e : Except ε α) = .ok a ↔ c ∧ a = b := by
  split_ifs with h <;> simp [h, eq_comm]

/-- An event is inserted when its numbers are in range and its two keys are free. -/
lemma insertEvent_ok {event : StoredEvent} {db : Database} {ws : List Write} :
    insertEvent event db = .ok ws ↔ ws = [.insertEvent event] ∧
      (fitsInteger event.streamVersion ∧ fitsInteger event.schemaVersion) ∧
      (0 < event.streamVersion ∧ 0 < event.schemaVersion) ∧
      (∀ row ∈ db.events, row.eventId ≠ event.eventId) ∧
      ∀ row ∈ db.events, row.streamId = event.streamId →
        row.streamVersion ≠ event.streamVersion := by
  simp only [insertEvent, ite_error_eq_ok, not_or, not_le, List.any_eq_true,
    decide_eq_true_eq, not_exists, not_and, Except.ok.injEq, ne_eq, eq_comm (b := ws)]
  tauto

/-- A wallet is inserted when its keys are free and its owner exists. -/
lemma insertWallet_ok {wallet : Wallet} {db : Database} {ws : List Write} :
    insertWallet wallet db = .ok ws ↔ ws = [.insertWallet wallet] ∧
      (∀ row ∈ db.wallets, row.id ≠ wallet.id) ∧
      (∀ row ∈ db.wallets, row.ownerId = wallet.ownerId → row.currency ≠ wallet.currency) ∧
      ∃ user ∈ db.users, user.id = wallet.ownerId := by
  simp only [insertWallet, ite_error_eq_ok, ite_ok_eq_ok, List.any_eq_true, decide_eq_true_eq,
    not_exists, not_and, ne_eq]
  tauto

/-- An outbox message is inserted when its id is free. -/
lemma insertOutbox_ok {message : OutboxMessage} {db : Database} {ws : List Write} :
    insertOutbox message db = .ok ws ↔ ws = [.insertOutbox message] ∧
      ∀ row ∈ db.outbox, row.eventId ≠ message.eventId := by
  simp only [insertOutbox, ite_error_eq_ok, List.any_eq_true, decide_eq_true_eq, not_exists,
    not_and, Except.ok.injEq, ne_eq, eq_comm (b := ws)]
  tauto

/-- The checks of `wallet_balance_projection` on one row. -/
def WalletBalanceProjection.Valid (p : WalletBalanceProjection) : Prop :=
  (fitsBigint p.balanceMinor ∧ fitsBigint p.heldMinor ∧ fitsBigint p.availableMinor) ∧
  0 ≤ p.balanceMinor ∧ 0 ≤ p.heldMinor ∧ 0 ≤ p.availableMinor ∧ 0 < p.streamVersion ∧
  p.availableMinor = p.balanceMinor - p.heldMinor

/-- A projection is saved when it passes the checks and its wallet exists. -/
lemma saveProjection_ok {p : WalletBalanceProjection} {db : Database} {ws : List Write} :
    saveProjection p db = .ok ws ↔ ws = [.saveProjection p] ∧ p.Valid ∧
      ∃ wallet ∈ db.wallets, wallet.id = p.walletId := by
  simp only [saveProjection, WalletBalanceProjection.Valid, ite_error_eq_ok, not_not, not_or, not_le,
    not_lt, ne_eq]
  split_ifs with hwallet
  · have hexists : ∃ wallet ∈ db.wallets, wallet.id = p.walletId := by simpa using hwallet
    simp only [Except.ok.injEq, hexists, and_true]
    tauto
  · have hnone : ¬ ∃ wallet ∈ db.wallets, wallet.id = p.walletId := by simpa using hwallet
    simp [hnone]
  · have hnone : ¬ ∃ wallet ∈ db.wallets, wallet.id = p.walletId := by simpa using hwallet
    simp [hnone]

/-- The checks of `ledger_transfer_settlements` on one row. -/
def LedgerTransferSettlement.Valid (s : LedgerTransferSettlement) : Prop :=
  (fitsBigint s.amountMinor ∧ fitsBigint s.destinationAmountMinor) ∧
  0 < s.amountMinor ∧ 0 < s.destinationAmountMinor ∧ s.senderWalletId ≠ s.receiverWalletId

/-- A receipt is inserted when it passes the checks, its transfer has none yet, and its wallets
exist. -/
lemma insertSettlement_ok {s : LedgerTransferSettlement} {db : Database} {ws : List Write} :
    insertSettlement s db = .ok ws ↔ ws = [.insertSettlement s] ∧ s.Valid ∧
      (∀ row ∈ db.settlements, row.transferId ≠ s.transferId) ∧
      (∃ wallet ∈ db.wallets, wallet.id = s.senderWalletId) ∧
      ∃ wallet ∈ db.wallets, wallet.id = s.receiverWalletId := by
  simp only [insertSettlement, LedgerTransferSettlement.Valid, ite_error_eq_ok, ite_ok_eq_ok,
    not_or, not_le, not_exists, not_and, List.any_eq_true, decide_eq_true_eq, ne_eq]
  tauto

section Stable

variable {p ws : List Write} {db db' : Database}

lemma locks_subset_locksOf {w : Write} (h : w ∈ p) : w.locks ⊆ locksOf (σ := Database) p :=
  fun _ hk => List.mem_flatMap.mpr ⟨w, h, hk⟩

/-- An inserted event keeps its keys free of rows of other transactions. -/
lemma insertEvent_stable {event : StoredEvent} (h : insertEvent event (view db p) = .ok ws)
    (hg : db.Grows (locksOf (σ := Database) (p ++ ws)) db') : insertEvent event (view db' p) = .ok ws := by
  obtain ⟨rfl, hfit, hpos, hid, hver⟩ := insertEvent_ok.mp h
  obtain ⟨more, hmore, hdisj⟩ := hg.events
  have hlocks : ∀ k ∈ (Write.insertEvent event).locks,
      k ∈ locksOf (σ := Database) (p ++ [.insertEvent event]) :=
    locks_subset_locksOf (by simp)
  refine insertEvent_ok.mpr ⟨rfl, hfit, hpos, fun row hrow => ?_, fun row hrow hs hv => ?_⟩
  · simp only [events_view, hmore, List.mem_append] at hrow
    rcases hrow with (hrow | hrow) | hrow
    · exact hid row (by simp [hrow])
    · exact fun he => hdisj row hrow (hlocks (.eventId event.eventId) (by simp [Write.locks]))
        (by simp [Write.locks, he])
    · exact hid row (by simp [hrow])
  · simp only [events_view, hmore, List.mem_append] at hrow
    rcases hrow with (hrow | hrow) | hrow
    · exact hver row (by simp [hrow]) hs hv
    · exact hdisj row hrow
        (hlocks (.streamVersion event.streamId event.streamVersion) (by simp [Write.locks]))
        (by simp [Write.locks, hs, hv])
    · exact hver row (by simp [hrow]) hs hv

/-- An inserted wallet keeps its keys free of rows of other transactions. -/
lemma insertWallet_stable {wallet : Wallet} (h : insertWallet wallet (view db p) = .ok ws)
    (hg : db.Grows (locksOf (σ := Database) (p ++ ws)) db') : insertWallet wallet (view db' p) = .ok ws := by
  obtain ⟨rfl, hid, hown, huser⟩ := insertWallet_ok.mp h
  obtain ⟨more, hmore, hdisj⟩ := hg.wallets
  have hlocks : ∀ k ∈ (Write.insertWallet wallet).locks,
      k ∈ locksOf (σ := Database) (p ++ [.insertWallet wallet]) :=
    locks_subset_locksOf (by simp)
  refine insertWallet_ok.mpr ⟨rfl, fun row hrow => ?_, fun row hrow ho hc => ?_, ?_⟩
  · simp only [wallets_view, hmore, List.mem_append] at hrow
    rcases hrow with (hrow | hrow) | hrow
    · exact hid row (by simp [hrow])
    · exact fun he => hdisj row hrow (hlocks (.walletId wallet.id) (by simp [Write.locks]))
        (by simp [Write.locks, he])
    · exact hid row (by simp [hrow])
  · simp only [wallets_view, hmore, List.mem_append] at hrow
    rcases hrow with (hrow | hrow) | hrow
    · exact hown row (by simp [hrow]) ho hc
    · exact hdisj row hrow
        (hlocks (.walletOwnerCurrency wallet.ownerId wallet.currency) (by simp [Write.locks]))
        (by simp [Write.locks, ho, hc])
    · exact hown row (by simp [hrow]) ho hc
  · simpa [hg.users] using huser

/-- An inserted outbox message keeps its id free of rows of other transactions. -/
lemma insertOutbox_stable {message : OutboxMessage}
    (h : insertOutbox message (view db p) = .ok ws)
    (hg : db.Grows (locksOf (σ := Database) (p ++ ws)) db') : insertOutbox message (view db' p) = .ok ws := by
  obtain ⟨rfl, hid⟩ := insertOutbox_ok.mp h
  obtain ⟨more, hmore, hdisj⟩ := hg.outbox
  have hlocks : ∀ k ∈ (Write.insertOutbox message).locks,
      k ∈ locksOf (σ := Database) (p ++ [.insertOutbox message]) :=
    locks_subset_locksOf (by simp)
  refine insertOutbox_ok.mpr ⟨rfl, fun row hrow => ?_⟩
  simp only [outbox_view, hmore, List.mem_append] at hrow
  rcases hrow with (hrow | hrow) | hrow
  · exact hid row (by simp [hrow])
  · exact fun he => hdisj row hrow (hlocks (.outboxId message.eventId) (by simp [Write.locks]))
      (by simp [Write.locks, he])
  · exact hid row (by simp [hrow])

/-- The wallet of a saved projection stays. -/
lemma saveProjection_stable {row : WalletBalanceProjection}
    (h : saveProjection row (view db p) = .ok ws) {locked : List Lock}
    (hg : db.Grows locked db') : saveProjection row (view db' p) = .ok ws := by
  obtain ⟨rfl, hvalid, wallet, hw, hid⟩ := saveProjection_ok.mp h
  obtain ⟨more, hmore, -⟩ := hg.wallets
  refine saveProjection_ok.mpr ⟨rfl, hvalid, wallet, ?_, hid⟩
  simp only [wallets_view, hmore, List.mem_append] at hw ⊢
  tauto

/-- An inserted receipt keeps its transfer id free of rows of other transactions. -/
lemma insertSettlement_stable {s : LedgerTransferSettlement}
    (h : insertSettlement s (view db p) = .ok ws)
    (hg : db.Grows (locksOf (σ := Database) (p ++ ws)) db') : insertSettlement s (view db' p) = .ok ws := by
  obtain ⟨rfl, hvalid, hid, ⟨sender, hsender, hsid⟩, receiver, hreceiver, hrid⟩ :=
    insertSettlement_ok.mp h
  obtain ⟨more, hmore, hdisj⟩ := hg.settlements
  obtain ⟨moreW, hmoreW, -⟩ := hg.wallets
  have hlocks : ∀ k ∈ (Write.insertSettlement s).locks,
      k ∈ locksOf (σ := Database) (p ++ [.insertSettlement s]) :=
    locks_subset_locksOf (by simp)
  refine insertSettlement_ok.mpr ⟨rfl, hvalid, fun row hrow => ?_, ⟨sender, ?_, hsid⟩,
    receiver, ?_, hrid⟩
  · simp only [settlements_view, hmore, List.mem_append] at hrow
    rcases hrow with (hrow | hrow) | hrow
    · exact hid row (by simp [hrow])
    · exact fun he => hdisj row hrow (hlocks (.settlement s.transferId) (by simp [Write.locks]))
        (by simp [Write.locks, he])
    · exact hid row (by simp [hrow])
  · simp only [wallets_view, hmoreW, List.mem_append] at hsender ⊢
    tauto
  · simp only [wallets_view, hmoreW, List.mem_append] at hreceiver ⊢
    tauto

end Stable

end Ledger

end PeerLedger
