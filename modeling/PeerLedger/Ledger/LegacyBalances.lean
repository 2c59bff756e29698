import PeerLedger.Ledger.WalletCreation

/-!
# The migration of legacy balances

Before the event store a wallet kept its money in a column `wallets.balance`.  The migration
`EventSourceWalletBalances` writes the two events of which such a balance is the result, computes the
projection from the events, and drops the column; `AddHeldBalanceProjection` gives the projection its
columns for holds.  Both have a way down.

The statements of the migrations are functions on the tables that they touch.  Each run of
migrations is one transaction (`migrate`).  `legacy_balances_preserved` is about the way up, down and
up again.
-/

namespace PeerLedger

namespace Ledger

open Transactions WalletAggregate

/-! ### Tables and columns -/

/-- A value of type `numeric(18,2)`: eighteen digits, the last two of them hundredths. -/
structure Numeric where
  hundredths : Int
  bounded : hundredths.natAbs < 1000000000000000000
deriving DecidableEq

def Numeric.value (x : Numeric) : ℚ := x.hundredths / 100

/-- `wallets`, with its legacy column or without. -/
inductive WalletTable where
  | legacy (rows : List (Wallet × Numeric))
  | migrated (rows : List Wallet)

def WalletTable.wallets : WalletTable → List Wallet
  | .legacy rows => rows.map (·.1)
  | .migrated rows => rows

/-- A row of `wallet_balance_projection` before it has columns for holds. -/
structure BalanceRow where
  walletId : String
  balanceMinor : Int
  streamVersion : Int
deriving DecidableEq

/-- `wallet_balance_projection`, without its columns for holds or with them. -/
inductive ProjectionTable where
  | plain (rows : List BalanceRow)
  | held (rows : List WalletBalanceProjection)

/-- The tables that the migrations touch; `none` is a table that does not exist. -/
structure Tables where
  wallets : WalletTable
  events : List StoredEvent
  projection : Option ProjectionTable

/-- What the database generates while a migration runs: an event id for each new event of a wallet,
the id of its transaction, and the time. -/
structure Generated where
  created : String → String
  deposited : String → String
  transaction : String → String
  now : Int

/-! ### Values of SQL -/

/-- `RAISE EXCEPTION`. -/
def raised : LedgerError := .queryFailed "P0001"

/-- `round` of a `numeric`: to the nearest integer, ties away from zero. -/
def roundNumeric (x : ℚ) : Int := if 0 ≤ x then ⌊x + 1 / 2⌋ else ⌈x - 1 / 2⌉

/-- `n::bigint`. -/
def toBigint (n : Int) : Except LedgerError Int :=
  if fitsBigint n then .ok n else .error (.queryFailed "22003")

/-- An assignment to a column of type `numeric(18,2)`. -/
def toNumeric (x : ℚ) : Except LedgerError Numeric :=
  if h : (roundNumeric (x * 100)).natAbs < 1000000000000000000 then .ok ⟨_, h⟩
  else .error (.queryFailed "22003")

/-- The white space around a number. -/
def isPgSpace (c : Char) : Bool := c.toNat ∈ [9, 10, 11, 12, 13, 32]

/-- The text of a number without the white space around it and without a plus sign. -/
def numberText (text : List Char) : List Char :=
  match ((text.dropWhile isPgSpace).reverse.dropWhile isPgSpace).reverse with
  | '+' :: digits => if digits.head? = some '-' then '+' :: digits else digits
  | chars => chars

/-- `text::bigint`. -/
def textToBigint (text : String) : Except LedgerError Int :=
  let chars := numberText text.toList
  if isMinorUnits chars then toBigint (bigInt chars) else .error (.queryFailed "22P02")

/-- The property of a `jsonb` object; of anything else it is `NULL`. -/
def jsonField : Json → String → Option Json
  | .obj fields, key => fields.lookup key
  | _, _ => none

/-- `jsonb_array_elements(payload->'postings')`. -/
def postingElements (payload : Json) : Except LedgerError (List Json) :=
  match jsonField payload "postings" with
  | none => .ok []
  | some (.arr postings) => .ok postings
  | some _ => .error (.queryFailed "22023")

/-- `(posting->>'amountMinor')::bigint`. -/
def amountMinor (posting : Json) : Except LedgerError (Option Int) :=
  match jsonField posting "amountMinor" with
  | none | some .null => .ok none
  | some (.str text) => (textToBigint text).map some
  | some (.num n) => if n.den = 1 then (toBigint n.num).map some else .error (.queryFailed "22P02")
  | some _ => .error (.queryFailed "22P02")

/-- `json->>key = text`, for a text that is not the text of a number, a boolean, an array or an
object. -/
def fieldIs (json : Json) (key text : String) : Bool :=
  match jsonField json key with
  | some (.str value) => value = text
  | _ => false

/-! ### `EventSourceWalletBalances` -/

/-- The stream of a wallet in the order of the versions. -/
def Tables.loadStream (t : Tables) (walletId : String) : List StoredEvent :=
  Database.orderByVersion (t.events.filter fun e => e.streamId = walletId)

def LEGACY_SOURCE : String := "legacy-balance-migration"

def MONEY_EVENTS : List String := [MONEY_DEPOSITED, WITHDRAWAL_COMPLETED]

/-- `INSERT INTO ledger_events` of some rows. -/
def insertEvents (events rows : List StoredEvent) : Except LedgerError (List StoredEvent) :=
  rows.foldlM (fun events row => do
    let writes ← insertEvent row { Database.initial [] with events := events }
    return events ++ insertedEvents writes) events

/-- The event that creates a legacy wallet. -/
def legacyCreated (g : Generated) (wallet : Wallet) : StoredEvent :=
  { eventId := g.created wallet.id, streamId := wallet.id, aggregateType := "Wallet",
    eventType := WALLET_CREATED, schemaVersion := 1, streamVersion := 1,
    payload := .obj [("ownerId", .str wallet.ownerId), ("currency", .str wallet.currency)],
    metadata := .obj [("source", .str LEGACY_SOURCE)], correlationId := none, traceId := none,
    createdAt := g.now }

/-- The event that deposits an amount on a legacy wallet. -/
def legacyDeposited (g : Generated) (wallet : Wallet) (amount : Int) : StoredEvent :=
  { eventId := g.deposited wallet.id, streamId := wallet.id, aggregateType := "Wallet",
    eventType := MONEY_DEPOSITED, schemaVersion := 1, streamVersion := 2,
    payload := .obj [("transactionId", .str (g.transaction wallet.id)),
      ("postings", .arr [
        .obj [("accountId", .str ("wallet:" ++ wallet.id)), ("amountMinor", .str (toString amount))],
        .obj [("accountId", .str "system:external"), ("amountMinor", .str (toString (-amount)))]])],
    metadata := .obj [("source", .str LEGACY_SOURCE)], correlationId := none, traceId := none,
    createdAt := g.now }

/-- The row that the deposit statement selects for a wallet. -/
def depositRow (g : Generated) (row : Wallet × Numeric) : Except LedgerError StoredEvent := do
  let amount ← toBigint (roundNumeric (row.2.value * 100))
  return legacyDeposited g row.1 amount

/-- The stream is only the creation that the migration has written. -/
def onlyCreated (events : List StoredEvent) (walletId : String) : Bool :=
  (events.countP fun e => e.streamId = walletId) = 1 ∧
    events.any fun e => e.streamId = walletId ∧ e.eventType = WALLET_CREATED ∧
      fieldIs e.metadata "source" LEGACY_SOURCE

/-- The statements that turn balances into events. -/
def appendLegacy (g : Generated) (rows : List (Wallet × Numeric)) (events : List StoredEvent) :
    Except LedgerError (List StoredEvent) :=
  if rows.any fun row => row.2.value < 0 then .error raised
  else do
    let unknown := rows.filter fun row => events.all fun e => e.streamId ≠ row.1.id
    let events ← insertEvents events (unknown.map fun row => legacyCreated g row.1)
    let rich := rows.filter fun row => 0 < row.2.value ∧ onlyCreated events row.1.id
    let deposits ← rich.mapM (depositRow g)
    insertEvents events deposits

/-- Every event of a wallet is one that the first version of the service wrote. -/
def checkSupported (wallets : List Wallet) (events : List StoredEvent) : Except LedgerError Unit :=
  if events.any fun e => (wallets.any fun wallet => wallet.id = e.streamId) ∧
      (e.aggregateType ≠ "Wallet" ∨ e.eventType ∉ WALLET_CREATED :: MONEY_EVENTS) then .error raised
  else .ok ()

/-- The postings of an event are a single one or do not sum to zero. -/
def unbalanced (event : StoredEvent) : Except LedgerError Bool := do
  let postings ← postingElements event.payload
  let amounts ← postings.mapM amountMinor
  return !postings.isEmpty && (postings.length < 2 || (amounts.filterMap id).sum ≠ 0)

def checkBalanced (wallets : List Wallet) (events : List StoredEvent) : Except LedgerError Unit := do
  let money := events.filter fun e => (wallets.any fun wallet => wallet.id = e.streamId) ∧
    e.eventType ∈ MONEY_EVENTS
  let found ← money.mapM unbalanced
  if found.any id then .error raised else .ok ()

/-- The sum of a wallet's postings. -/
def projectedBalance (events : List StoredEvent) (wallet : Wallet) : Except LedgerError Int := do
  let money := events.filter fun e => e.streamId = wallet.id ∧ e.eventType ∈ MONEY_EVENTS
  let postings ← money.mapM fun e => postingElements e.payload
  let own := postings.flatten.filter fun posting => fieldIs posting "accountId" ("wallet:" ++ wallet.id)
  let amounts ← own.mapM amountMinor
  toBigint (amounts.filterMap id).sum

/-- The projection row of a wallet, with the checks of the table. -/
def projectionRow (events : List StoredEvent) (wallet : Wallet) : Except LedgerError BalanceRow := do
  let balanceMinor ← projectedBalance events wallet
  match ((events.filter fun e => e.streamId = wallet.id).map (·.streamVersion)).max? with
  | none => .error (.queryFailed "23502")
  | some streamVersion =>
    if balanceMinor < 0 ∨ streamVersion ≤ 0 then .error (.queryFailed "23514")
    else return { walletId := wallet.id, balanceMinor, streamVersion }

/-- `INSERT ... ON CONFLICT (wallet_id) DO UPDATE` of one row. -/
def upsertRow (row : BalanceRow) (rows : List BalanceRow) : List BalanceRow :=
  if rows.any fun old => old.walletId = row.walletId then
    rows.map fun old => if old.walletId = row.walletId then row else old
  else rows ++ [row]

/-- The statement that fills the projection.  Once the table has its columns for holds, a row without
them cannot be inserted. -/
def projectWallets (wallets : List Wallet) (events : List StoredEvent) :
    ProjectionTable → Except LedgerError ProjectionTable
  | .plain rows => do
    let rows ← wallets.foldlM (fun rows wallet => do
      return upsertRow (← projectionRow events wallet) rows) rows
    return .plain rows
  | .held rows => if wallets.isEmpty then .ok (.held rows) else .error (.queryFailed "23502")

def checkNonNegative : ProjectionTable → Except LedgerError Unit
  | .plain rows => if rows.any fun row => row.balanceMinor < 0 then .error raised else .ok ()
  | .held rows => if rows.any fun row => row.balanceMinor < 0 then .error raised else .ok ()

/-- `EventSourceWalletBalances.up`. -/
def eventSourceUp (g : Generated) (t : Tables) : Except LedgerError Tables := do
  let events ← match t.wallets with
    | .legacy rows => appendLegacy g rows t.events
    | .migrated _ => .ok t.events
  checkSupported t.wallets.wallets events
  checkBalanced t.wallets.wallets events
  let projection ← projectWallets t.wallets.wallets events (t.projection.getD (.plain []))
  checkNonNegative projection
  return { wallets := .migrated t.wallets.wallets, events, projection := some projection }

/-- The balance of a wallet after `UPDATE wallets` from the projection; zero is the default of the
column. -/
def restoredBalance (balances : List (String × Int)) (wallet : Wallet) :
    Except LedgerError (Wallet × Numeric) :=
  match balances.find? fun row => row.1 = wallet.id with
  | some row => do return (wallet, ← toNumeric ((row.2 : ℚ) / 100))
  | none => .ok (wallet, ⟨0, by decide⟩)

/-- The balances of a projection table. -/
def ProjectionTable.balances : ProjectionTable → List (String × Int)
  | .plain rows => rows.map fun row => (row.walletId, row.balanceMinor)
  | .held rows => rows.map fun row => (row.walletId, row.balanceMinor)

/-- `EventSourceWalletBalances.down`. -/
def eventSourceDown (t : Tables) : Except LedgerError Tables :=
  match t.wallets, t.projection with
  | .legacy rows, _ => .ok { t with wallets := .legacy rows, projection := none }
  | .migrated _, none => .error (.queryFailed "42P01")
  | .migrated wallets, some projection => do
    let rows ← wallets.mapM (restoredBalance projection.balances)
    return { t with wallets := .legacy rows, projection := none }

/-! ### `AddHeldBalanceProjection` -/

/-- The row with nothing held. -/
def heldRow (row : BalanceRow) : WalletBalanceProjection :=
  { walletId := row.walletId, balanceMinor := row.balanceMinor, heldMinor := 0,
    availableMinor := row.balanceMinor, streamVersion := row.streamVersion }

/-- `AddHeldBalanceProjection.up`. -/
def heldUp (t : Tables) : Except LedgerError Tables :=
  match t.projection with
  | none => .error (.error "Table \"wallet_balance_projection\" does not exist.")
  | some (.held _) => .error (.queryFailed "42701")
  | some (.plain rows) =>
    let rows := rows.map heldRow
    if rows.any fun row => row.heldMinor < 0 ∨ row.availableMinor < 0 ∨
        row.availableMinor ≠ row.balanceMinor - row.heldMinor then .error (.queryFailed "23514")
    else .ok { t with projection := some (.held rows) }

/-- `AddHeldBalanceProjection.down`. -/
def heldDown (t : Tables) : Except LedgerError Tables :=
  match t.projection with
  | none => .error (.error "Table \"wallet_balance_projection\" does not exist.")
  | some (.plain _) => .error (.error
      "Column \"available_minor\" was not found in table \"wallet_balance_projection\"")
  | some (.held rows) => .ok { t with projection := some <| .plain <| rows.map fun row =>
      { walletId := row.walletId, balanceMinor := row.balanceMinor,
        streamVersion := row.streamVersion } }

/-! ### Runs of migrations -/

/-- A run of migrations is one transaction: an error leaves the tables as they were. -/
def migrate (run : Tables → Except LedgerError Tables) (t : Tables) : Tables × Option LedgerError :=
  match run t with
  | .ok t' => (t', none)
  | .error e => (t, some e)

/-- Both migrations. -/
def migrateUp (g : Generated) (t : Tables) : Except LedgerError Tables := do
  heldUp (← eventSourceUp g t)

/-- Both migrations back. -/
def migrateDown (t : Tables) : Except LedgerError Tables := do
  eventSourceDown (← heldDown t)

/-! ### Numbers -/

section Numbers

lemma roundNumeric_intCast (n : Int) : roundNumeric (n : ℚ) = n := by
  unfold roundNumeric
  split_ifs
  · exact Int.floor_eq_iff.mpr ⟨by linarith, by linarith⟩
  · exact Int.ceil_eq_iff.mpr ⟨by linarith, by linarith⟩

lemma Numeric.value_mul (x : Numeric) : x.value * 100 = (x.hundredths : ℚ) := by
  rw [Numeric.value, div_mul_cancel₀]
  norm_num

lemma Numeric.value_neg_iff (x : Numeric) : x.value < 0 ↔ x.hundredths < 0 := by
  rw [Numeric.value, div_lt_iff₀ (by norm_num), zero_mul]
  exact Int.cast_lt_zero

lemma Numeric.value_pos_iff (x : Numeric) : 0 < x.value ↔ 0 < x.hundredths := by
  rw [Numeric.value, lt_div_iff₀ (by norm_num), zero_mul]
  exact Int.cast_pos

lemma toBigint_ok {n : Int} (h : fitsBigint n) : toBigint n = .ok n := if_pos h

/-- The hundredths of a column fit a `bigint`. -/
lemma Numeric.fits (x : Numeric) : fitsBigint x.hundredths := by
  have hbounded := x.bounded
  unfold fitsBigint
  omega

lemma Numeric.fits_neg (x : Numeric) : fitsBigint (-x.hundredths) := by
  have hbounded := x.bounded
  unfold fitsBigint
  omega

/-- The way back from hundredths is exact. -/
lemma toNumeric_hundredths (x : Numeric) : toNumeric ((x.hundredths : ℚ) / 100) = .ok x := by
  have hround : roundNumeric ((x.hundredths : ℚ) / 100 * 100) = x.hundredths := by
    rw [div_mul_cancel₀ _ (by norm_num)]
    exact roundNumeric_intCast _
  unfold toNumeric
  rw [dif_pos (by rw [hround]; exact x.bounded)]
  congr 1
  cases x
  simp only [Numeric.mk.injEq]
  exact hround

/-- The characters of minor units. -/
lemma isMinorUnits_chars {chars : List Char} (h : isMinorUnits chars = true) :
    ∀ c ∈ chars, c = '-' ∨ c.isDigit = true := by
  intro c hc
  unfold isMinorUnits at h
  split at h
  · rcases List.mem_cons.mp hc with rfl | hc
    · exact .inl rfl
    · exact .inr (List.all_eq_true.mp (Bool.and_eq_true_iff.mp h).2 c hc)
  · exact .inr (List.all_eq_true.mp (Bool.and_eq_true_iff.mp h).2 c hc)

/-- Nothing is cut off minor units. -/
lemma numberText_minorUnits {chars : List Char} (h : isMinorUnits chars = true) :
    numberText chars = chars := by
  have hchars := isMinorUnits_chars h
  have hdigit : ∀ c : Char, c.isDigit = true → 48 ≤ c.toNat := by
    intro c hc
    simp only [Char.isDigit, Bool.and_eq_true, decide_eq_true_eq] at hc
    exact hc.1
  have hspace : ∀ c ∈ chars, isPgSpace c = false := by
    intro c hc
    rcases hchars c hc with rfl | hc
    · rfl
    · have := hdigit c hc
      simp only [isPgSpace, List.mem_cons, List.not_mem_nil, or_false, decide_eq_false_iff_not]
      omega
  have hdrop : ∀ l : List Char, (∀ c ∈ l, isPgSpace c = false) → l.dropWhile isPgSpace = l := by
    intro l hl
    cases l with
    | nil => rfl
    | cons c l => exact List.dropWhile_cons_of_neg (by simp [hl c])
  unfold numberText
  rw [hdrop chars hspace, hdrop chars.reverse fun c hc => hspace c (List.mem_reverse.mp hc),
    List.reverse_reverse]
  cases chars with
  | nil => rfl
  | cons c rest =>
    have hplus : c ≠ '+' := by
      rintro rfl
      rcases hchars '+' (List.mem_cons_self ..) with hc | hc <;> exact absurd hc (by decide)
    split
    · rename_i heq
      exact absurd (List.cons.inj heq).1 hplus
    · rfl

/-- Minor units written in decimal are cast back exactly. -/
lemma textToBigint_toString {n : Int} (h : fitsBigint n) : textToBigint (toString n) = .ok n := by
  have hparse := parseMinorUnits_toString n
  unfold parseMinorUnits at hparse
  split_ifs at hparse with hminor
  unfold textToBigint
  rw [numberText_minorUnits hminor]
  simp only
  rw [if_pos hminor, Except.ok.inj hparse, toBigint_ok h]

end Numbers

/-! ### The streams of legacy wallets -/

section Streams

variable {g : Generated} {events : List StoredEvent} {rows : List (Wallet × Numeric)}
variable {row : Wallet × Numeric}

/-- A `mapM` that succeeds on every element. -/
lemma mapM_ok_map {α γ ε : Type} {f : α → Except ε γ} {h : α → γ} {l : List α}
    (hf : ∀ a ∈ l, f a = .ok (h a)) : l.mapM f = .ok (l.map h) := by
  induction l with
  | nil => rfl
  | cons a l ih =>
    rw [List.mapM_cons, hf a (List.mem_cons_self ..), ih fun b hb => hf b (List.mem_cons_of_mem a hb)]
    rfl

/-- Rows with new keys can be inserted. -/
lemma insertEvents_ok {rows : List StoredEvent}
    (hvalid : ∀ row ∈ rows, (fitsInteger row.streamVersion ∧ fitsInteger row.schemaVersion) ∧
      0 < row.streamVersion ∧ 0 < row.schemaVersion)
    (hids : (rows.map (·.eventId)).Nodup)
    (hkeys : rows.Pairwise fun row row' =>
      row.streamId = row'.streamId → row.streamVersion ≠ row'.streamVersion)
    (hnew : ∀ e ∈ events, ∀ row ∈ rows, e.eventId ≠ row.eventId ∧
      (e.streamId = row.streamId → e.streamVersion ≠ row.streamVersion)) :
    insertEvents events rows = .ok (events ++ rows) := by
  induction rows generalizing events with
  | nil => exact congrArg Except.ok (List.append_nil events).symm
  | cons row rows ih =>
    have hinsert : insertEvent row { Database.initial [] with events := events } =
        .ok [.insertEvent row] :=
      insertEvent_ok.mpr ⟨rfl, (hvalid row (List.mem_cons_self ..)).1,
        (hvalid row (List.mem_cons_self ..)).2,
        fun e he => (hnew e he row (List.mem_cons_self ..)).1,
        fun e he => (hnew e he row (List.mem_cons_self ..)).2⟩
    rw [List.map_cons, List.nodup_cons] at hids
    rw [List.pairwise_cons] at hkeys
    have hrest : insertEvents (events ++ [row]) rows = .ok (events ++ [row] ++ rows) := by
      refine ih (fun r hr => hvalid r (List.mem_cons_of_mem row hr)) hids.2 hkeys.2
        fun e he r hr => ?_
      rcases List.mem_append.mp he with he | he
      · exact hnew e he r (List.mem_cons_of_mem row hr)
      · obtain rfl := List.mem_singleton.mp he
        exact ⟨fun heq => hids.1 (heq ▸ List.mem_map_of_mem hr), hkeys.1 r hr⟩
    rw [insertEvents, List.foldlM_cons, hinsert]
    rw [List.append_cons]
    exact hrest

/-- The stream that the migration writes for a wallet. -/
def legacyStream (g : Generated) (row : Wallet × Numeric) : List StoredEvent :=
  legacyCreated g row.1 ::
    if 0 < row.2.hundredths then [legacyDeposited g row.1 row.2.hundredths] else []

/-- The aggregate of a legacy wallet. -/
def legacyAggregate (g : Generated) (row : Wallet × Numeric) : WalletAggregate :=
  { id := row.1.id, version := (legacyStream g row).length, ownerId := some row.1.ownerId,
    currency := some row.1.currency, balanceMinor := row.2.hundredths, holds := ∅ }

/-- Every wallet has the stream that the migration writes for it. -/
def Converted (g : Generated) (rows : List (Wallet × Numeric)) (events : List StoredEvent) : Prop :=
  ∀ row ∈ rows, (events.filter fun e => e.streamId = row.1.id) = legacyStream g row

/-- The ids that the database generates for events are new. -/
structure Generated.Fresh (g : Generated) (rows : List (Wallet × Numeric))
    (events : List StoredEvent) : Prop where
  distinct : (rows.map (fun row => g.created row.1.id) ++
    rows.map fun row => g.deposited row.1.id).Nodup
  new : ∀ e ∈ events, ∀ row ∈ rows, e.eventId ≠ g.created row.1.id ∧ e.eventId ≠ g.deposited row.1.id

/-- Replay accepts the stream of a legacy wallet and yields its balance. -/
lemma rehydrate_legacyStream (h : 0 ≤ row.2.hundredths) :
    rehydrate row.1.id (legacyStream g row) = .ok (legacyAggregate g row) := by
  obtain ⟨wallet, balance⟩ := row
  replace h : 0 ≤ balance.hundredths := h
  set a : WalletAggregate := { empty wallet.id with
    version := 1, ownerId := some wallet.ownerId, currency := some wallet.currency } with ha
  have hcreated : rehydrate wallet.id [legacyCreated g wallet] = .ok a := rfl
  unfold legacyAggregate legacyStream
  split_ifs with hpos
  · have hmoney : a.applyMoney (legacyDeposited g wallet balance.hundredths) =
        .ok { a with version := 2, balanceMinor := a.balanceMinor + balance.hundredths } :=
      applyMoney_movement rfl (by change (0 : Int) ≤ 0 + balance.hundredths; omega)
    change rehydrate wallet.id ([legacyCreated g wallet] ++
      [legacyDeposited g wallet balance.hundredths]) = _
    rw [rehydrate_concat, hcreated]
    refine Eq.trans hmoney ?_
    rw [show a.balanceMinor + balance.hundredths = balance.hundredths from zero_add _]
    rfl
  · have hzero : balance.hundredths = 0 := le_antisymm (not_lt.mp hpos) h
    rw [hcreated, ha, hzero]
    rfl

/-- The deposit that the migration selects for a wallet. -/
lemma depositRow_eq (g : Generated) (row : Wallet × Numeric) :
    depositRow g row = .ok (legacyDeposited g row.1 row.2.hundredths) := by
  rw [depositRow, row.2.value_mul, roundNumeric_intCast, toBigint_ok row.2.fits]
  rfl

/-- Among the events of a wallet that has just been created there is one, and it is the migration's. -/
lemma onlyCreated_of_filter {walletId : String} {e : StoredEvent}
    (h : (events.filter fun e => e.streamId = walletId) = [e]) (htype : e.eventType = WALLET_CREATED)
    (hsource : fieldIs e.metadata "source" LEGACY_SOURCE = true) :
    onlyCreated events walletId = true := by
  have hmem : e ∈ events.filter fun e => e.streamId = walletId := h ▸ List.mem_singleton_self e
  obtain ⟨he, hid⟩ := List.mem_filter.mp hmem
  simp only [onlyCreated, List.countP_eq_length_filter, h, List.length_singleton, true_and,
    decide_eq_true_eq]
  refine List.any_eq_true.mpr ⟨e, he, ?_⟩
  simp only [decide_eq_true_eq] at hid ⊢
  exact ⟨hid, htype, hsource⟩

/-- A stream with two events is not one that was just created. -/
lemma onlyCreated_eq_false {walletId : String} {e e' : StoredEvent}
    (h : (events.filter fun e => e.streamId = walletId) = [e, e']) :
    onlyCreated events walletId = false := by
  simp [onlyCreated, List.countP_eq_length_filter, h]

/-- The balances of wallets without events become their streams. -/
lemma appendLegacy_new (hnonneg : ∀ row ∈ rows, 0 ≤ row.2.hundredths)
    (hnodup : (rows.map (·.1.id)).Nodup)
    (hprior : ∀ e ∈ events, ∀ row ∈ rows, e.streamId ≠ row.1.id) (hfresh : g.Fresh rows events) :
    ∃ events', appendLegacy g rows events = .ok events' ∧ Converted g rows events' := by
  set created := rows.map fun row => legacyCreated g row.1 with hcreated
  set rich := rows.filter fun row => (0 < row.2.hundredths : Bool) with hrich
  set deposits := rich.map fun row => legacyDeposited g row.1 row.2.hundredths with hdeposits
  have hmem_created : ∀ e ∈ created, ∃ row ∈ rows, e = legacyCreated g row.1 := by
    intro e he
    obtain ⟨row, hrow, rfl⟩ := List.mem_map.mp he
    exact ⟨row, hrow, rfl⟩
  have hmem_deposits : ∀ e ∈ deposits, ∃ row ∈ rows,
      e = legacyDeposited g row.1 row.2.hundredths := by
    intro e he
    obtain ⟨row, hrow, rfl⟩ := List.mem_map.mp he
    exact ⟨row, (List.mem_filter.mp hrow).1, rfl⟩
  have hfits : fitsInteger 1 ∧ fitsInteger 2 := by decide
  have hstreams : rows.Pairwise fun row row' => row.1.id ≠ row'.1.id :=
    List.pairwise_map.mp hnodup
  obtain ⟨hids, hids', hdisjoint⟩ := List.nodup_append'.mp hfresh.distinct
  -- the first insert: every wallet has a creation after it
  have hfirst : insertEvents events created = .ok (events ++ created) := by
    refine insertEvents_ok (fun e he => ?_) ?_ ?_ fun e he e' he' => ?_
    · obtain ⟨row, -, rfl⟩ := hmem_created e he
      exact ⟨⟨hfits.1, hfits.1⟩, one_pos, one_pos⟩
    · rw [hcreated, List.map_map]
      exact hids
    · rw [hcreated, List.pairwise_map]
      exact hstreams.imp fun hne heq => absurd heq hne
    · obtain ⟨row, hrow, rfl⟩ := hmem_created e' he'
      exact ⟨(hfresh.new e he row hrow).1, fun heq => absurd heq (hprior e he row hrow)⟩
  have hstream : ∀ row ∈ rows,
      ((events ++ created).filter fun e => e.streamId = row.1.id) = [legacyCreated g row.1] := by
    intro row hrow
    have hnone : (events.filter fun e => e.streamId = row.1.id) = [] :=
      List.filter_eq_nil_iff.mpr fun e he => by simpa using hprior e he row hrow
    rw [List.filter_append, hnone, hcreated, List.filter_map, List.nil_append]
    exact congrArg _ (filter_key_eq_singleton (f := fun row => row.1.id) hnodup hrow)
  have honly : ∀ row ∈ rows, onlyCreated (events ++ created) row.1.id = true := fun row hrow =>
    onlyCreated_of_filter (hstream row hrow) rfl rfl
  -- the second insert: the wallets with money have a deposit after it
  have hsecond : insertEvents (events ++ created) deposits =
      .ok (events ++ created ++ deposits) := by
    refine insertEvents_ok (fun e he => ?_) ?_ ?_ fun e he e' he' => ?_
    · obtain ⟨row, -, rfl⟩ := hmem_deposits e he
      exact ⟨⟨hfits.2, hfits.1⟩, two_pos, one_pos⟩
    · rw [hdeposits, List.map_map]
      exact hids'.sublist (List.filter_sublist.map _)
    · rw [hdeposits, List.pairwise_map]
      exact (hstreams.sublist List.filter_sublist).imp fun hne heq => absurd heq hne
    · obtain ⟨row, hrow, rfl⟩ := hmem_deposits e' he'
      rcases List.mem_append.mp he with he | he
      · exact ⟨(hfresh.new e he row hrow).2, fun heq => absurd heq (hprior e he row hrow)⟩
      · obtain ⟨other, hother, rfl⟩ := hmem_created e he
        refine ⟨fun heq => hdisjoint (List.mem_map.mpr ⟨other, hother, rfl⟩)
          (List.mem_map.mpr ⟨row, hrow, heq.symm⟩), fun _ => (by decide : (1 : Int) ≠ 2)⟩
  refine ⟨events ++ created ++ deposits, ?_, fun row hrow => ?_⟩
  · have hunknown : (rows.filter fun row => events.all fun e => e.streamId ≠ row.1.id) = rows :=
      List.filter_eq_self.mpr fun row hrow => List.all_eq_true.mpr fun e he => by
        simpa using hprior e he row hrow
    have hselected : (rows.filter fun row => (0 < row.2.value ∧
        onlyCreated (events ++ created) row.1.id = true : Bool)) = rich := by
      refine List.filter_congr fun row hrow => ?_
      rw [honly row hrow, decide_eq_decide, row.2.value_pos_iff]
      exact and_iff_left rfl
    have hany : (rows.any fun row => row.2.value < 0) = false := by
      refine List.any_eq_false.mpr fun row hrow => ?_
      rw [decide_eq_true_eq, row.2.value_neg_iff]
      exact not_lt.mpr (hnonneg row hrow)
    unfold appendLegacy
    rw [if_neg (by rw [hany]; exact Bool.false_ne_true), hunknown]
    change (insertEvents events created).bind _ = _
    rw [hfirst]
    change (((rows.filter fun row => (0 < row.2.value ∧
      onlyCreated (events ++ created) row.1.id = true : Bool)).mapM (depositRow g)).bind
      fun deposits => insertEvents (events ++ created) deposits) = _
    rw [hselected, mapM_ok_map fun row _ => depositRow_eq g row]
    exact hsecond
  · -- the wallet's own deposit is among the deposits when it has money
    have hown : (rich.filter fun other => other.1.id = row.1.id) =
        [row].filter fun row => (0 < row.2.hundredths : Bool) := by
      rw [hrich, List.filter_comm]
      exact congrArg _ (filter_key_eq_singleton (f := fun row => row.1.id) hnodup hrow)
    rw [List.filter_append, hstream row hrow, hdeposits, List.filter_map]
    change legacyCreated g row.1 :: List.map _ (rich.filter fun other => other.1.id = row.1.id) = _
    rw [hown, legacyStream, List.filter_singleton]
    split_ifs with hpos
    · rw [decide_eq_true hpos]
      rfl
    · rw [decide_eq_false hpos]
      rfl

end Streams

/-! ### What the migration finds in converted streams -/

section Converted

variable {g g' : Generated} {events : List StoredEvent} {rows : List (Wallet × Numeric)}
variable {row : Wallet × Numeric}

/-- The events of a converted wallet. -/
lemma Converted.event_cases (h : Converted g rows events) (hrow : row ∈ rows) {e : StoredEvent}
    (he : e ∈ events) (hid : e.streamId = row.1.id) :
    e = legacyCreated g row.1 ∨
      (0 < row.2.hundredths ∧ e = legacyDeposited g row.1 row.2.hundredths) := by
  have hmem : e ∈ legacyStream g row := h row hrow ▸ List.mem_filter.mpr ⟨he, decide_eq_true hid⟩
  unfold legacyStream at hmem
  rcases List.mem_cons.mp hmem with rfl | hmem
  · exact .inl rfl
  · split_ifs at hmem with hpos
    · exact .inr ⟨hpos, List.mem_singleton.mp hmem⟩
    · cases hmem

/-- A second run appends nothing to a converted wallet. -/
lemma appendLegacy_again (h : Converted g rows events) (hnonneg : ∀ row ∈ rows, 0 ≤ row.2.hundredths) :
    appendLegacy g' rows events = .ok events := by
  have hunknown : (rows.filter fun row => events.all fun e => e.streamId ≠ row.1.id) = [] := by
    refine List.filter_eq_nil_iff.mpr fun row hrow hall => ?_
    have hmem : legacyCreated g row.1 ∈ events.filter fun e => e.streamId = row.1.id :=
      h row hrow ▸ List.mem_cons_self ..
    have hne := List.all_eq_true.mp hall _ (List.mem_filter.mp hmem).1
    exact (decide_eq_true_eq.mp hne) rfl
  have hselected : (rows.filter fun row => (0 < row.2.value ∧
      onlyCreated events row.1.id = true : Bool)) = [] := by
    refine List.filter_eq_nil_iff.mpr fun row hrow hselected => ?_
    obtain ⟨hpos, honly⟩ := decide_eq_true_eq.mp hselected
    have hstream := h row hrow
    rw [legacyStream, if_pos (row.2.value_pos_iff.mp hpos)] at hstream
    rw [onlyCreated_eq_false hstream] at honly
    cases honly
  have hany : (rows.any fun row => row.2.value < 0) = false := by
    refine List.any_eq_false.mpr fun row hrow => ?_
    rw [decide_eq_true_eq, row.2.value_neg_iff]
    exact not_lt.mpr (hnonneg row hrow)
  unfold appendLegacy
  rw [if_neg (by rw [hany]; exact Bool.false_ne_true), hunknown]
  change (((rows.filter fun row => (0 < row.2.value ∧
    onlyCreated events row.1.id = true : Bool)).mapM (depositRow g')).bind
    fun deposits => insertEvents events deposits) = _
  rw [hselected]
  rfl

/-- The amounts of a deposit, as the migration reads them. -/
lemma amounts_deposited (wallet : Wallet) {x : Numeric} :
    amountMinor (.obj [("accountId", .str ("wallet:" ++ wallet.id)),
        ("amountMinor", .str (toString x.hundredths))]) = .ok (some x.hundredths) ∧
      amountMinor (.obj [("accountId", .str "system:external"),
        ("amountMinor", .str (toString (-x.hundredths)))]) = .ok (some (-x.hundredths)) := by
  constructor
  · change (textToBigint (toString x.hundredths)).map some = _
    rw [textToBigint_toString x.fits]
    rfl
  · change (textToBigint (toString (-x.hundredths))).map some = _
    rw [textToBigint_toString x.fits_neg]
    rfl

lemma unbalanced_deposited (wallet : Wallet) (x : Numeric) :
    unbalanced (legacyDeposited g wallet x.hundredths) = .ok false := by
  obtain ⟨hwallet, hexternal⟩ := amounts_deposited wallet (x := x)
  unfold unbalanced
  change (List.mapM amountMinor [.obj [("accountId", .str ("wallet:" ++ wallet.id)),
      ("amountMinor", .str (toString x.hundredths))],
    .obj [("accountId", .str "system:external"),
      ("amountMinor", .str (toString (-x.hundredths)))]]).bind _ = _
  rw [List.mapM_cons, hwallet, List.mapM_cons, hexternal]
  simp [List.mapM_nil, bind, Except.bind, pure, Except.pure]

/-- Converted streams pass the checks. -/
lemma Converted.checks (h : Converted g rows events) :
    checkSupported (rows.map (·.1)) events = .ok () ∧ checkBalanced (rows.map (·.1)) events = .ok () := by
  -- an event of a wallet is one of its stream
  have hevent : ∀ e ∈ events, ((rows.map (·.1)).any fun wallet => wallet.id = e.streamId) = true →
      ∃ row ∈ rows, e = legacyCreated g row.1 ∨
        (0 < row.2.hundredths ∧ e = legacyDeposited g row.1 row.2.hundredths) := by
    intro e he hany
    obtain ⟨wallet, hwallet, hid⟩ := List.any_eq_true.mp hany
    obtain ⟨row, hrow, rfl⟩ := List.mem_map.mp hwallet
    exact ⟨row, hrow, h.event_cases hrow he (decide_eq_true_eq.mp hid).symm⟩
  constructor
  · unfold checkSupported
    refine if_neg fun hbad => ?_
    obtain ⟨e, he, hbad⟩ := List.any_eq_true.mp hbad
    obtain ⟨hany, hbad⟩ := decide_eq_true_eq.mp hbad
    obtain ⟨row, -, rfl | ⟨-, rfl⟩⟩ := hevent e he hany
    · exact hbad.elim (fun hne => hne rfl) fun hne => hne (List.mem_cons_self ..)
    · exact hbad.elim (fun hne => hne rfl) fun hne => hne (List.mem_cons_of_mem _ (List.mem_cons_self ..))
  · unfold checkBalanced
    dsimp only
    rw [mapM_ok_map (h := fun _ => false) fun e he => ?_]
    · refine if_neg fun hany => ?_
      obtain ⟨b, hb, hid⟩ := List.any_eq_true.mp hany
      obtain ⟨e, -, rfl⟩ := List.mem_map.mp hb
      cases hid
    · obtain ⟨he, hmoney⟩ := List.mem_filter.mp he
      obtain ⟨hany, htype⟩ := decide_eq_true_eq.mp hmoney
      obtain ⟨row, -, rfl | ⟨-, rfl⟩⟩ := hevent e he hany
      · change WALLET_CREATED ∈ MONEY_EVENTS at htype
        exact absurd htype (by decide)
      · exact unbalanced_deposited row.1 row.2

/-- The projection row of a legacy wallet. -/
def legacyRow (g : Generated) (row : Wallet × Numeric) : BalanceRow :=
  { walletId := row.1.id, balanceMinor := row.2.hundredths,
    streamVersion := (legacyStream g row).length }

/-- The postings of a converted wallet sum to its balance. -/
lemma Converted.projectedBalance (h : Converted g rows events) (hrow : row ∈ rows)
    (hnonneg : 0 ≤ row.2.hundredths) :
    projectedBalance events row.1 = .ok row.2.hundredths := by
  have hmoney : (events.filter fun e => e.streamId = row.1.id ∧ e.eventType ∈ MONEY_EVENTS) =
      if 0 < row.2.hundredths then [legacyDeposited g row.1 row.2.hundredths] else [] := by
    have hsplit : (events.filter fun e => e.streamId = row.1.id ∧ e.eventType ∈ MONEY_EVENTS) =
        (events.filter fun e => e.streamId = row.1.id).filter fun e => e.eventType ∈ MONEY_EVENTS := by
      rw [List.filter_filter]
      refine List.filter_congr fun e _ => ?_
      rw [Bool.decide_and, Bool.and_comm]
    rw [hsplit, h row hrow, legacyStream]
    split_ifs <;> rfl
  unfold Ledger.projectedBalance
  dsimp only
  rw [hmoney]
  split_ifs with hpos
  · obtain ⟨hwallet, -⟩ := amounts_deposited row.1 (x := row.2)
    have hown : fieldIs (.obj [("accountId", .str ("wallet:" ++ row.1.id)),
        ("amountMinor", .str (toString row.2.hundredths))]) "accountId" ("wallet:" ++ row.1.id) =
        true := decide_eq_true rfl
    have hother : fieldIs (.obj [("accountId", .str "system:external"),
        ("amountMinor", .str (toString (-row.2.hundredths)))]) "accountId" ("wallet:" ++ row.1.id) =
        false := decide_eq_false (walletAccountId_ne_external row.1.id)
    change ((List.filter (fun posting => fieldIs posting "accountId" ("wallet:" ++ row.1.id))
      [.obj [("accountId", .str ("wallet:" ++ row.1.id)),
          ("amountMinor", .str (toString row.2.hundredths))],
        .obj [("accountId", .str "system:external"),
          ("amountMinor", .str (toString (-row.2.hundredths)))]]).mapM amountMinor).bind
      (fun amounts => toBigint (amounts.filterMap id).sum) = _
    simp only [List.filter_cons, hown, hother, if_true, Bool.false_eq_true, if_false, List.filter_nil]
    rw [List.mapM_cons, hwallet]
    change toBigint (row.2.hundredths + 0) = _
    rw [add_zero]
    exact toBigint_ok row.2.fits
  · have hzero : row.2.hundredths = 0 := le_antisymm (not_lt.mp hpos) hnonneg
    rw [hzero]
    rfl

/-- The projection row that the migration computes for a converted wallet. -/
lemma Converted.projectionRow (h : Converted g rows events) (hrow : row ∈ rows)
    (hnonneg : 0 ≤ row.2.hundredths) :
    projectionRow events row.1 = .ok (legacyRow g row) := by
  have hversion : ((events.filter fun e => e.streamId = row.1.id).map (·.streamVersion)).max? =
      some ((legacyStream g row).length : Int) := by
    rw [h row hrow, legacyStream]
    split_ifs <;> rfl
  have hlength : (0 : Int) < (legacyStream g row).length := by
    unfold legacyStream
    exact_mod_cast Nat.succ_pos _
  unfold Ledger.projectionRow
  rw [h.projectedBalance hrow hnonneg]
  simp only [bind, Except.bind]
  rw [hversion]
  exact if_neg (by omega)

/-- The projection of converted wallets. -/
lemma Converted.projectWallets (h : Converted g rows events)
    (hnonneg : ∀ row ∈ rows, 0 ≤ row.2.hundredths) (hnodup : (rows.map (·.1.id)).Nodup) :
    projectWallets (rows.map (·.1)) events (.plain []) = .ok (.plain (rows.map (legacyRow g))) := by
  -- the rows of the wallets already handled are those of other wallets
  have hloop : ∀ todo done : List (Wallet × Numeric), (∀ row ∈ todo, row ∈ rows) →
      ((done ++ todo).map (·.1.id)).Nodup →
      (todo.map (·.1)).foldlM (fun rows wallet => do
        return upsertRow (← Ledger.projectionRow events wallet) rows) (done.map (legacyRow g)) =
        (.ok ((done ++ todo).map (legacyRow g)) : Except LedgerError (List BalanceRow)) := by
    intro todo
    induction todo with
    | nil =>
      intro done _ _
      rw [List.append_nil]
      rfl
    | cons row todo ih =>
      intro done hin hids
      have hrow := hin row (List.mem_cons_self ..)
      have hnew : ((done.map (legacyRow g)).any fun old => old.walletId = (legacyRow g row).walletId) =
          false := by
        refine List.any_eq_false.mpr fun old hold heq => ?_
        obtain ⟨other, hother, rfl⟩ := List.mem_map.mp hold
        rw [List.map_append] at hids
        exact (List.nodup_append'.mp hids).2.2 (List.mem_map_of_mem hother)
          (List.mem_map.mpr ⟨row, List.mem_cons_self .., (decide_eq_true_eq.mp heq).symm⟩)
      rw [List.map_cons, List.foldlM_cons, h.projectionRow hrow (hnonneg row hrow)]
      change List.foldlM _ (upsertRow (legacyRow g row) (done.map (legacyRow g))) _ = _
      rw [upsertRow, hnew, if_neg Bool.false_ne_true]
      have hrest := ih (done ++ [row]) (fun r hr => hin r (List.mem_cons_of_mem row hr))
        (by rwa [List.append_cons] at hids)
      rw [List.map_append, List.map_singleton] at hrest
      rw [hrest, ← List.append_cons]
  exact congrArg (fun rows : Except LedgerError (List BalanceRow) =>
    rows.bind fun rows => .ok (ProjectionTable.plain rows)) (hloop rows [] (fun _ hr => hr) hnodup)

/-- What `EventSourceWalletBalances.up` makes of converted wallets. -/
lemma Converted.eventSourceUp {t : Tables} (h : Converted g rows events)
    (hnonneg : ∀ row ∈ rows, 0 ≤ row.2.hundredths) (hnodup : (rows.map (·.1.id)).Nodup)
    (hwallets : t.wallets = .legacy rows) (hprojection : t.projection = none)
    (hevents : appendLegacy g' rows t.events = .ok events) :
    eventSourceUp g' t = .ok ⟨.migrated (rows.map (·.1)), events,
      some (.plain (rows.map (legacyRow g)))⟩ := by
  have hchecked : checkNonNegative (.plain (rows.map (legacyRow g))) = .ok () := by
    refine if_neg fun hany => ?_
    obtain ⟨bad, hbad, hneg⟩ := List.any_eq_true.mp hany
    obtain ⟨row, hrow, rfl⟩ := List.mem_map.mp hbad
    exact absurd (decide_eq_true_eq.mp hneg) (not_lt.mpr (hnonneg row hrow))
  unfold Ledger.eventSourceUp
  rw [hwallets, hprojection]
  simp only [hevents, WalletTable.wallets, bind, Except.bind, h.checks.1, h.checks.2, Option.getD_none]
  rw [h.projectWallets hnonneg hnodup]
  simp only [hchecked, pure, Except.pure]

/-- Both migrations on converted wallets. -/
lemma Converted.migrateUp {t : Tables} (h : Converted g rows events)
    (hnonneg : ∀ row ∈ rows, 0 ≤ row.2.hundredths) (hnodup : (rows.map (·.1.id)).Nodup)
    (hwallets : t.wallets = .legacy rows) (hprojection : t.projection = none)
    (hevents : appendLegacy g' rows t.events = .ok events) :
    migrateUp g' t = .ok ⟨.migrated (rows.map (·.1)), events,
      some (.held (rows.map fun row => heldRow (legacyRow g row)))⟩ := by
  have hvalid : ((rows.map (legacyRow g)).map heldRow).any (fun row => row.heldMinor < 0 ∨
      row.availableMinor < 0 ∨ row.availableMinor ≠ row.balanceMinor - row.heldMinor) = false := by
    refine List.any_eq_false.mpr fun held hheld hbad => ?_
    rw [List.map_map] at hheld
    obtain ⟨row, hrow, rfl⟩ := List.mem_map.mp hheld
    have hbalance := hnonneg row hrow
    have hchecks := decide_eq_true_eq.mp hbad
    simp only [Function.comp, heldRow, legacyRow] at hchecks
    omega
  unfold Ledger.migrateUp
  rw [h.eventSourceUp hnonneg hnodup hwallets hprojection hevents]
  change (if ((rows.map (legacyRow g)).map heldRow).any _ = true then _ else _) = _
  rw [if_neg (by rw [hvalid]; exact Bool.false_ne_true), List.map_map]
  rfl

/-- Both migrations back give every wallet its balance. -/
lemma migrateDown_legacy (hnodup : (rows.map (·.1.id)).Nodup) :
    migrateDown ⟨.migrated (rows.map (·.1)), events,
        some (.held (rows.map fun row => heldRow (legacyRow g row)))⟩ =
      .ok ⟨.legacy rows, events, none⟩ := by
  set balances := rows.map fun row => (row.1.id, row.2.hundredths) with hbalances
  have hkeys : (balances.map Prod.fst).Nodup := by
    rw [hbalances, List.map_map]
    exact hnodup
  have hrestored : ∀ row ∈ rows, restoredBalance balances row.1 = .ok row := by
    intro row hrow
    have hfind : (balances.find? fun other => other.1 = row.1.id) =
        some (row.1.id, row.2.hundredths) := by
      have hfilter : (balances.filter fun other => other.1 = row.1.id) =
          [(row.1.id, row.2.hundredths)] :=
        filter_key_eq_singleton (f := Prod.fst) hkeys (List.mem_map.mpr ⟨row, hrow, rfl⟩)
      rw [← List.head?_filter, hfilter]
      rfl
    unfold restoredBalance
    rw [hfind]
    change (toNumeric ((row.2.hundredths : ℚ) / 100)).bind _ = _
    rw [toNumeric_hundredths]
    rfl
  have hrows : (rows.map (·.1)).mapM (restoredBalance balances) = .ok rows := by
    rw [List.mapM_map]
    exact (mapM_ok_map (h := fun row => row) hrestored).trans (congrArg _ (List.map_id' rows))
  have hplain : (ProjectionTable.plain ((rows.map fun row => heldRow (legacyRow g row)).map fun row =>
      ⟨row.walletId, row.balanceMinor, row.streamVersion⟩)).balances = balances := by
    rw [ProjectionTable.balances, List.map_map, List.map_map]
    rfl
  change ((rows.map (·.1)).mapM (restoredBalance (ProjectionTable.balances (.plain _)))).bind _ = _
  rw [hplain, hrows]
  rfl

/-- The stream of a converted wallet is in the order of its versions. -/
lemma Converted.loadStream {t : Tables} (h : Converted g rows t.events) (hrow : row ∈ rows) :
    t.loadStream row.1.id = legacyStream g row := by
  rw [Tables.loadStream, h row hrow]
  unfold legacyStream
  split_ifs <;> rfl

end Converted

/-! ### The way up, down, and up again -/

/-- A database before the migration: the wallet ids are a primary key, and no event belongs to a
wallet. -/
structure LegacyDatabase where
  rows : List (Wallet × Numeric)
  events : List StoredEvent
  keys : (rows.map (·.1.id)).Nodup
  unwritten : ∀ e ∈ events, ∀ row ∈ rows, e.streamId ≠ row.1.id

/-- Its tables; there is no projection yet. -/
def LegacyDatabase.tables (db : LegacyDatabase) : Tables := ⟨.legacy db.rows, db.events, none⟩

/-- The wallet of a legacy row, replayed: its owner, its currency and its money, and no holds. -/
structure Tables.Replays (t : Tables) (row : Wallet × Numeric) (a : WalletAggregate) : Prop where
  rehydrated : rehydrate row.1.id (t.loadStream row.1.id) = .ok a
  ownerId : a.ownerId = some row.1.ownerId
  currency : a.currency = some row.1.currency
  balance : (a.balanceMinor : ℚ) = 100 * row.2.value
  holds : a.holds = ∅

/-- The projection has one row for the wallet, that of its replay. -/
def Tables.Projects (t : Tables) (row : Wallet × Numeric) (a : WalletAggregate) : Prop :=
  ∃ rows, t.projection = some (.held rows) ∧
    (rows.filter fun projected => projected.walletId = row.1.id) =
      [{ walletId := row.1.id, balanceMinor := a.balanceMinor, heldMinor := 0,
         availableMinor := a.balanceMinor, streamVersion := (t.loadStream row.1.id).length }]

/-- The way up on legacy wallets without debts. -/
lemma migrateUp_legacy (db : LegacyDatabase) {g : Generated}
    (hnonneg : ∀ row ∈ db.rows, 0 ≤ row.2.hundredths) (hfresh : g.Fresh db.rows db.events) :
    ∃ events, Converted g db.rows events ∧
      migrateUp g db.tables = .ok ⟨.migrated (db.rows.map (·.1)), events,
        some (.held (db.rows.map fun row => heldRow (legacyRow g row)))⟩ := by
  obtain ⟨events, hevents, hconverted⟩ := appendLegacy_new hnonneg db.keys db.unwritten hfresh
  exact ⟨events, hconverted, hconverted.migrateUp hnonneg db.keys rfl rfl hevents⟩

/-- A wallet with a debt stops the migration. -/
lemma migrateUp_negative (db : LegacyDatabase) (g : Generated)
    (h : ∃ row ∈ db.rows, row.2.value < 0) : migrateUp g db.tables = .error raised := by
  have hany : (db.rows.any fun row => row.2.value < 0) = true := by
    obtain ⟨row, hrow, hneg⟩ := h
    exact List.any_eq_true.mpr ⟨row, hrow, decide_eq_true hneg⟩
  have hlegacy : appendLegacy g db.rows db.events = .error raised := if_pos hany
  unfold migrateUp eventSourceUp LegacyDatabase.tables
  simp only [hlegacy, bind, Except.bind]

/-- Legacy balances survive the migration: replay accepts the stream of every wallet and yields its
money, the projection is that of the replay, the way back restores every balance exactly, and the way
up again appends nothing and comes to the same tables.  A wallet with a debt stops the migration, which
changes nothing. -/
theorem legacy_balances_preserved (db : LegacyDatabase) (g : Generated) :
    ((∀ row ∈ db.rows, 0 ≤ row.2.value) → g.Fresh db.rows db.events →
      ∃ t, migrate (migrateUp g) db.tables = (t, none) ∧
        t.wallets = .migrated (db.rows.map (·.1)) ∧
        (∀ row ∈ db.rows, ∃ a, t.Replays row a ∧ t.Projects row a) ∧
        migrate migrateDown t = (⟨.legacy db.rows, t.events, none⟩, none) ∧
        ∀ g', migrate (migrateUp g') ⟨.legacy db.rows, t.events, none⟩ = (t, none)) ∧
    ((∃ row ∈ db.rows, row.2.value < 0) →
      ∃ e, migrate (migrateUp g) db.tables = (db.tables, some e)) := by
  constructor
  · intro hvalue hfresh
    have hnonneg : ∀ row ∈ db.rows, 0 ≤ row.2.hundredths := fun row hrow =>
      not_lt.mp fun hneg => absurd (row.2.value_neg_iff.mpr hneg) (not_lt.mpr (hvalue row hrow))
    obtain ⟨events, hconverted, hup⟩ := migrateUp_legacy db hnonneg hfresh
    refine ⟨_, by rw [migrate, hup], rfl, fun row hrow => ?_, ?_, fun g' => ?_⟩
    · have hstream := Converted.loadStream
        (t := ⟨.migrated (db.rows.map (·.1)), events,
          some (.held (db.rows.map fun row => heldRow (legacyRow g row)))⟩) hconverted hrow
      refine ⟨legacyAggregate g row, ⟨?_, rfl, rfl, ?_, rfl⟩, _, rfl, ?_⟩
      · rw [hstream]
        exact rehydrate_legacyStream (hnonneg row hrow)
      · rw [mul_comm, row.2.value_mul]
        rfl
      · rw [hstream, List.filter_map]
        have hone := filter_key_eq_singleton (f := fun row : Wallet × Numeric => row.1.id) db.keys hrow
        exact congrArg (List.map fun row => heldRow (legacyRow g row)) hone
    · rw [migrate, migrateDown_legacy db.keys]
    · rw [migrate, hconverted.migrateUp hnonneg db.keys rfl rfl (appendLegacy_again hconverted hnonneg)]
  · intro hneg
    exact ⟨raised, by rw [migrate, migrateUp_negative db g hneg]⟩

/-- A wallet with 42.35 dollars and an empty one in euros. -/
def legacyPair : LegacyDatabase where
  rows := [(⟨"dollars", "ann", "USD"⟩, ⟨4235, by decide⟩), (⟨"euros", "ann", "EUR"⟩, ⟨0, by decide⟩)]
  events := []
  keys := by decide
  unwritten := by simp

/-- Ids named after the wallets. -/
def namedIds : Generated where
  created walletId := "created-" ++ walletId
  deposited walletId := "deposited-" ++ walletId
  transaction walletId := "transaction-" ++ walletId
  now := 0

theorem legacy_balances_preserved_pair :
    ∃ t, migrate (migrateUp namedIds) legacyPair.tables = (t, none) ∧
      (∃ a, t.Replays (⟨"dollars", "ann", "USD"⟩, ⟨4235, by decide⟩) a ∧ a.balanceMinor = 4235) ∧
      migrate migrateDown t = (⟨.legacy legacyPair.rows, t.events, none⟩, none) := by
  have hvalue : ∀ row ∈ legacyPair.rows, 0 ≤ row.2.value := by
    intro row hrow
    refine not_lt.mp fun hneg => ?_
    have hrich : ∀ row ∈ legacyPair.rows, 0 ≤ row.2.hundredths := by decide
    exact absurd (row.2.value_neg_iff.mp hneg) (not_lt.mpr (hrich row hrow))
  have hfresh : namedIds.Fresh legacyPair.rows legacyPair.events :=
    ⟨by decide, by simp [legacyPair]⟩
  obtain ⟨t, hup, -, hrows, hdown, -⟩ := (legacy_balances_preserved legacyPair namedIds).1 hvalue hfresh
  obtain ⟨a, hreplays, -⟩ := hrows _ (List.mem_cons_self ..)
  refine ⟨t, hup, ⟨a, hreplays, ?_⟩, hdown⟩
  have hbalance := hreplays.balance
  rw [Numeric.value] at hbalance
  have hcast : (a.balanceMinor : ℚ) = (4235 : Int) := hbalance.trans (by norm_num)
  exact_mod_cast hcast

end Ledger

end PeerLedger
