import PeerLedger.Ledger.Journal
import Mathlib.Data.List.AList
import Mathlib.Algebra.BigOperators.Group.List.Basic

/-!
# The wallet aggregate

A wallet is the left fold of its event stream (`wallet.aggregate.ts`).  The commands `deposit`,
`withdraw`, `placeHold`, `releaseHold` and `consumeHold` decide on the folded state and return the
event to append, or `none` when the command has already been carried out; `apply` replays one stored
event with all its checks.

`Applied` says once what an accepted event does to the aggregate; `apply_ok` reads it off `apply`.
-/

namespace PeerLedger

namespace Ledger

/-- An event before it is stored. -/
structure EventData where
  eventId : String
  eventType : String
  schemaVersion : Int
  payload : Json
  metadata : Option Json := none
  correlationId : Option String := none
  traceId : Option String := none

/-- A row of `ledger_events`. -/
structure StoredEvent where
  eventId : String
  streamId : String
  aggregateType : String
  eventType : String
  schemaVersion : Int
  streamVersion : Int
  payload : Json
  metadata : Json
  correlationId : Option String
  traceId : Option String
  createdAt : Int

def WALLET_CREATED : String := "WalletCreated"
def MONEY_DEPOSITED : String := "MoneyDeposited"
def WITHDRAWAL_COMPLETED : String := "WithdrawalCompleted"
def FUNDS_HELD : String := "FundsHeld"
def HOLD_RELEASED : String := "HoldReleased"
def HOLD_CONSUMED : String := "HoldConsumed"

/-- The life of a hold. -/
inductive HoldStatus where
  | active
  | released
  | consumed
deriving DecidableEq, Repr

/-- A hold of a wallet. -/
structure HoldState where
  amountMinor : Int
  status : HoldStatus
deriving DecidableEq, Repr

/-- The holds of a wallet by hold id; an association list has no key twice. -/
abbrev Holds := AList fun _ : String => HoldState

/-- The state of a wallet after a prefix of its stream. -/
structure WalletAggregate where
  id : String
  version : Int
  ownerId : Option String
  currency : Option String
  balanceMinor : Int
  holds : Holds
deriving DecidableEq

/-- What a hold takes from the available funds. -/
def HoldState.heldMinor (hold : HoldState) : Int :=
  if hold.status = .active then hold.amountMinor else 0

namespace WalletAggregate

/-- The wallet before its first event. -/
def empty (walletId : String) : WalletAggregate :=
  { id := walletId, version := 0, ownerId := none, currency := none, balanceMinor := 0, holds := ∅ }

/-- The funds under active holds. -/
def heldMinor (a : WalletAggregate) : Int :=
  (a.holds.entries.map fun entry => entry.2.heldMinor).sum

/-- The funds that may be spent. -/
def availableMinor (a : WalletAggregate) : Int := a.balanceMinor - a.heldMinor

/-! ### Commands -/

/-- The first event of a stream. -/
def createdEvent (eventId ownerId currency : String) : EventData :=
  { eventId, eventType := WALLET_CREATED, schemaVersion := 2,
    payload := .obj [("ownerId", .str ownerId), ("currencyCode", .str currency)] }

/-- A deposit or withdrawal event. -/
def moneyEvent (a : WalletAggregate) (eventType : String) (walletAmountMinor : Int)
    (eventId transactionId : String) : Except String EventData := do
  let transaction ← createLedgerTransaction a.id walletAmountMinor transactionId
  return { eventId, eventType, schemaVersion := 1, payload := .obj transaction.fields }

def deposit (a : WalletAggregate) (amountMinor : Int) (eventId transactionId : String) :
    Except String EventData :=
  a.moneyEvent MONEY_DEPOSITED amountMinor eventId transactionId

def withdraw (a : WalletAggregate) (amountMinor : Int) (eventId transactionId : String) :
    Except String EventData :=
  if a.availableMinor < amountMinor then .error "INSUFFICIENT_FUNDS"
  else a.moneyEvent WITHDRAWAL_COMPLETED (-amountMinor) eventId transactionId

def placeHold (a : WalletAggregate) (holdId : String) (amountMinor : Int) (eventId : String) :
    Except String (Option EventData) :=
  if amountMinor ≤ 0 then .error "INVALID_HOLD_AMOUNT"
  else
    match a.holds.lookup holdId with
    | some existing =>
      if existing.amountMinor ≠ amountMinor then .error "HOLD_CONFLICT" else .ok none
    | none =>
      if a.availableMinor < amountMinor then .error "INSUFFICIENT_FUNDS"
      else .ok <| some
        { eventId, eventType := FUNDS_HELD, schemaVersion := 1,
          payload := .obj [("holdId", .str holdId), ("amountMinor", .str (toString amountMinor))] }

def releaseHold (a : WalletAggregate) (holdId eventId : String) :
    Except String (Option EventData) :=
  match a.holds.lookup holdId with
  | none => .error "HOLD_NOT_FOUND"
  | some hold =>
    match hold.status with
    | .released => .ok none
    | .consumed => .error "HOLD_ALREADY_CONSUMED"
    | .active => .ok <| some
        { eventId, eventType := HOLD_RELEASED, schemaVersion := 1,
          payload := .obj [("holdId", .str holdId)] }

def consumeHold (a : WalletAggregate) (holdId eventId transactionId : String) :
    Except String (Option EventData) :=
  match a.holds.lookup holdId with
  | none => .error "HOLD_NOT_FOUND"
  | some hold =>
    match hold.status with
    | .consumed => .ok none
    | .released => .error "HOLD_ALREADY_RELEASED"
    | .active => do
      let transaction ← createLedgerTransaction a.id (-hold.amountMinor) transactionId
      return some
        { eventId, eventType := HOLD_CONSUMED, schemaVersion := 1,
          payload := .obj (("holdId", .str holdId) :: transaction.fields) }

/-! ### Replay -/

/-- `payload.holdId`, a non-empty string. -/
def readHoldId (payload : Json) : Except String String := do
  match ← payload.access "holdId" with
  | some (.str holdId) => if holdId = "" then .error "Invalid holdId" else .ok holdId
  | _ => .error "Invalid holdId"

/-- `payload.holdId` and `payload.amountMinor`. -/
def readHoldPayload (payload : Json) : Except String (String × Int) := do
  let holdId ← readHoldId payload
  match ← payload.access "amountMinor" with
  | some (.str amountMinor) => return (holdId, ← parseMinorUnits amountMinor)
  | _ => .error "Invalid hold amount"

/-- The postings of one wallet. -/
def walletPostings (walletId : String) (postings : List Posting) : List Posting :=
  postings.filter fun posting => posting.accountId = walletAccountId walletId

/-- The aggregate with a hold set and a new version. -/
def withHold (a : WalletAggregate) (version : Int) (holdId : String) (hold : HoldState) :
    WalletAggregate :=
  { a with version, holds := a.holds.insert holdId hold }

/-- The currency property of `WalletCreated`, which its second schema version renamed. -/
def createdCurrency (event : StoredEvent) : Except String (Option Json) :=
  if event.schemaVersion = 1 then event.payload.access "currency"
  else if event.schemaVersion = 2 then event.payload.access "currencyCode"
  else .ok none

/-- Replay of `WalletCreated`. -/
def applyCreated (a : WalletAggregate) (event : StoredEvent) : Except String WalletAggregate := do
  let currency ← createdCurrency event
  if a.version ≠ 0 then .error "Invalid WalletCreated event"
  else
    match ← event.payload.access "ownerId", currency with
    | some (.str ownerId), some (.str currency) =>
      return { a with version := event.streamVersion, ownerId := some ownerId,
                      currency := some currency, balanceMinor := 0, holds := ∅ }
    | _, _ => .error "Invalid WalletCreated event"

/-- Replay of `MoneyDeposited` and `WithdrawalCompleted`. -/
def applyMoney (a : WalletAggregate) (event : StoredEvent) : Except String WalletAggregate := do
  let postings ← readPostings event.payload
  match walletPostings a.id postings with
  | [posting] =>
    let nextBalance := a.balanceMinor + (← parseMinorUnits posting.amountMinor)
    if nextBalance < a.heldMinor then .error "Wallet event stream spends reserved funds"
    else return { a with version := event.streamVersion, balanceMinor := nextBalance }
  | _ => .error "Ledger event must contain one wallet posting"

/-- Replay of `FundsHeld`. -/
def applyHeld (a : WalletAggregate) (event : StoredEvent) : Except String WalletAggregate := do
  let (holdId, amountMinor) ← readHoldPayload event.payload
  if holdId ∈ a.holds ∨ amountMinor ≤ 0 ∨ a.availableMinor < amountMinor then
    .error "Invalid FundsHeld event"
  else return a.withHold event.streamVersion holdId { amountMinor, status := .active }

/-- Replay of `HoldReleased`. -/
def applyReleased (a : WalletAggregate) (event : StoredEvent) : Except String WalletAggregate := do
  let holdId ← readHoldId event.payload
  match a.holds.lookup holdId with
  | some hold =>
    if hold.status ≠ .active then .error "Invalid HoldReleased event"
    else return a.withHold event.streamVersion holdId { hold with status := .released }
  | none => .error "Invalid HoldReleased event"

/-- Replay of `HoldConsumed`. -/
def applyConsumed (a : WalletAggregate) (event : StoredEvent) : Except String WalletAggregate := do
  let holdId ← readHoldId event.payload
  match a.holds.lookup holdId with
  | some hold =>
    if hold.status ≠ .active then .error "Invalid HoldConsumed event"
    else
      match walletPostings a.id (← readPostings event.payload) with
      | [posting] =>
        if (← parseMinorUnits posting.amountMinor) ≠ -hold.amountMinor then
          .error "Hold settlement posting does not match reserved amount"
        else
          let next := a.withHold event.streamVersion holdId { hold with status := .consumed }
          return { next with balanceMinor := next.balanceMinor - hold.amountMinor }
      | _ => .error "Hold settlement posting does not match reserved amount"
  | none => .error "Invalid HoldConsumed event"

/-- Replay of one stored event. -/
def apply (a : WalletAggregate) (event : StoredEvent) : Except String WalletAggregate :=
  if event.streamVersion ≠ a.version + 1 then .error "Wallet event stream contains a version gap"
  else if event.eventType ≠ WALLET_CREATED ∧ event.schemaVersion ≠ 1 then
    .error ("Unsupported " ++ event.eventType ++ " schema version " ++ toString event.schemaVersion)
  else if event.eventType = WALLET_CREATED then a.applyCreated event
  else if event.eventType = MONEY_DEPOSITED ∨ event.eventType = WITHDRAWAL_COMPLETED then
    a.applyMoney event
  else if event.eventType = FUNDS_HELD then a.applyHeld event
  else if event.eventType = HOLD_RELEASED then a.applyReleased event
  else if event.eventType = HOLD_CONSUMED then a.applyConsumed event
  else .error ("Unsupported wallet event type: " ++ event.eventType)

/-- The wallet after its whole stream. -/
def rehydrate (walletId : String) (events : List StoredEvent) : Except String WalletAggregate :=
  events.foldlM apply (empty walletId)

/-! ### What an accepted event does -/

/-- What an accepted event does to the aggregate. -/
inductive Applied (a : WalletAggregate) (e : StoredEvent) : WalletAggregate → Prop
  | created (ownerId currency : String) : e.eventType = WALLET_CREATED → a.version = 0 →
      Applied a e { a with version := e.streamVersion, ownerId := some ownerId,
                           currency := some currency, balanceMinor := 0, holds := ∅ }
  | money (postings : List Posting) (posting : Posting) (n : Int) :
      e.eventType = MONEY_DEPOSITED ∨ e.eventType = WITHDRAWAL_COMPLETED →
      readPostings e.payload = .ok postings → walletPostings a.id postings = [posting] →
      parseMinorUnits posting.amountMinor = .ok n → a.heldMinor ≤ a.balanceMinor + n →
      Applied a e { a with version := e.streamVersion, balanceMinor := a.balanceMinor + n }
  | held (holdId : String) (amountMinor : Int) : e.eventType = FUNDS_HELD →
      readHoldPayload e.payload = .ok (holdId, amountMinor) → a.holds.lookup holdId = none →
      0 < amountMinor → amountMinor ≤ a.availableMinor →
      Applied a e (a.withHold e.streamVersion holdId { amountMinor, status := .active })
  | released (holdId : String) (amountMinor : Int) : e.eventType = HOLD_RELEASED →
      readHoldId e.payload = .ok holdId →
      a.holds.lookup holdId = some { amountMinor, status := .active } →
      Applied a e (a.withHold e.streamVersion holdId { amountMinor, status := .released })
  | consumed (holdId : String) (amountMinor : Int) (postings : List Posting) (posting : Posting) :
      e.eventType = HOLD_CONSUMED → readHoldId e.payload = .ok holdId →
      a.holds.lookup holdId = some { amountMinor, status := .active } →
      readPostings e.payload = .ok postings → walletPostings a.id postings = [posting] →
      parseMinorUnits posting.amountMinor = .ok (-amountMinor) →
      Applied a e
        { a.withHold e.streamVersion holdId { amountMinor, status := .consumed } with
          balanceMinor := a.balanceMinor - amountMinor }

variable {a a' : WalletAggregate} {e : StoredEvent}

private lemma applyCreated_ok (he : e.eventType = WALLET_CREATED)
    (h : a.applyCreated e = .ok a') : Applied a e a' := by
  obtain ⟨currency, -, h⟩ := except_bind_ok.mp h
  split at h
  · cases h
  · rename_i hv
    obtain ⟨owner, -, h⟩ := except_bind_ok.mp h
    split at h
    · cases h
      exact .created _ _ he (not_not.mp hv)
    · cases h

private lemma applyMoney_ok
    (he : e.eventType = MONEY_DEPOSITED ∨ e.eventType = WITHDRAWAL_COMPLETED)
    (h : a.applyMoney e = .ok a') : Applied a e a' := by
  obtain ⟨postings, hp, h⟩ := except_bind_ok.mp h
  split at h
  · rename_i posting hw
    obtain ⟨n, hn, h⟩ := except_bind_ok.mp h
    dsimp only at h
    split at h
    · cases h
    · rename_i hle
      cases h
      exact .money postings posting n he hp hw hn (not_lt.mp hle)
  · cases h

private lemma applyHeld_ok (he : e.eventType = FUNDS_HELD) (h : a.applyHeld e = .ok a') :
    Applied a e a' := by
  obtain ⟨⟨holdId, amountMinor⟩, hr, h⟩ := except_bind_ok.mp h
  dsimp only at h
  split at h
  · cases h
  · rename_i hc
    push Not at hc
    cases h
    exact .held holdId amountMinor he hr (AList.lookup_eq_none.mpr hc.1) hc.2.1 hc.2.2

private lemma applyReleased_ok (he : e.eventType = HOLD_RELEASED)
    (h : a.applyReleased e = .ok a') : Applied a e a' := by
  obtain ⟨holdId, hr, h⟩ := except_bind_ok.mp h
  split at h
  · rename_i hold hl
    obtain ⟨amountMinor, status⟩ := hold
    split at h
    · cases h
    · rename_i hs
      cases not_not.mp hs
      cases h
      exact .released holdId amountMinor he hr hl
  · cases h

private lemma applyConsumed_ok (he : e.eventType = HOLD_CONSUMED)
    (h : a.applyConsumed e = .ok a') : Applied a e a' := by
  obtain ⟨holdId, hr, h⟩ := except_bind_ok.mp h
  split at h
  · rename_i hold hl
    obtain ⟨amountMinor, status⟩ := hold
    split at h
    · cases h
    · rename_i hs
      cases not_not.mp hs
      obtain ⟨postings, hp, h⟩ := except_bind_ok.mp h
      split at h
      · rename_i posting hw
        obtain ⟨n, hn, h⟩ := except_bind_ok.mp h
        split at h
        · cases h
        · rename_i hne
          cases not_not.mp hne
          cases h
          exact .consumed holdId amountMinor postings posting he hr hl hp hw hn
      · cases h
  · cases h

/-- An accepted event has the next version and does what `Applied` says. -/
lemma apply_ok (h : a.apply e = .ok a') : e.streamVersion = a.version + 1 ∧ Applied a e a' := by
  unfold apply at h
  split at h
  · cases h
  rename_i hv
  split at h
  · cases h
  refine ⟨not_not.mp hv, ?_⟩
  split at h
  · exact applyCreated_ok ‹_› h
  split at h
  · exact applyMoney_ok ‹_› h
  split at h
  · exact applyHeld_ok ‹_› h
  split at h
  · exact applyReleased_ok ‹_› h
  split at h
  · exact applyConsumed_ok ‹_› h
  · cases h

/-- An accepted event keeps the identity of the wallet. -/
lemma Applied.id_eq (h : Applied a e a') : a'.id = a.id := by
  cases h <;> rfl

/-- An accepted event sets the version. -/
lemma Applied.version_eq (h : Applied a e a') : a'.version = e.streamVersion := by
  cases h <;> rfl

/-- Only the first event sets the owner and the currency. -/
lemma Applied.identity_eq (h : Applied a e a') (hv : a.version ≠ 0) :
    a'.ownerId = a.ownerId ∧ a'.currency = a.currency := by
  cases h with
  | created _ _ _ h0 => exact absurd h0 hv
  | _ => exact ⟨rfl, rfl⟩

/-- Replaying a stream with one more event. -/
lemma rehydrate_concat (walletId : String) (events : List StoredEvent) (e : StoredEvent) :
    rehydrate walletId (events ++ [e]) = rehydrate walletId events >>= fun a => a.apply e := by
  simp [rehydrate, List.foldlM_append]

end WalletAggregate

end Ledger

end PeerLedger
