import PeerLedger.Ledger.Commits

/-!
# Changes of wallets

A command that records an event changes one wallet, and a settlement changes two.  `Change` names
the change apart from its row in the event table: `Change.event` is the event that the aggregate
decides on, `Change.result` the aggregate after it, and `Change.Allowed` what was checked before.

`Effect.hold_cases` reads off what a commit does to one hold, and `Effect.settlements_cases` what it
does to the receipts.
-/

namespace PeerLedger

namespace Ledger

open Transactions WalletAggregate

/-- The ledger transaction of an event. -/
def StoredEvent.transactionId (e : StoredEvent) : Option String :=
  match e.payload.access "transactionId" with
  | .ok (some (.str transactionId)) => some transactionId
  | _ => none

/-- What an event after the first does to a wallet. -/
inductive Change where
  | deposited (amountMinor : Int) (transactionId : String)
  | withdrawn (amountMinor : Int) (transactionId : String)
  | held (holdId : String) (amountMinor : Int)
  | released (holdId : String) (amountMinor : Int)
  | consumed (holdId : String) (amountMinor : Int) (transactionId : String)

namespace Change

/-- The properties of a ledger transaction of the wallet. -/
def movementFields (walletId : String) (amountMinor : Int) (transactionId : String) :
    List (String × Json) :=
  LedgerTransactionPayload.fields ⟨transactionId, movement walletId amountMinor⟩

/-- The event of a change. -/
def event (walletId eventId : String) : Change → EventData
  | deposited n transactionId =>
    { eventId, eventType := MONEY_DEPOSITED, schemaVersion := 1,
      payload := .obj (movementFields walletId n transactionId) }
  | withdrawn n transactionId =>
    { eventId, eventType := WITHDRAWAL_COMPLETED, schemaVersion := 1,
      payload := .obj (movementFields walletId (-n) transactionId) }
  | held holdId n =>
    { eventId, eventType := FUNDS_HELD, schemaVersion := 1,
      payload := .obj [("holdId", .str holdId), ("amountMinor", .str (toString n))] }
  | released holdId _ =>
    { eventId, eventType := HOLD_RELEASED, schemaVersion := 1,
      payload := .obj [("holdId", .str holdId)] }
  | consumed holdId n transactionId =>
    { eventId, eventType := HOLD_CONSUMED, schemaVersion := 1,
      payload := .obj (("holdId", .str holdId) :: movementFields walletId (-n) transactionId) }

/-- The wallet's own postings of a change. -/
def postings : Change → List Int
  | deposited n _ => [n]
  | withdrawn n _ => [-n]
  | held _ _ => []
  | released _ _ => []
  | consumed _ n _ => [-n]

/-- The ledger transaction of a change. -/
def transactionId : Change → Option String
  | deposited _ transactionId => some transactionId
  | withdrawn _ transactionId => some transactionId
  | held _ _ => none
  | released _ _ => none
  | consumed _ _ transactionId => some transactionId

/-- What a change does to a hold, as a history reads it. -/
def action : Change → Option (String × HoldAction)
  | deposited _ _ => none
  | withdrawn _ _ => none
  | held holdId n => some (holdId, .held n)
  | released holdId _ => some (holdId, .released)
  | consumed holdId _ _ => some (holdId, .consumed)

/-- What a change adds to the balance. -/
def balanceMinor (c : Change) : Int := c.postings.sum

/-- The hold that a change sets. -/
def hold : Change → Option (String × HoldState)
  | deposited _ _ => none
  | withdrawn _ _ => none
  | held holdId n => some (holdId, ⟨n, .active⟩)
  | released holdId n => some (holdId, ⟨n, .released⟩)
  | consumed holdId n _ => some (holdId, ⟨n, .consumed⟩)

/-- The wallet after a change. -/
def result (a : WalletAggregate) (c : Change) : WalletAggregate :=
  { a with
    version := a.version + 1
    balanceMinor := a.balanceMinor + c.balanceMinor
    holds := match c.hold with
      | some (holdId, hold) => a.holds.insert holdId hold
      | none => a.holds }

/-- What was checked of the wallet before a change. -/
def Allowed (a : WalletAggregate) : Change → Prop
  | deposited _ _ => True
  | withdrawn n _ => n ≤ a.availableMinor
  | held holdId n => a.holds.lookup holdId = none ∧ n ≤ a.availableMinor
  | released holdId n => a.holds.lookup holdId = some ⟨n, .active⟩
  | consumed holdId n _ => a.holds.lookup holdId = some ⟨n, .active⟩

end Change

section Decisions

variable {a a' : WalletAggregate} {event : EventData} {eventId transactionId holdId : String}
variable {n now : Int}

/-! ### The decisions of the aggregate -/

lemma moneyEvent_ok {eventType : String}
    (h : a.moneyEvent eventType n eventId transactionId = .ok event) :
    event = { eventId, eventType, schemaVersion := 1,
              payload := .obj (Change.movementFields a.id n transactionId) } := by
  simp only [moneyEvent, createLedgerTransaction_eq] at h
  split_ifs at h
  · cases h
  · exact (Except.ok.inj h).symm

lemma deposit_ok (h : a.deposit n eventId transactionId = .ok event) :
    event = (Change.deposited n transactionId).event a.id eventId :=
  moneyEvent_ok h

lemma withdraw_ok (h : a.withdraw n eventId transactionId = .ok event) :
    (Change.withdrawn n transactionId).Allowed a ∧
      event = (Change.withdrawn n transactionId).event a.id eventId := by
  obtain ⟨hfunds, h⟩ := ite_error_eq_ok.mp h
  exact ⟨not_lt.mp hfunds, moneyEvent_ok h⟩

lemma placeHold_some (h : a.placeHold holdId n eventId = .ok (some event)) :
    (Change.held holdId n).Allowed a ∧ event = (Change.held holdId n).event a.id eventId := by
  simp only [WalletAggregate.placeHold, ite_error_eq_ok] at h
  obtain ⟨-, h⟩ := h
  split at h
  · split_ifs at h
    cases h
  · rename_i hlookup
    obtain ⟨hfunds, h⟩ := ite_error_eq_ok.mp h
    exact ⟨⟨hlookup, not_lt.mp hfunds⟩, (Option.some.inj (Except.ok.inj h)).symm⟩

lemma releaseHold_some (h : a.releaseHold holdId eventId = .ok (some event)) :
    ∃ n, (Change.released holdId n).Allowed a ∧
      event = (Change.released holdId n).event a.id eventId := by
  unfold WalletAggregate.releaseHold at h
  split at h
  · cases h
  · rename_i hold hlookup
    obtain ⟨n, _ | _ | _⟩ := hold
    · exact ⟨n, hlookup, (Option.some.inj (Except.ok.inj h)).symm⟩
    · cases h
    · cases h

lemma consumeHold_some (h : a.consumeHold holdId eventId transactionId = .ok (some event)) :
    ∃ n, (Change.consumed holdId n transactionId).Allowed a ∧
      event = (Change.consumed holdId n transactionId).event a.id eventId := by
  unfold WalletAggregate.consumeHold at h
  split at h
  · cases h
  · rename_i hold hlookup
    obtain ⟨n, _ | _ | _⟩ := hold
    · simp only [createLedgerTransaction_eq] at h
      split_ifs at h
      · cases h
      · exact ⟨n, hlookup, (Option.some.inj (Except.ok.inj h)).symm⟩
    · cases h
    · cases h

lemma decideDebit_ok {transferId : String} (h : decideDebit transferId n a eventId = .ok event) :
    (Change.consumed transferId n transferId).Allowed a ∧
      event = (Change.consumed transferId n transferId).event a.id eventId := by
  unfold decideDebit at h
  split at h
  · cases h
  · rename_i hold hlookup
    obtain ⟨hamount, h⟩ := ite_error_eq_ok.mp h
    split at h
    · cases h
    · cases h
    · rename_i debit hdebit
      obtain rfl := Except.ok.inj h
      obtain ⟨m, hm, hevent⟩ := consumeHold_some hdebit
      have hmn : m = n := by
        rw [show a.holds.lookup transferId = some ⟨m, .active⟩ from hm] at hlookup
        obtain rfl := Option.some.inj hlookup
        exact not_not.mp hamount
      exact hmn ▸ ⟨hm, hevent⟩

/-! ### Replaying a change -/

/-- The event type of a change. -/
def Change.eventType : Change → String
  | deposited _ _ => MONEY_DEPOSITED
  | withdrawn _ _ => WITHDRAWAL_COMPLETED
  | held _ _ => FUNDS_HELD
  | released _ _ => HOLD_RELEASED
  | consumed _ _ _ => HOLD_CONSUMED

lemma Change.nextEvent_eventType (c : Change) (streamId walletId : String) (version : Int) :
    (nextEvent streamId version (c.event walletId eventId) now).eventType = c.eventType := by
  cases c <;> rfl

lemma Change.nextEvent_transactionId (c : Change) (streamId walletId : String) (version : Int) :
    (nextEvent streamId version (c.event walletId eventId) now).transactionId =
      c.transactionId := by
  cases c <;> rfl

lemma Change.eventType_ne_created (c : Change) : c.eventType ≠ WALLET_CREATED := by
  cases c <;> simp [Change.eventType, WALLET_CREATED, MONEY_DEPOSITED, WITHDRAWAL_COMPLETED,
    FUNDS_HELD, HOLD_RELEASED, HOLD_CONSUMED]

lemma Change.eventType_money {c : Change}
    (h : c.eventType = MONEY_DEPOSITED ∨ c.eventType = WITHDRAWAL_COMPLETED) :
    (∃ n t, c = deposited n t) ∨ ∃ n t, c = withdrawn n t := by
  cases c <;> simp_all [Change.eventType, MONEY_DEPOSITED, WITHDRAWAL_COMPLETED,
    FUNDS_HELD, HOLD_RELEASED, HOLD_CONSUMED]

lemma Change.eventType_held {c : Change} (h : c.eventType = FUNDS_HELD) :
    ∃ holdId n, c = held holdId n := by
  cases c <;> simp_all [Change.eventType, MONEY_DEPOSITED, WITHDRAWAL_COMPLETED,
    FUNDS_HELD, HOLD_RELEASED, HOLD_CONSUMED]

lemma Change.eventType_released {c : Change} (h : c.eventType = HOLD_RELEASED) :
    ∃ holdId n, c = released holdId n := by
  cases c <;> simp_all [Change.eventType, MONEY_DEPOSITED, WITHDRAWAL_COMPLETED,
    FUNDS_HELD, HOLD_RELEASED, HOLD_CONSUMED]

lemma Change.eventType_consumed {c : Change} (h : c.eventType = HOLD_CONSUMED) :
    ∃ holdId n t, c = consumed holdId n t := by
  cases c <;> simp_all [Change.eventType, MONEY_DEPOSITED, WITHDRAWAL_COMPLETED,
    FUNDS_HELD, HOLD_RELEASED, HOLD_CONSUMED]

/-- The posting that replay reads from a movement. -/
lemma posting_movement {fields : List (String × Json)} {walletId : String} {m : Int}
    {postings : List Posting} {posting : Posting}
    (h : fields.lookup "postings" = some (.arr ((movement walletId n).map Posting.toJson)))
    (hread : readPostings (.obj fields) = .ok postings)
    (hown : walletPostings walletId postings = [posting])
    (hm : parseMinorUnits posting.amountMinor = .ok m) : m = n := by
  rw [readPostings_movement h] at hread
  obtain rfl := Except.ok.inj hread
  rw [walletPostings, movement_filter] at hown
  obtain rfl := (List.cons.inj hown).1.symm
  rw [parseMinorUnits_toString] at hm
  exact (Except.ok.inj hm).symm

/-- The postings that a history reads from the event of a change. -/
lemma ownPostings_change (c : Change) (streamId walletId : String) (version : Int) :
    ownPostings walletId (nextEvent streamId version (c.event walletId eventId) now) =
      c.postings := by
  have hmovement : ∀ {e : StoredEvent} {fields : List (String × Json)} {m : Int},
      e.eventType = MONEY_DEPOSITED ∨ e.eventType = WITHDRAWAL_COMPLETED ∨
        e.eventType = HOLD_CONSUMED → e.payload = .obj fields →
      fields.lookup "postings" = some (.arr ((movement walletId m).map Posting.toJson)) →
      ownPostings walletId e = [m] := by
    intro e fields m htype hpayload hfields
    unfold ownPostings
    rw [if_pos htype, hpayload, readPostings_movement hfields]
    simp [walletPostings, movement_filter, parseMinorUnits_repr, Except.toOption]
  have htype : (nextEvent streamId version (c.event walletId eventId) now).eventType =
      c.eventType := c.nextEvent_eventType streamId walletId version
  cases c with
  | deposited n t => exact hmovement (.inl htype) rfl rfl
  | withdrawn n t => exact hmovement (.inr (.inl htype)) rfl rfl
  | held holdId n => rfl
  | released holdId n => rfl
  | consumed holdId n t => exact hmovement (.inr (.inr htype)) rfl rfl

/-- The hold id that replay reads from a payload. -/
lemma readHoldId_ok {fields : List (String × Json)} {h : String}
    (hread : readHoldId (.obj (("holdId", .str holdId) :: fields)) = .ok h) : h = holdId := by
  simp only [readHoldId, Json.access, List.lookup_cons, bind, Except.bind, beq_self_eq_true] at hread
  split_ifs at hread
  exact (Except.ok.inj hread).symm

/-- The hold that replay reads from the payload of `FundsHeld`. -/
lemma readHoldPayload_ok {h : String} {m : Int}
    (hread : readHoldPayload (.obj [("holdId", .str holdId), ("amountMinor", .str (toString n))]) =
      .ok (h, m)) : h = holdId ∧ m = n := by
  obtain ⟨h', hid, hread⟩ := except_bind_ok.mp hread
  obtain rfl := readHoldId_ok hid
  have hkey : ("amountMinor" == "holdId") = false := rfl
  simp only [Json.access, List.lookup_cons, bind, Except.bind, hkey, beq_self_eq_true,
    parseMinorUnits_toString] at hread
  cases hread
  exact ⟨rfl, rfl⟩

/-- Replaying the event of a change changes the wallet. -/
lemma apply_change {streamId : String} {c : Change} (hallowed : c.Allowed a)
    (h : a.apply (nextEvent streamId a.version (c.event a.id eventId) now) = .ok a') :
    a' = c.result a := by
  obtain ⟨-, h⟩ := apply_ok h
  have htype : (nextEvent streamId a.version (c.event a.id eventId) now).eventType = c.eventType :=
    c.nextEvent_eventType streamId a.id a.version
  have hversion : (nextEvent streamId a.version (c.event a.id eventId) now).streamVersion =
      a.version + 1 := by simp [nextEvent, storedEvent]
  cases h with
  | created ownerId currency ht => exact absurd (htype.symm.trans ht) c.eventType_ne_created
  | money postings posting m ht hread hown hm =>
    rw [htype] at ht
    rcases Change.eventType_money ht with ⟨n, t, rfl⟩ | ⟨n, t, rfl⟩
    · obtain rfl := posting_movement rfl hread hown hm
      rw [hversion]
      simp [Change.result, Change.hold, Change.balanceMinor, Change.postings]
    · obtain rfl := posting_movement rfl hread hown hm
      rw [hversion]
      simp [Change.result, Change.hold, Change.balanceMinor, Change.postings]
  | held h m ht hread =>
    rw [htype] at ht
    obtain ⟨holdId, n, rfl⟩ := Change.eventType_held ht
    obtain ⟨rfl, rfl⟩ := readHoldPayload_ok hread
    rw [hversion]
    simp [Change.result, Change.hold, Change.balanceMinor, Change.postings, withHold]
  | released h m ht hread hlookup =>
    rw [htype] at ht
    obtain ⟨holdId, n, rfl⟩ := Change.eventType_released ht
    obtain rfl := readHoldId_ok hread
    obtain rfl : n = m := by simpa [Change.Allowed, hlookup, eq_comm] using hallowed
    rw [hversion]
    simp [Change.result, Change.hold, Change.balanceMinor, Change.postings, withHold]
  | consumed h m postings posting ht hid hlookup hread hown hm =>
    rw [htype] at ht
    obtain ⟨holdId, n, t, rfl⟩ := Change.eventType_consumed ht
    obtain rfl := readHoldId_ok hid
    obtain rfl : n = m := by simpa [Change.Allowed, hlookup, eq_comm] using hallowed
    rw [hversion]
    simp [Change.result, Change.hold, Change.balanceMinor, Change.postings, withHold, sub_eq_add_neg]

end Decisions

/-! ### The changes of a commit -/

/-- The commands of an owner that make a change to the wallet. -/
inductive Change.MadeBy (draw : Draw) (walletId ownerId : String) : Change → Command → Prop
  | deposited {amount n} : toMinorUnits "Сума повинна бути додатною" amount = .ok n →
      MadeBy draw walletId ownerId (.deposited n draw.transactionId)
        (.deposit walletId ownerId amount)
  | withdrawn {amount n} : toMinorUnits "Сума повинна бути додатною" amount = .ok n →
      MadeBy draw walletId ownerId (.withdrawn n draw.transactionId)
        (.withdraw walletId ownerId amount)
  | held {command holdId amount n} : command.Places walletId ownerId holdId amount →
      toMinorUnits "Сума повинна бути додатною" amount = .ok n →
      MadeBy draw walletId ownerId (.held holdId n) command
  | released {command holdId allow n} : command.Releases walletId ownerId holdId allow →
      MadeBy draw walletId ownerId (.released holdId n) command
  | consumed {holdId n} : MadeBy draw walletId ownerId (.consumed holdId n draw.transactionId)
      (.consumeHold walletId ownerId holdId)

/-- A change of the wallet, whose aggregate on `db` is `a`. -/
structure Makes (db : Database) (wallet : Wallet) (a : WalletAggregate) (c : Change)
    (eventId : String) (now : Int) : Prop where
  allowed : c.Allowed a
  recorded : Recorded db wallet a (nextEvent wallet.id a.version (c.event wallet.id eventId) now)
    (c.result a)

section Makes

variable {db : Database} {wallet : Wallet} {draw : Draw} {command : Command}
variable {a a' : WalletAggregate} {event : EventData} {eventId : String} {now : Int}

lemma Recorded.aggregate_id {e : StoredEvent} (h : Recorded db wallet a e a') : a.id = wallet.id :=
  (rehydrate_replayed h.rehydrated).id

/-- A recorded event of an allowed change makes the change. -/
lemma Recorded.makes {c : Change} (hallowed : c.Allowed a)
    (h : Recorded db wallet a (nextEvent wallet.id a.version (c.event a.id eventId) now) a') :
    a' = c.result a ∧ Makes db wallet a c eventId now := by
  have hresult := apply_change hallowed h.applied
  have hid := h.aggregate_id
  subst hresult
  rw [hid] at h
  exact ⟨rfl, hallowed, h⟩

/-- The decision of a command of an owner makes a change. -/
lemma Decides.makes (hd : Decides draw wallet.id wallet.ownerId a event command)
    (h : Recorded db wallet a (nextEvent wallet.id a.version event now) a') :
    ∃ c : Change, c.MadeBy draw wallet.id wallet.ownerId command ∧
      event = c.event wallet.id draw.eventId ∧ a' = c.result a ∧
      Makes db wallet a c draw.eventId now := by
  have hid := h.aggregate_id
  cases hd with
  | deposit hn hevent =>
    obtain rfl := deposit_ok hevent
    obtain ⟨hresult, hmakes⟩ := h.makes (c := .deposited _ _) trivial
    exact ⟨_, .deposited hn, by rw [hid], hresult, hmakes⟩
  | withdraw hn hevent =>
    obtain ⟨hallowed, rfl⟩ := withdraw_ok hevent
    obtain ⟨hresult, hmakes⟩ := h.makes hallowed
    exact ⟨_, .withdrawn hn, by rw [hid], hresult, hmakes⟩
  | place hplaces hn hevent =>
    obtain ⟨hallowed, rfl⟩ := placeHold_some hevent
    obtain ⟨hresult, hmakes⟩ := h.makes hallowed
    exact ⟨_, .held hplaces hn, by rw [hid], hresult, hmakes⟩
  | release hreleases hevent =>
    obtain ⟨n, hallowed, rfl⟩ := releaseHold_some hevent
    obtain ⟨hresult, hmakes⟩ := h.makes hallowed
    exact ⟨_, .released hreleases, by rw [hid], hresult, hmakes⟩
  | consume hevent =>
    obtain ⟨n, hallowed, rfl⟩ := consumeHold_some hevent
    obtain ⟨hresult, hmakes⟩ := h.makes hallowed
    exact ⟨_, .consumed, by rw [hid], hresult, hmakes⟩

/-- A settlement consumes the sender's hold. -/
lemma Settles.debit_makes {transferId : String} {dto : SettleInternalTransferDto}
    {receipt : LedgerTransferSettlement} {sender receiver : Wallet} {s s' r r' : WalletAggregate}
    {debit credit : StoredEvent}
    (h : Settles db transferId dto receipt sender receiver s s' r r' debit credit) :
    ∃ eventId now, s' = (Change.consumed transferId receipt.amountMinor transferId).result s ∧
      debit = nextEvent sender.id s.version
        ((Change.consumed transferId receipt.amountMinor transferId).event sender.id eventId) now ∧
      Makes db sender s (.consumed transferId receipt.amountMinor transferId) eventId now := by
  obtain ⟨eventId, event, now, hdebit, rfl⟩ := h.debit_eq
  obtain ⟨hallowed, rfl⟩ := decideDebit_ok hdebit
  obtain ⟨hresult, hmakes⟩ := h.debit_recorded.makes hallowed
  exact ⟨eventId, now, hresult, by rw [h.debit_recorded.aggregate_id], hmakes⟩

/-- A settlement deposits with the receiver. -/
lemma Settles.credit_makes {transferId : String} {dto : SettleInternalTransferDto}
    {receipt : LedgerTransferSettlement} {sender receiver : Wallet} {s s' r r' : WalletAggregate}
    {debit credit : StoredEvent}
    (h : Settles db transferId dto receipt sender receiver s s' r r' debit credit) :
    ∃ eventId now, r' = (Change.deposited receipt.destinationAmountMinor transferId).result r ∧
      credit = nextEvent receiver.id r.version
        ((Change.deposited receipt.destinationAmountMinor transferId).event receiver.id eventId)
        now ∧
      Makes db receiver r (.deposited receipt.destinationAmountMinor transferId) eventId now := by
  obtain ⟨eventId, event, now, hcredit, rfl⟩ := h.credit_eq
  obtain rfl := deposit_ok hcredit
  obtain ⟨hresult, hmakes⟩ := h.credit_recorded.makes (c := .deposited _ _) trivial
  exact ⟨eventId, now, hresult, by rw [h.credit_recorded.aggregate_id], hmakes⟩

/-- A history reads the hold of a change that was made. -/
lemma Makes.holdEvent_eq {c : Change} (h : Makes db wallet a c eventId now) :
    holdEvent (nextEvent wallet.id a.version (c.event wallet.id eventId) now) = c.action := by
  obtain ⟨-, happlied⟩ := apply_ok h.recorded.applied
  have htype : (nextEvent wallet.id a.version (c.event wallet.id eventId) now).eventType =
    c.eventType := c.nextEvent_eventType _ _ _
  generalize hresult : c.result a = result at happlied
  cases happlied with
  | created ownerId currency ht => exact absurd (htype.symm.trans ht) c.eventType_ne_created
  | money postings posting m ht =>
    rw [htype] at ht
    rcases Change.eventType_money ht with ⟨n, t, rfl⟩ | ⟨n, t, rfl⟩ <;> rfl
  | held holdId m ht hread =>
    rw [htype] at ht
    obtain ⟨holdId', n, rfl⟩ := Change.eventType_held ht
    obtain ⟨rfl, rfl⟩ := readHoldPayload_ok hread
    exact congrArg (fun read => read.toOption.map fun hold => (hold.1, HoldAction.held hold.2)) hread
  | released holdId m ht hread =>
    rw [htype] at ht
    obtain ⟨holdId', n, rfl⟩ := Change.eventType_released ht
    obtain rfl := readHoldId_ok hread
    exact congrArg (fun read => read.toOption.map fun holdId => (holdId, HoldAction.released)) hread
  | consumed holdId m postings posting ht hread =>
    rw [htype] at ht
    obtain ⟨holdId', n, t, rfl⟩ := Change.eventType_consumed ht
    obtain rfl := readHoldId_ok hread
    exact congrArg (fun read => read.toOption.map fun holdId => (holdId, HoldAction.consumed)) hread

end Makes

/-! ### What a commit does to one hold -/

section Holds

variable {a a' : WalletAggregate} {holdId : String}

lemma Database.hold_of_rehydrate {db : Database} {walletId : String}
    (h : rehydrate walletId (db.stream walletId) = .ok a) :
    db.hold walletId holdId = a.holds.lookup holdId := by
  simp [Database.hold, h]

/-- A recorded event changes the holds of its own wallet only. -/
lemma Recorded.hold_view {db : Database} {wallet : Wallet} {e : StoredEvent}
    {carrier : TraceCarrier} (h : Recorded db wallet a e a') (walletId : String) :
    (view db (records wallet e a' carrier)).hold walletId holdId =
      if walletId = wallet.id then a'.holds.lookup holdId else db.hold walletId holdId := by
  split_ifs with hid
  · subst hid
    refine Database.hold_of_rehydrate ?_
    rw [stream_records h.streamId, if_pos rfl]
    exact h.rehydrated_concat
  · simp only [Database.hold]
    rw [stream_records h.streamId, if_neg hid]

/-- A change sets at most one hold. -/
lemma Change.lookup_result (c : Change) :
    (c.result a).holds.lookup holdId = match c.hold with
      | some (key, hold) => if holdId = key then some hold else a.holds.lookup holdId
      | none => a.holds.lookup holdId := by
  cases hc : c.hold with
  | none => simp [Change.result, hc]
  | some entry =>
    obtain ⟨key, hold⟩ := entry
    by_cases hid : holdId = key
    · subst hid
      simp [Change.result, hc]
    · simp [Change.result, hc, hid]

end Holds

/-- What a commit of a command does to one hold. -/
inductive HoldStep (db db' : Database) (walletId holdId : String) : Command → Prop
  | same {command} : db'.hold walletId holdId = db.hold walletId holdId →
      HoldStep db db' walletId holdId command
  | placed {command ownerId amount n} : command.Places walletId ownerId holdId amount →
      toMinorUnits "Сума повинна бути додатною" amount = .ok n →
      db.hold walletId holdId = none → db'.hold walletId holdId = some ⟨n, .active⟩ →
      HoldStep db db' walletId holdId command
  | released {command ownerId allow n} : command.Releases walletId ownerId holdId allow →
      db.hold walletId holdId = some ⟨n, .active⟩ →
      db'.hold walletId holdId = some ⟨n, .released⟩ → HoldStep db db' walletId holdId command
  | consumed {ownerId n} : db.hold walletId holdId = some ⟨n, .active⟩ →
      db'.hold walletId holdId = some ⟨n, .consumed⟩ →
      HoldStep db db' walletId holdId (.consumeHold walletId ownerId holdId)
  | settled {dto} {receipt : LedgerTransferSettlement} :
      db'.settlements = db.settlements ++ [receipt] → receipt.transferId = holdId →
      receipt.senderWalletId = walletId →
      db.hold walletId holdId = some ⟨receipt.amountMinor, .active⟩ →
      db'.hold walletId holdId = some ⟨receipt.amountMinor, .consumed⟩ →
      HoldStep db db' walletId holdId (.settleTransfer holdId dto)

/-- The first event of a wallet sets no hold. -/
lemma hold_created {db : Database} {wallet : Wallet} {eventId : String} {now : Int}
    {carrier : TraceCarrier} (hempty : db.stream wallet.id = []) (walletId holdId : String) :
    (view db (creationWrites wallet eventId now carrier)).hold walletId holdId =
      db.hold walletId holdId := by
  have hstream : (view db (creationWrites wallet eventId now carrier)).stream walletId =
      if walletId = wallet.id then [nextEvent wallet.id 0
        (createdEvent eventId wallet.ownerId wallet.currency) now] else db.stream walletId := by
    rw [creationWrites, view_cons, stream_records rfl]
    change (if walletId = wallet.id then db.stream wallet.id ++ _ else db.stream walletId) = _
    rw [hempty, List.nil_append]
  simp only [Database.hold]
  rw [hstream]
  split_ifs with hid
  · subst hid
    rw [rehydrate_created, hempty]
    rfl
  · rfl

/-- An event of another wallet leaves a change alone. -/
lemma Makes.frame {db : Database} {wallet other : Wallet} {a : WalletAggregate} {c : Change}
    {eventId : String} {now : Int} {d : StoredEvent} (h : Makes db wallet a c eventId now)
    (hd : d.streamId = other.id) (hne : wallet.id ≠ other.id) (b : WalletAggregate)
    (carrier : TraceCarrier) :
    Makes (view db (records other d b carrier)) wallet a c eventId now :=
  ⟨h.allowed, h.recorded.frame hd hne b carrier⟩

/-- What a change does to one hold of its wallet. -/
lemma Makes.hold_cases {db : Database} {wallet : Wallet} {a : WalletAggregate} {c : Change}
    {eventId : String} {now : Int} (h : Makes db wallet a c eventId now) (carrier : TraceCarrier)
    (walletId holdId : String) :
    (view db (records wallet (nextEvent wallet.id a.version (c.event wallet.id eventId) now)
        (c.result a) carrier)).hold walletId holdId =
      match c.hold with
      | some (key, hold) =>
        if walletId = wallet.id ∧ holdId = key then some hold else db.hold walletId holdId
      | none => db.hold walletId holdId := by
  rw [h.recorded.hold_view, Change.lookup_result]
  by_cases hid : walletId = wallet.id
  · subst hid
    rw [Database.hold_of_rehydrate h.recorded.rehydrated]
    cases c.hold <;> simp
  · cases c.hold <;> simp [hid]

section Settlement

variable {db : Database} {transferId : String} {dto : SettleInternalTransferDto}
variable {receipt : LedgerTransferSettlement} {sender receiver : Wallet}
variable {s s' r r' : WalletAggregate} {debit credit : StoredEvent}

/-- A settlement finds the hold of its transfer active. -/
lemma Settles.hold_before
    (h : Settles db transferId dto receipt sender receiver s s' r r' debit credit) :
    db.hold sender.id transferId = some ⟨receipt.amountMinor, .active⟩ := by
  obtain ⟨_, _, -, -, hdebit⟩ := h.debit_makes
  exact (Database.hold_of_rehydrate hdebit.recorded.rehydrated).trans hdebit.allowed

/-- A settlement consumes the hold of its transfer and no other. -/
lemma Settles.hold_after
    (h : Settles db transferId dto receipt sender receiver s s' r r' debit credit)
    (carrier : TraceCarrier) (walletId holdId : String) :
    (view db (settlementWrites sender receiver debit credit s' r' carrier receipt)).hold walletId
        holdId =
      if walletId = sender.id ∧ holdId = transferId then some ⟨receipt.amountMinor, .consumed⟩
      else db.hold walletId holdId := by
  obtain ⟨_, _, rfl, rfl, hdebit⟩ := h.debit_makes
  obtain ⟨_, _, rfl, rfl, hcredit⟩ := h.credit_makes
  -- the credit touches no hold, and the debit only that of the transfer
  have hframe := hcredit.frame hdebit.recorded.streamId h.distinct.symm
    ((Change.consumed transferId receipt.amountMinor transferId).result s) carrier
  exact (hframe.hold_cases carrier walletId holdId).trans
    (hdebit.hold_cases carrier walletId holdId)

end Settlement

/-- What a commit of a command does to one hold. -/
lemma Effect.holdStep {draw : Nat → Draw} {startDb db : Database} {command : Command}
    {ws : List Write} (h : Effect draw startDb db command ws) (walletId holdId : String) :
    HoldStep db (view db ws) walletId holdId command := by
  cases h with
  | noop _ => exact .same rfl
  | created _ _ _ hempty => exact .same (hold_created hempty walletId holdId)
  | @recorded _ wallet a a' event now carrier hdecides hrecorded =>
    obtain ⟨c, hmade, rfl, rfl, hmakes⟩ := hdecides.makes hrecorded
    have hafter := hmakes.hold_cases carrier walletId holdId
    have hbefore : db.hold wallet.id holdId = a.holds.lookup holdId :=
      Database.hold_of_rehydrate hmakes.recorded.rehydrated
    have hallowed := hmakes.allowed
    cases hmade with
    | deposited _ => exact .same hafter
    | withdrawn _ => exact .same hafter
    | @held _ key amount n hplaces hn =>
      by_cases hkey : walletId = wallet.id ∧ holdId = key
      · obtain ⟨rfl, rfl⟩ := hkey
        exact .placed hplaces hn (hbefore.trans hallowed.1) (hafter.trans (if_pos ⟨rfl, rfl⟩))
      · exact .same (hafter.trans (if_neg hkey))
    | @released _ key allow n hreleases =>
      by_cases hkey : walletId = wallet.id ∧ holdId = key
      · obtain ⟨rfl, rfl⟩ := hkey
        exact .released hreleases (hbefore.trans hallowed) (hafter.trans (if_pos ⟨rfl, rfl⟩))
      · exact .same (hafter.trans (if_neg hkey))
    | @consumed key n =>
      by_cases hkey : walletId = wallet.id ∧ holdId = key
      · obtain ⟨rfl, rfl⟩ := hkey
        exact .consumed (hbefore.trans hallowed) (hafter.trans (if_pos ⟨rfl, rfl⟩))
      · exact .same (hafter.trans (if_neg hkey))
  | @settled transferId dto receipt sender receiver s s' r r' debit credit carrier h =>
    by_cases hkey : walletId = sender.id ∧ holdId = transferId
    · obtain ⟨rfl, rfl⟩ := hkey
      exact .settled rfl h.transfer h.sender_id.symm h.hold_before
        ((h.hold_after carrier sender.id holdId).trans (if_pos ⟨rfl, rfl⟩))
    · exact .same ((h.hold_after carrier walletId holdId).trans (if_neg hkey))

end Ledger

end PeerLedger
