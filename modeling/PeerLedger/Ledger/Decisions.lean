import PeerLedger.Ledger.Balances

/-!
# Decisions and their replay

The aggregate has its rules twice: the commands `deposit`, `withdraw`, `placeHold`, `releaseHold` and
`consumeHold` check before they decide on an event, and `apply` checks the event again when it is
replayed from its JSON payload.  `decisions_replay` says that the two sides agree on every wallet
that a stream can lead to: what a command decides on can be replayed, does what the command means,
and a repeated hold command finds that nothing is left to do.
-/

namespace PeerLedger

namespace Ledger

open WalletAggregate

/-! ### Replaying what was decided -/

section Replay

variable {a : WalletAggregate} {e : StoredEvent} {holdId transactionId : String} {n : Int}

/-- A movement of the wallet is replayed when the balance still covers the held funds. -/
lemma applyMoney_movement (he : e.payload = .obj (Change.movementFields a.id n transactionId))
    (hcover : a.heldMinor ≤ a.balanceMinor + n) :
    a.applyMoney e =
      .ok { a with version := e.streamVersion, balanceMinor := a.balanceMinor + n } := by
  have hread : readPostings e.payload = .ok (movement a.id n) := by
    rw [he]
    exact readPostings_movement rfl
  unfold applyMoney
  rw [hread]
  simp only [bind, Except.bind, walletPostings, movement_filter, parseMinorUnits_toString]
  rw [if_neg (not_lt.mpr hcover)]
  rfl

/-- The id of a hold is read back when it is not empty. -/
lemma readHoldId_cons (fields : List (String × Json)) (hid : holdId ≠ "") :
    readHoldId (.obj (("holdId", .str holdId) :: fields)) = .ok holdId := by
  simp [readHoldId, Json.access, bind, Except.bind, hid]

/-- A new hold is replayed when the available funds cover it. -/
lemma applyHeld_event
    (he : e.payload = .obj [("holdId", .str holdId), ("amountMinor", .str (toString n))])
    (hid : holdId ≠ "") (hnew : a.holds.lookup holdId = none) (hn : 0 < n)
    (hfunds : n ≤ a.availableMinor) :
    a.applyHeld e = .ok (a.withHold e.streamVersion holdId ⟨n, .active⟩) := by
  have hread : readHoldPayload e.payload = .ok (holdId, n) := by
    have hkey : ("amountMinor" == "holdId") = false := rfl
    unfold readHoldPayload
    rw [he, readHoldId_cons _ hid]
    simp [Json.access, List.lookup_cons, bind, Except.bind, hkey, pure, Except.pure]
  have hmem : holdId ∉ a.holds := AList.lookup_eq_none.mp hnew
  unfold applyHeld
  rw [hread]
  simp only [bind, Except.bind]
  rw [if_neg (by simp [hmem, hn, hfunds])]
  rfl

/-- The release of an active hold is replayed. -/
lemma applyReleased_event (he : e.payload = .obj [("holdId", .str holdId)]) (hid : holdId ≠ "")
    (hhold : a.holds.lookup holdId = some ⟨n, .active⟩) :
    a.applyReleased e = .ok (a.withHold e.streamVersion holdId ⟨n, .released⟩) := by
  unfold applyReleased
  rw [he, readHoldId_cons _ hid]
  simp [bind, Except.bind, hhold, pure, Except.pure]

/-- The consumption of an active hold is replayed. -/
lemma applyConsumed_event
    (he : e.payload = .obj (("holdId", .str holdId) ::
      Change.movementFields a.id (-n) transactionId)) (hid : holdId ≠ "")
    (hhold : a.holds.lookup holdId = some ⟨n, .active⟩) :
    a.applyConsumed e = .ok { a.withHold e.streamVersion holdId ⟨n, .consumed⟩ with
      balanceMinor := a.balanceMinor - n } := by
  have hread : readPostings e.payload = .ok (movement a.id (-n)) := by
    rw [he]
    exact readPostings_movement rfl
  unfold applyConsumed
  rw [hread, he, readHoldId_cons _ hid]
  simp only [bind, Except.bind, hhold, walletPostings, movement_filter, parseMinorUnits_toString]
  simp [pure, Except.pure, withHold]

end Replay

/-- The hold of a change has an id, and a new hold and a deposit have an amount. -/
def Change.WellFormed : Change → Prop
  | deposited n _ => 0 < n
  | withdrawn n _ => 0 < n
  | held holdId n => holdId ≠ "" ∧ 0 < n
  | released holdId _ => holdId ≠ ""
  | consumed holdId _ _ => holdId ≠ ""

/-- The event of an allowed change can be replayed at the next version. -/
lemma apply_change_ok {walletId : String} {events : List StoredEvent} {a : WalletAggregate}
    {c : Change} (hreplayed : Replayed walletId events a) (hallowed : c.Allowed a)
    (hc : c.WellFormed) (eventId : String) (now : Int) :
    a.apply (nextEvent a.id a.version (c.event a.id eventId) now) = .ok (c.result a) := by
  set e := nextEvent a.id a.version (c.event a.id eventId) now with he
  have hversion : e.streamVersion = a.version + 1 := by simp [he, nextEvent, storedEvent]
  have htype : e.eventType = c.eventType := c.nextEvent_eventType a.id a.id a.version
  have hschema : e.schemaVersion = 1 := by
    rw [he]
    cases c <;> rfl
  have hcover := hreplayed.held_le
  unfold WalletAggregate.apply
  rw [if_neg (not_not.mpr hversion), if_neg (by simp [hschema]),
    if_neg (by rw [htype]; exact c.eventType_ne_created), htype]
  cases c with
  | deposited n t =>
    have hn : 0 < n := hc
    refine (applyMoney_movement rfl (by omega)).trans ?_
    rw [hversion]
    simp [Change.result, Change.hold, Change.balanceMinor, Change.postings]
  | withdrawn n t =>
    have hfunds : n ≤ a.balanceMinor - a.heldMinor := hallowed
    refine (applyMoney_movement rfl (by omega)).trans ?_
    rw [hversion]
    simp [Change.result, Change.hold, Change.balanceMinor, Change.postings]
  | held holdId n =>
    refine (applyHeld_event rfl hc.1 hallowed.1 hc.2 hallowed.2).trans ?_
    rw [hversion]
    simp [Change.result, Change.hold, Change.balanceMinor, Change.postings, withHold]
  | released holdId n =>
    refine (applyReleased_event rfl hc hallowed).trans ?_
    rw [hversion]
    simp [Change.result, Change.hold, Change.balanceMinor, Change.postings, withHold]
  | consumed holdId n t =>
    refine (applyConsumed_event rfl hc hallowed).trans ?_
    rw [hversion]
    simp [Change.result, Change.hold, Change.balanceMinor, Change.postings, withHold,
      sub_eq_add_neg]

/-! ### What the commands mean -/

/-- What a decided event means for the wallet: the next version, a change of the balance and of the
held funds, and at most one hold that is set. -/
structure Moves (a a' : WalletAggregate) (balance held : Int) (hold : Option (String × HoldState)) :
    Prop where
  identity : a'.id = a.id ∧ a'.ownerId = a.ownerId ∧ a'.currency = a.currency
  version : a'.version = a.version + 1
  balance_eq : a'.balanceMinor = a.balanceMinor + balance
  held_eq : a'.heldMinor = a.heldMinor + held
  hold_set : ∀ holdId state, hold = some (holdId, state) → a'.holds.lookup holdId = some state
  other_holds : ∀ holdId, hold.map Prod.fst ≠ some holdId →
    a'.holds.lookup holdId = a.holds.lookup holdId

/-- What a change adds to the held funds. -/
def Change.heldMinor : Change → Int
  | deposited _ _ => 0
  | withdrawn _ _ => 0
  | held _ n => n
  | released _ n => -n
  | consumed _ n _ => -n

/-- An allowed change moves the wallet as it says. -/
lemma Change.result_moves {a : WalletAggregate} {c : Change} (hallowed : c.Allowed a) :
    Moves a (c.result a) c.balanceMinor c.heldMinor c.hold where
  identity := ⟨rfl, rfl, rfl⟩
  version := rfl
  balance_eq := rfl
  held_eq := by
    have hset : ∀ holdId state, c.hold = some (holdId, state) →
        (c.result a).heldMinor = a.heldMinor - a.heldUnder holdId + state.heldMinor := by
      intro holdId state hhold
      rw [← heldMinor_withHold a (a.version + 1) holdId state]
      simp [Change.result, hhold, withHold, WalletAggregate.heldMinor]
    cases c with
    | deposited n t => simp [Change.result, Change.hold, Change.heldMinor, WalletAggregate.heldMinor]
    | withdrawn n t => simp [Change.result, Change.hold, Change.heldMinor, WalletAggregate.heldMinor]
    | held holdId n =>
      have hnone : a.holds.lookup holdId = none := hallowed.1
      rw [hset holdId ⟨n, .active⟩ rfl]
      simp [heldUnder, hnone, HoldState.heldMinor, Change.heldMinor]
    | released holdId n =>
      have hactive : a.holds.lookup holdId = some ⟨n, .active⟩ := hallowed
      rw [hset holdId ⟨n, .released⟩ rfl]
      simp [heldUnder, hactive, HoldState.heldMinor, Change.heldMinor, sub_eq_add_neg]
    | consumed holdId n t =>
      have hactive : a.holds.lookup holdId = some ⟨n, .active⟩ := hallowed
      rw [hset holdId ⟨n, .consumed⟩ rfl]
      simp [heldUnder, hactive, HoldState.heldMinor, Change.heldMinor, sub_eq_add_neg]
  hold_set holdId state hhold := by
    rw [Change.lookup_result, hhold]
    exact if_pos rfl
  other_holds holdId hother := by
    rw [Change.lookup_result]
    cases hhold : c.hold with
    | none => rfl
    | some entry =>
      rw [hhold] at hother
      exact if_neg fun heq => hother (by rw [heq]; rfl)

/-- The decided event is stored at the wallet's next version, replayed, and moves the wallet so; and
on every wallet in which the hold is as it then is, the command that `again` repeats finds nothing
left to do. -/
def Replays (a : WalletAggregate) (event : EventData) (now balance held : Int)
    (hold : Option (String × HoldState)) (again : WalletAggregate → Prop) : Prop :=
  ∃ a', a.apply (nextEvent a.id a.version event now) = .ok a' ∧ Moves a a' balance held hold ∧
    ∀ b : WalletAggregate,
      (∀ holdId state, hold = some (holdId, state) → b.holds.lookup holdId = some state) → again b

/-- The event of an allowed change is replayed as the change says. -/
lemma Replayed.replays {walletId : String} {events : List StoredEvent} {a : WalletAggregate}
    {c : Change} {balance : Int} {again : WalletAggregate → Prop}
    (hreplayed : Replayed walletId events a) (hallowed : c.Allowed a) (hc : c.WellFormed)
    (eventId : String) (now : Int) (hbalance : c.balanceMinor = balance)
    (hagain : ∀ b : WalletAggregate, (∀ holdId state, c.hold = some (holdId, state) →
      b.holds.lookup holdId = some state) → again b) :
    Replays a (c.event a.id eventId) now balance c.heldMinor c.hold again :=
  ⟨c.result a, apply_change_ok hreplayed hallowed hc eventId now,
    hbalance ▸ Change.result_moves hallowed, hagain⟩

/-! ### Agreement -/

/-- On every wallet that a stream leads to, what a command decides on is replayed with exactly the
effect of the command; a withdrawal and a new hold are refused exactly when the available funds do
not cover them; and a hold command that is repeated decides on nothing. -/
theorem decisions_replay (walletId : String) (events : List StoredEvent) (a : WalletAggregate)
    (ha : rehydrate walletId events = .ok a) (n : Int) (hn : 0 < n) (holdId : String)
    (hid : holdId ≠ "") (eventId transactionId : String) (now : Int) :
    (∀ event, a.deposit n eventId transactionId = .ok event →
      Replays a event now n 0 none fun _ => True) ∧
    (∀ event, a.withdraw n eventId transactionId = .ok event →
      Replays a event now (-n) 0 none fun _ => True) ∧
    (∀ event, a.placeHold holdId n eventId = .ok (some event) →
      Replays a event now 0 n (some (holdId, ⟨n, .active⟩)) fun b =>
        ∀ eventId', b.placeHold holdId n eventId' = .ok none) ∧
    (∀ event, a.releaseHold holdId eventId = .ok (some event) →
      ∃ m, a.holds.lookup holdId = some ⟨m, .active⟩ ∧
        Replays a event now 0 (-m) (some (holdId, ⟨m, .released⟩)) fun b =>
          ∀ eventId', b.releaseHold holdId eventId' = .ok none) ∧
    (∀ event, a.consumeHold holdId eventId transactionId = .ok (some event) →
      ∃ m, a.holds.lookup holdId = some ⟨m, .active⟩ ∧
        Replays a event now (-m) (-m) (some (holdId, ⟨m, .consumed⟩)) fun b =>
          ∀ eventId' transactionId', b.consumeHold holdId eventId' transactionId' = .ok none) ∧
    ((∃ message, a.withdraw n eventId transactionId = .error message) ↔ a.availableMinor < n) ∧
    (a.holds.lookup holdId = none →
      ((∃ message, a.placeHold holdId n eventId = .error message) ↔ a.availableMinor < n)) := by
  have hreplayed := rehydrate_replayed ha
  refine ⟨fun event h => ?_, fun event h => ?_, fun event h => ?_, fun event h => ?_,
    fun event h => ?_, ?_, fun hnew => ?_⟩
  · obtain rfl := deposit_ok h
    have hallowed : (Change.deposited n transactionId).Allowed a := trivial
    exact hreplayed.replays hallowed hn eventId now (List.sum_singleton) fun _ _ => trivial
  · obtain ⟨hallowed, rfl⟩ := withdraw_ok h
    exact hreplayed.replays hallowed hn eventId now (List.sum_singleton) fun _ _ => trivial
  · obtain ⟨hallowed, rfl⟩ := placeHold_some h
    refine hreplayed.replays hallowed ⟨hid, hn⟩ eventId now rfl fun b hb eventId' => ?_
    simp [WalletAggregate.placeHold, hb holdId _ rfl, not_le.mpr hn]
  · obtain ⟨m, hallowed, rfl⟩ := releaseHold_some h
    refine ⟨m, hallowed, hreplayed.replays hallowed hid eventId now rfl fun b hb eventId' => ?_⟩
    simp [WalletAggregate.releaseHold, hb holdId _ rfl]
  · obtain ⟨m, hallowed, rfl⟩ := consumeHold_some h
    refine ⟨m, hallowed, hreplayed.replays hallowed hid eventId now (List.sum_singleton)
      fun b hb eventId' transactionId' => ?_⟩
    simp [WalletAggregate.consumeHold, hb holdId _ rfl]
  · unfold WalletAggregate.withdraw moneyEvent
    have hne : -n ≠ 0 := by omega
    rw [createLedgerTransaction_eq, if_neg hne]
    by_cases hfunds : a.availableMinor < n <;>
      simp [hfunds, bind, Except.bind, pure, Except.pure]
  · unfold WalletAggregate.placeHold
    rw [if_neg (not_le.mpr hn), hnew]
    split_ifs with hfunds <;> simp [hfunds]

/-- The wallet of `paidHoldHistory` can hold the 60 that it still has. -/
theorem decisions_replay_paidHold :
    Replays
      { id := "w", version := 4, ownerId := some "u", currency := some "USD", balanceMinor := 60,
        holds := AList.singleton "h" ⟨40, .consumed⟩ }
      ((Change.held "k" 60).event "w" "e") 0 0 60 (some ("k", ⟨60, .active⟩)) fun b =>
        ∀ eventId, b.placeHold "k" 60 eventId = .ok none :=
  (decisions_replay "w" paidHoldHistory _ (by rfl) 60 (by decide) "k" (by decide) "e" "t" 0).2.2.1
    _ (by rfl)

end Ledger

end PeerLedger
