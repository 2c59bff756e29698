import PeerLedger.Ledger.WalletAggregate
import Mathlib.Algebra.Order.BigOperators.Group.List
import Mathlib.Data.List.Induction
import Mathlib.Tactic.Ring

/-!
# What an accepted history says about the wallet

`WalletAggregate.rehydrate` folds a stream with a check at every event.  This file reads the folded
state off the history itself: the balance is the sum of the wallet's own postings, the held funds are
the amounts of the holds that the history has not closed, and the events of every hold run through
`FundsHeld` and then at most one of `HoldReleased` and `HoldConsumed`.

Nothing is assumed of the events: any types, schema versions and payloads that the replay accepts.
-/

namespace PeerLedger

namespace Ledger

open WalletAggregate

/-! ### Reading a history -/

/-- The wallet's own postings of a money event. -/
def ownPostings (walletId : String) (e : StoredEvent) : List Int :=
  if e.eventType = MONEY_DEPOSITED ∨ e.eventType = WITHDRAWAL_COMPLETED ∨
      e.eventType = HOLD_CONSUMED then
    match readPostings e.payload with
    | .ok postings => (walletPostings walletId postings).filterMap fun posting =>
        (parseMinorUnits posting.amountMinor).toOption
    | .error _ => []
  else []

/-- The balance according to the journal. -/
def journalBalance (walletId : String) (events : List StoredEvent) : Int :=
  (events.flatMap (ownPostings walletId)).sum

/-- What an event does to a hold. -/
inductive HoldAction where
  | held (amountMinor : Int)
  | released
  | consumed
deriving DecidableEq

/-- The hold that an event is about, and what it does to it. -/
def holdEvent (e : StoredEvent) : Option (String × HoldAction) :=
  if e.eventType = FUNDS_HELD then
    (readHoldPayload e.payload).toOption.map fun hold => (hold.1, .held hold.2)
  else if e.eventType = HOLD_RELEASED then
    (readHoldId e.payload).toOption.map fun holdId => (holdId, .released)
  else if e.eventType = HOLD_CONSUMED then
    (readHoldId e.payload).toOption.map fun holdId => (holdId, .consumed)
  else none

/-- The hold events of a history, in order. -/
def holdLog (events : List StoredEvent) : List (String × HoldAction) := events.filterMap holdEvent

/-- The events of one hold, in order. -/
def holdActions (holdId : String) (log : List (String × HoldAction)) : List HoldAction :=
  (log.filter fun entry => entry.1 = holdId).map Prod.snd

/-- The entry releases or consumes the hold. -/
def closes (holdId : String) (entry : String × HoldAction) : Bool :=
  entry.1 = holdId && (entry.2 = .released || entry.2 = .consumed)

/-- The sum of the held amounts whose hold is not closed later. -/
def outstanding : List (String × HoldAction) → Int
  | [] => 0
  | (holdId, .held n) :: rest => (if rest.any (closes holdId) then 0 else n) + outstanding rest
  | _ :: rest => outstanding rest

/-- What an accepted history `events` of the wallet says about the aggregate `a`. -/
structure WalletHistory (walletId : String) (events : List StoredEvent) (a : WalletAggregate) :
    Prop where
  /-- The version counts the events. -/
  version : a.version = events.length
  /-- Held funds are never negative. -/
  held_nonneg : 0 ≤ a.heldMinor
  /-- Held funds are covered by the balance. -/
  held_le : a.heldMinor ≤ a.balanceMinor
  /-- Available funds are never negative. -/
  available_nonneg : 0 ≤ a.availableMinor
  /-- The balance is what the journal says. -/
  balance : a.balanceMinor = journalBalance walletId events
  /-- The held funds are the amounts of the holds that are still open. -/
  held : a.heldMinor = outstanding (holdLog events)
  /-- Every hold of the aggregate has a positive amount. -/
  holds_pos : ∀ holdId hold, a.holds.lookup holdId = some hold → 0 < hold.amountMinor
  /-- Every `FundsHeld` of the history has a positive amount. -/
  held_pos : ∀ holdId n, (holdId, HoldAction.held n) ∈ holdLog events → 0 < n
  /-- The events of a hold are a prefix of `FundsHeld` and one closing event. -/
  lifecycle : ∀ holdId, ∃ n, ∃ closing ∈ [HoldAction.released, HoldAction.consumed],
    holdActions holdId (holdLog events) <+: [.held n, closing]

/-! ### Open holds of a growing log -/

@[simp]
lemma closes_held (h h' : String) (n : Int) : closes h (h', .held n) = false := by simp [closes]

lemma holdActions_append (h : String) (log more : List (String × HoldAction)) :
    holdActions h (log ++ more) = holdActions h log ++ holdActions h more := by
  simp [holdActions]

/-- A new hold adds its amount. -/
lemma outstanding_concat_held (log : List (String × HoldAction)) (h : String) (n : Int) :
    outstanding (log ++ [(h, .held n)]) = outstanding log + n := by
  induction log with
  | nil => simp [outstanding]
  | cons entry log ih =>
    obtain ⟨h', act⟩ := entry
    cases act with
    | held m =>
      have hany : (log ++ [(h, HoldAction.held n)]).any (closes h') = log.any (closes h') := by
        simp
      rw [List.cons_append, outstanding, outstanding, hany, ih, add_assoc]
    | released => exact ih
    | consumed => exact ih

/-- Closing a hold takes off what was open under its id. -/
lemma outstanding_concat_close (log : List (String × HoldAction)) (h : String)
    {closing : HoldAction} (hc : closing ∈ [HoldAction.released, HoldAction.consumed]) :
    outstanding (log ++ [(h, closing)]) =
      outstanding log - outstanding (log.filter fun entry => entry.1 = h) := by
  have hclose : closes h (h, closing) = true := by simpa [closes] using hc
  induction log with
  | nil =>
    rcases List.mem_pair.mp hc with rfl | rfl <;> simp [outstanding]
  | cons entry log ih =>
    obtain ⟨h', act⟩ := entry
    by_cases hh : h' = h
    · subst hh
      -- the filter keeps every entry that could close the hold
      have hany : (log.filter fun entry => entry.1 = h').any (closes h') =
          log.any (closes h') := by
        rw [List.any_filter]
        congr 1
        funext entry
        by_cases he : entry.1 = h' <;> simp [closes, he]
      have hall : (log ++ [(h', closing)]).any (closes h') = true := by simp [hclose]
      rw [List.cons_append, List.filter_cons_of_pos (by simp)]
      cases act with
      | held m =>
        rw [outstanding, outstanding, outstanding, hall, hany, ih, if_pos rfl]
        ring
      | released => exact ih
      | consumed => exact ih

    · have hother : closes h' (h, closing) = false := by simp [closes, Ne.symm hh]
      have hany : (log ++ [(h, closing)]).any (closes h') = log.any (closes h') := by
        simp [hother]
      rw [List.cons_append, List.filter_cons_of_neg (by simp [hh])]
      cases act with
      | held m => rw [outstanding, outstanding, hany, ih, add_sub_assoc]
      | released => exact ih
      | consumed => exact ih

/-- What is open under one hold id is read off that hold's own events. -/
lemma outstanding_filter (log : List (String × HoldAction)) (h : String) :
    outstanding (log.filter fun entry => entry.1 = h) =
      outstanding ((holdActions h log).map fun act => (h, act)) := by
  rw [holdActions, List.map_map]
  congr 1
  conv_lhs => rw [← List.map_id (log.filter fun entry => entry.1 = h)]
  refine List.map_congr_left fun entry he => ?_
  have : entry.1 = h := by simpa using (List.mem_filter.mp he).2
  simp [← this]

/-! ### Held funds of the aggregate -/

/-- What is held under one hold id. -/
def WalletAggregate.heldUnder (a : WalletAggregate) (holdId : String) : Int :=
  (a.holds.lookup holdId).elim 0 HoldState.heldMinor

private lemma sum_kerase (h : String) (l : List (Sigma fun _ : String => HoldState)) :
    (l.map fun entry => entry.2.heldMinor).sum =
      (l.dlookup h).elim 0 HoldState.heldMinor +
        ((l.kerase h).map fun entry => entry.2.heldMinor).sum := by
  induction l with
  | nil => rfl
  | cons entry l ih =>
    obtain ⟨k, v⟩ := entry
    by_cases hk : h = k
    · subst hk
      simp [List.dlookup_cons_eq, List.kerase_cons_eq]
    · rw [List.dlookup_cons_ne _ _ (by exact hk), List.kerase_cons_ne (by exact hk)]
      simp only [List.map_cons, List.sum_cons, ih]
      ring

/-- Setting a hold exchanges what was held under its id. -/
lemma heldMinor_withHold (a : WalletAggregate) (v : Int) (h : String) (hold : HoldState) :
    (a.withHold v h hold).heldMinor = a.heldMinor - a.heldUnder h + hold.heldMinor := by
  have hsum := sum_kerase h a.holds.entries
  simp only [heldMinor, withHold, AList.entries_insert, List.map_cons, List.sum_cons]
  rw [hsum, heldUnder, AList.lookup]
  ring

lemma heldMinor_nonneg (a : WalletAggregate)
    (hpos : ∀ h hold, a.holds.lookup h = some hold → 0 < hold.amountMinor) : 0 ≤ a.heldMinor := by
  refine List.sum_nonneg fun x hx => ?_
  obtain ⟨⟨h, hold⟩, he, rfl⟩ := List.mem_map.mp hx
  have := hpos h hold (AList.mem_lookup_iff.mpr he)
  simp only [HoldState.heldMinor]
  split <;> omega

/-! ### The replay invariant -/

/-- The events that lead to a hold state. -/
def HoldState.actions : Option HoldState → List HoldAction
  | none => []
  | some ⟨n, .active⟩ => [.held n]
  | some ⟨n, .released⟩ => [.held n, .released]
  | some ⟨n, .consumed⟩ => [.held n, .consumed]

/-- What is open under a hold id, according to the hold's own events, is what is held. -/
lemma outstanding_actions (h : String) (hold : Option HoldState) :
    outstanding ((HoldState.actions hold).map fun act => (h, act)) =
      hold.elim 0 HoldState.heldMinor := by
  rcases hold with _ | ⟨n, _ | _ | _⟩ <;>
    simp [HoldState.actions, outstanding, closes, HoldState.heldMinor]

/-- The invariant that the replay maintains. -/
structure Replayed (walletId : String) (events : List StoredEvent) (a : WalletAggregate) :
    Prop where
  id : a.id = walletId
  version : a.version = events.length
  balance : a.balanceMinor = journalBalance walletId events
  held : a.heldMinor = outstanding (holdLog events)
  held_le : a.heldMinor ≤ a.balanceMinor
  holds_pos : ∀ h hold, a.holds.lookup h = some hold → 0 < hold.amountMinor
  actions : ∀ h, holdActions h (holdLog events) = HoldState.actions (a.holds.lookup h)

variable {walletId : String} {events : List StoredEvent} {a a' : WalletAggregate} {e : StoredEvent}

lemma Replayed.nil : Replayed walletId [] (empty walletId) where
  id := rfl
  version := rfl
  balance := rfl
  held := rfl
  held_le := le_refl _
  holds_pos := by simp [empty]
  actions := fun _ => rfl

/-- The aggregate holds under an id what the history left open under it. -/
lemma Replayed.heldUnder_eq (hr : Replayed walletId events a) (h : String) :
    outstanding ((holdLog events).filter fun entry => entry.1 = h) = a.heldUnder h := by
  rw [outstanding_filter, hr.actions h, outstanding_actions, heldUnder]

/-- An event outside the life of holds leaves the hold log alone. -/
private lemma holdLog_concat_none (h : holdEvent e = none) :
    holdLog (events ++ [e]) = holdLog events := by
  simp [holdLog, h]

private lemma holdLog_concat_some {entry : String × HoldAction} (h : holdEvent e = some entry) :
    holdLog (events ++ [e]) = holdLog events ++ [entry] := by
  simp [holdLog, h]

private lemma journalBalance_concat :
    journalBalance walletId (events ++ [e]) =
      journalBalance walletId events + (ownPostings walletId e).sum := by
  simp [journalBalance]

/-- An event of an unnamed type, or of a hold that is not consumed, has no own postings. -/
private lemma ownPostings_of_type (h1 : e.eventType ≠ MONEY_DEPOSITED)
    (h2 : e.eventType ≠ WITHDRAWAL_COMPLETED) (h3 : e.eventType ≠ HOLD_CONSUMED) :
    ownPostings walletId e = [] := by
  simp [ownPostings, h1, h2, h3]

private lemma ownPostings_of_read {postings : List Posting} {posting : Posting} {n : Int}
    (ht : e.eventType = MONEY_DEPOSITED ∨ e.eventType = WITHDRAWAL_COMPLETED ∨
      e.eventType = HOLD_CONSUMED)
    (hp : readPostings e.payload = .ok postings) (hw : walletPostings walletId postings = [posting])
    (hn : parseMinorUnits posting.amountMinor = .ok n) : ownPostings walletId e = [n] := by
  simp [ownPostings, ht, hp, hw, hn, Except.toOption]

/-- The log of a hold after one more entry. -/
private lemma actions_concat {log : List (String × HoldAction)} {h : String} {act : HoldAction}
    {holds : Holds} {hold : HoldState}
    (hlog : ∀ h, holdActions h log = HoldState.actions (holds.lookup h))
    (hact : HoldState.actions (some hold) = HoldState.actions (holds.lookup h) ++ [act])
    (h' : String) :
    holdActions h' (log ++ [(h, act)]) =
      HoldState.actions ((AList.insert h hold holds).lookup h') := by
  rw [holdActions_append, hlog]
  by_cases hh : h' = h
  · subst hh
    rw [AList.lookup_insert, hact]
    simp [holdActions]
  · rw [AList.lookup_insert_ne hh]
    simp [holdActions, Ne.symm hh]

private lemma holds_pos_insert {holds : Holds} {h : String} {hold : HoldState}
    (hpos : ∀ h hold, holds.lookup h = some hold → 0 < hold.amountMinor)
    (hn : 0 < hold.amountMinor) (h' : String) (hold' : HoldState)
    (hl : (AList.insert h hold holds).lookup h' = some hold') : 0 < hold'.amountMinor := by
  by_cases hh : h' = h
  · subst hh
    rw [AList.lookup_insert] at hl
    cases hl
    exact hn
  · rw [AList.lookup_insert_ne hh] at hl
    exact hpos _ _ hl

/-- One accepted event keeps the invariant. -/
lemma Replayed.step (hr : Replayed walletId events a) (h : a.apply e = .ok a') :
    Replayed walletId (events ++ [e]) a' := by
  obtain ⟨hv, happ⟩ := apply_ok h
  have hid : a'.id = walletId := happ.id_eq.trans hr.id
  have hversion : a'.version = (events ++ [e]).length := by
    rw [happ.version_eq, hv, hr.version]
    simp
  have hheld := hr.held
  have hle := hr.held_le
  cases happ with
  | created ownerId currency ht h0 =>
    -- version 0 means that nothing has been replayed yet
    have hnil : events = [] := by
      have := hr.version
      rw [h0] at this
      exact List.length_eq_zero_iff.mp (by exact_mod_cast this.symm)
    subst hnil
    have hev : holdEvent e = none := by
      simp [holdEvent, ht, WALLET_CREATED, FUNDS_HELD, HOLD_RELEASED, HOLD_CONSUMED]
    refine ⟨hid, hversion, ?_, ?_, le_refl _, by simp, fun h => ?_⟩
    · rw [journalBalance_concat, ownPostings_of_type] <;>
        simp [ht, journalBalance, WALLET_CREATED, MONEY_DEPOSITED, WITHDRAWAL_COMPLETED,
          HOLD_CONSUMED]
    · rw [holdLog_concat_none hev]
      rfl
    · rw [holdLog_concat_none hev]
      rfl
  | money postings posting n ht hp hw hn hcover =>
    have hev : holdEvent e = none := by
      rcases ht with ht | ht <;>
        simp [holdEvent, ht, MONEY_DEPOSITED, WITHDRAWAL_COMPLETED, FUNDS_HELD, HOLD_RELEASED,
          HOLD_CONSUMED]
    rw [hr.id] at hw
    have hown := ownPostings_of_read (by tauto) hp hw hn
    refine ⟨hid, hversion, ?_, ?_, hcover, hr.holds_pos, fun h => ?_⟩
    · rw [journalBalance_concat, hown, ← hr.balance]
      simp
    · rw [holdLog_concat_none hev]
      exact hheld
    · rw [holdLog_concat_none hev]
      exact hr.actions h
  | held holdId n ht hread hnone hn hav =>
    have hev : holdEvent e = some (holdId, .held n) := by
      simp [holdEvent, ht, hread, Except.toOption]
    have hunder : a.heldUnder holdId = 0 := by simp [heldUnder, hnone]
    have hnew : (a.withHold e.streamVersion holdId ⟨n, .active⟩).heldMinor = a.heldMinor + n := by
      rw [heldMinor_withHold, hunder]
      simp [HoldState.heldMinor]
    refine ⟨hid, hversion, ?_, ?_, ?_, holds_pos_insert hr.holds_pos hn, ?_⟩
    · rw [journalBalance_concat, ownPostings_of_type, ← hr.balance] <;>
        simp [ht, withHold, FUNDS_HELD, MONEY_DEPOSITED, WITHDRAWAL_COMPLETED, HOLD_CONSUMED]
    · rw [holdLog_concat_some hev, outstanding_concat_held, hnew, hheld]
    · rw [hnew]
      have : n ≤ a.balanceMinor - a.heldMinor := hav
      simp only [withHold]
      omega
    · rw [holdLog_concat_some hev]
      exact actions_concat hr.actions (by simp [hnone, HoldState.actions])
  | released holdId n ht hread hlook =>
    have hev : holdEvent e = some (holdId, .released) := by
      simp [holdEvent, ht, hread, Except.toOption, HOLD_RELEASED, FUNDS_HELD]
    have hn : 0 < n := hr.holds_pos _ _ hlook
    have hunder : a.heldUnder holdId = n := by simp [heldUnder, hlook, HoldState.heldMinor]
    have hnew : (a.withHold e.streamVersion holdId ⟨n, .released⟩).heldMinor = a.heldMinor - n := by
      rw [heldMinor_withHold, hunder]
      simp [HoldState.heldMinor]
    refine ⟨hid, hversion, ?_, ?_, ?_, holds_pos_insert hr.holds_pos hn, ?_⟩
    · rw [journalBalance_concat, ownPostings_of_type, ← hr.balance] <;>
        simp [ht, withHold, HOLD_RELEASED, MONEY_DEPOSITED, WITHDRAWAL_COMPLETED, HOLD_CONSUMED]
    · rw [holdLog_concat_some hev, outstanding_concat_close _ _ (by simp), hr.heldUnder_eq, hunder,
        hnew, hheld]
    · rw [hnew]
      simp only [withHold]
      omega
    · rw [holdLog_concat_some hev]
      exact actions_concat hr.actions (by simp [hlook, HoldState.actions])
  | consumed holdId n postings posting ht hread hlook hp hw hneg =>
    have hev : holdEvent e = some (holdId, .consumed) := by
      simp [holdEvent, ht, hread, Except.toOption, HOLD_CONSUMED, HOLD_RELEASED, FUNDS_HELD]
    have hn : 0 < n := hr.holds_pos _ _ hlook
    have hunder : a.heldUnder holdId = n := by simp [heldUnder, hlook, HoldState.heldMinor]
    have hnew : (a.withHold e.streamVersion holdId ⟨n, .consumed⟩).heldMinor = a.heldMinor - n := by
      rw [heldMinor_withHold, hunder]
      simp [HoldState.heldMinor]
    rw [hr.id] at hw
    have hown := ownPostings_of_read (by tauto) hp hw hneg
    refine ⟨hid, hversion, ?_, ?_, ?_, holds_pos_insert hr.holds_pos hn, ?_⟩
    · rw [journalBalance_concat, hown, ← hr.balance]
      simp [sub_eq_add_neg]
    · rw [holdLog_concat_some hev, outstanding_concat_close _ _ (by simp), hr.heldUnder_eq, hunder,
        ← hheld]
      exact hnew
    · change (a.withHold e.streamVersion holdId ⟨n, .consumed⟩).heldMinor ≤ a.balanceMinor - n
      omega
    · rw [holdLog_concat_some hev]
      exact actions_concat hr.actions (by simp [hlook, HoldState.actions])

/-- Every accepted history satisfies the replay invariant. -/
lemma rehydrate_replayed (h : rehydrate walletId events = .ok a) : Replayed walletId events a := by
  induction events using List.reverseRecOn generalizing a with
  | nil =>
    cases h
    exact .nil
  | append_singleton events e ih =>
    rw [rehydrate_concat] at h
    obtain ⟨b, hb, h⟩ := except_bind_ok.mp h
    exact (ih hb).step h

/-- The events of a hold state run through `FundsHeld` and one closing event. -/
lemma HoldState.actions_lifecycle (hold : Option HoldState) :
    ∃ n, ∃ closing ∈ [HoldAction.released, HoldAction.consumed],
      HoldState.actions hold <+: [.held n, closing] := by
  rcases hold with _ | ⟨n, _ | _ | _⟩
  · exact ⟨0, .released, by simp, by simp [HoldState.actions]⟩
  · exact ⟨n, .released, by simp, by simp [HoldState.actions]⟩
  · exact ⟨n, .released, by simp, by simp [HoldState.actions]⟩
  · exact ⟨n, .consumed, by simp, by simp [HoldState.actions]⟩

/-- The aggregate of every accepted history is what the history says. -/
theorem rehydrate_history (walletId : String) (events : List StoredEvent) (a : WalletAggregate)
    (h : rehydrate walletId events = .ok a) : WalletHistory walletId events a := by
  have hr := rehydrate_replayed h
  have hle := hr.held_le
  refine ⟨hr.version, heldMinor_nonneg a hr.holds_pos, hle, ?_, hr.balance, hr.held, hr.holds_pos,
    fun holdId n hmem => ?_, fun holdId => ?_⟩
  · rw [availableMinor]
    omega
  · -- a recorded amount is the amount of the hold in the aggregate
    have hact : HoldAction.held n ∈ holdActions holdId (holdLog events) :=
      List.mem_map.mpr ⟨_, List.mem_filter.mpr ⟨hmem, by simp⟩, rfl⟩
    rw [hr.actions] at hact
    rcases hl : a.holds.lookup holdId with _ | ⟨m, status⟩
    · simp [hl, HoldState.actions] at hact
    · have hm : n = m := by
        cases status <;> simpa [hl, HoldState.actions] using hact
      exact hm ▸ hr.holds_pos _ _ hl
  · rw [hr.actions]
    exact HoldState.actions_lifecycle _

/-- A wallet that receives 100, holds 40 of it and pays the held 40 out. -/
def paidHoldHistory : List StoredEvent :=
  let event (streamVersion : Int) (eventType : String) (payload : Json) : StoredEvent :=
    { eventId := toString streamVersion, streamId := "w", aggregateType := "Wallet", eventType,
      schemaVersion := 1, streamVersion, payload, metadata := .obj [], correlationId := none,
      traceId := none, createdAt := 0 }
  let postings (n : Int) : String × Json := ("postings", .arr ((movement "w" n).map Posting.toJson))
  [event 1 WALLET_CREATED (.obj [("ownerId", .str "u"), ("currency", .str "USD")]),
    event 2 MONEY_DEPOSITED (.obj [postings 100]),
    event 3 FUNDS_HELD (.obj [("holdId", .str "h"), ("amountMinor", .str "40")]),
    event 4 HOLD_CONSUMED (.obj [("holdId", .str "h"), postings (-40)])]

theorem rehydrate_history_paidHold :
    WalletHistory "w" paidHoldHistory
      { id := "w", version := 4, ownerId := some "u", currency := some "USD", balanceMinor := 60,
        holds := AList.singleton "h" ⟨40, .consumed⟩ } :=
  rehydrate_history _ _ _ (by rfl)

end Ledger

end PeerLedger
