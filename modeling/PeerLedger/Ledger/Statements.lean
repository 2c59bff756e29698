import PeerLedger.Ledger.Service

/-!
# Rules for the statements of the commands

Every statement has one rule for its run among the others: either it succeeds, with what it has read or
written, or it fails in one of the ways that the rule lists, each with what is known then.  Beside it
stands what the statement does alone.  A statement of a command fails against another command (a
version or a key is taken), or as it would fail alone on what was committed meanwhile.
-/

namespace PeerLedger

namespace Ledger

open Transactions WalletAggregate

variable {setting : Setting} {i : Nat} {p : List Write} {w w' : LedgerWorld}

/-! ### How statements fail -/

/-- The errors with which a command loses against another one. -/
def isConflict (e : LedgerError) : Bool := isExpectedStreamVersionError e || isUniqueViolation e

/-- Invalid contents are a `TypeError`. -/
lemma validateEvents_error {events : List EventData} {e : LedgerError}
    (h : validateEvents events = .error e) : ∃ message, e = .typeError message := by
  induction events with
  | nil => cases h
  | cons event events ih =>
    simp only [validateEvents] at h
    split_ifs at h
    · exact ⟨_, (Except.error.inj h).symm⟩
    · exact ⟨_, (Except.error.inj h).symm⟩
    · exact ih h

/-- An invalid request is a `TypeError`. -/
lemma validateAppendRequest_error {request : AppendToStreamRequest} {e : LedgerError}
    (h : validateAppendRequest request = .error e) : ∃ message, e = .typeError message := by
  simp only [validateAppendRequest] at h
  split_ifs at h
  · exact ⟨_, (Except.error.inj h).symm⟩
  · exact ⟨_, (Except.error.inj h).symm⟩
  · exact ⟨_, (Except.error.inj h).symm⟩
  · exact validateEvents_error h

/-- Which version an event expects has no part in its validation, except that it is not negative. -/
lemma validateAppendRequest_version {streamId aggregateType : String} {version version' : Int}
    {events : List EventData} (hv : 0 ≤ version) (hv' : 0 ≤ version') :
    validateAppendRequest ⟨streamId, aggregateType, version, events⟩ =
      validateAppendRequest ⟨streamId, aggregateType, version', events⟩ := by
  simp only [validateAppendRequest, not_lt.mpr hv, not_lt.mpr hv']

/-- The comparison with the latest event fails on the version, or, at the expected version, on the
type of the stream. -/
lemma checkLatest_error {request : AppendToStreamRequest} {latest : Option StoredEvent}
    {e : LedgerError} (h : checkLatest request latest = .error e) :
    (latest.elim 0 (·.streamVersion) ≠ request.expectedVersion ∧
      isExpectedStreamVersionError e = true) ∨
    (latest.elim 0 (·.streamVersion) = request.expectedVersion ∧
      ∃ expected actual, e = .streamAggregateType request.streamId expected actual) := by
  simp only [checkLatest] at h
  split_ifs at h with hv
  · obtain rfl := Except.error.inj h
    exact .inl ⟨hv, rfl⟩
  · refine .inr ⟨not_not.mp hv, ?_⟩
    cases latest with
    | none => cases h
    | some event =>
      dsimp only at h
      split_ifs at h
      exact ⟨_, _, (Except.error.inj h).symm⟩

/-- An event is refused for its numbers, whatever the contents, or because one of its two keys is
taken. -/
lemma insertEvent_error {event : StoredEvent} {db : Database} {e : LedgerError}
    (h : insertEvent event db = .error e) :
    ((∃ code, e = .queryFailed code) ∧ ∀ db', insertEvent event db' = .error e) ∨
    (e = .uniqueViolation EVENT_ID_CONSTRAINT ∧ ∃ row ∈ db.events, row.eventId = event.eventId) ∨
    (e = .uniqueViolation STREAM_VERSION_CONSTRAINT ∧ ∃ row ∈ db.events,
      row.streamId = event.streamId ∧ row.streamVersion = event.streamVersion) := by
  unfold insertEvent at h
  split_ifs at h with hfit hpos hid hver
  · refine .inl ⟨⟨_, (Except.error.inj h).symm⟩, fun db' => ?_⟩
    rw [insertEvent, if_neg (not_not.mpr hfit), if_pos hpos, h]
  · exact .inr (.inl ⟨(Except.error.inj h).symm, by simpa using hid⟩)
  · exact .inr (.inr ⟨(Except.error.inj h).symm, by simpa using hver⟩)
  · refine .inl ⟨⟨_, (Except.error.inj h).symm⟩, fun db' => ?_⟩
    rw [insertEvent, if_pos hfit, h]

/-- A projection is refused by a check of the database, or because no wallet has its id. -/
lemma saveProjection_error {row : WalletBalanceProjection} {db : Database} {e : LedgerError}
    (h : saveProjection row db = .error e) :
    isConflict e = false ∨
      (isExpectedStreamVersionError e = false ∧ ∀ wallet ∈ db.wallets, wallet.id ≠ row.walletId) := by
  unfold saveProjection at h
  split_ifs at h with _ _ hwallet
  · exact .inl (Except.error.inj h ▸ rfl)
  · exact .inr ⟨Except.error.inj h ▸ rfl, by simpa using hwallet⟩
  · exact .inl (Except.error.inj h ▸ rfl)
  · exact .inl (Except.error.inj h ▸ rfl)

/-- A receipt is refused by a check of the database, or because its transfer has one. -/
lemma insertSettlement_error {receipt : LedgerTransferSettlement} {db : Database} {e : LedgerError}
    (h : insertSettlement receipt db = .error e) :
    (∃ code, e = .queryFailed code) ∨
    (isUniqueViolation e = true ∧ ∃ row ∈ db.settlements, row.transferId = receipt.transferId) := by
  unfold insertSettlement at h
  split_ifs at h with hfit hpos hfree
  · exact .inl ⟨_, (Except.error.inj h).symm⟩
  · obtain rfl := Except.error.inj h
    exact .inr ⟨rfl, by simpa using hfree⟩
  · exact .inl ⟨_, (Except.error.inj h).symm⟩
  · exact .inl ⟨_, (Except.error.inj h).symm⟩

/-- What `mapError` throws was thrown. -/
lemma mapError_eq_error {ε ε' α : Type} {f : ε → ε'} {x : Except ε α} {e : ε'}
    (h : x.mapError f = .error e) : ∃ e', x = .error e' ∧ e = f e' := by
  cases x with
  | ok a => cases h
  | error e' => exact ⟨e', rfl, (Except.error.inj h).symm⟩

section Statements

variable {β : Type} {E : LedgerWorld → LedgerError → Prop}

/-! ### Reads -/

/-- `findOne` with an error when there is no row. -/
lemma wp_findOrThrow {Q : LedgerWorld → List Write → β → Prop} {e : LedgerError}
    {f : Database → Option β}
    (hE : ∀ w', Later (ledger setting) (ledgerProtocol setting) i p w w' →
      f (view w'.db p) = none → E w' e)
    (hQ : ∀ w' a, Later (ledger setting) (ledgerProtocol setting) i p w w' →
      f (view w'.db p) = some a → Q w' p a) :
    (findOrThrow e f).wp (ledger setting) (ledgerProtocol setting) i Q E w p := by
  simp only [findOrThrow, Tx.bind_eq]
  rw [Tx.wp_bind, Tx.wp_query]
  intro w' hw'
  cases hf : f (view ((ledger setting).db w') p) with
  | none => exact hE w' hw' hf
  | some a => exact hQ w' a hw' hf

/-- `findOne` alone. -/
lemma alone_findOrThrow {e : LedgerError} {f : Database → Option β} {db : Database} {a : β}
    (h : f (view db p) = some a) : (findOrThrow e f).alone db p = .ok (a, p) := by
  simp [findOrThrow, Tx.alone_bind, Except.bind, h, Tx.alone]

/-- A writing statement that succeeds. -/
lemma alone_write_ok {f : Database → Except LedgerError (List Write)} {db : Database}
    {ws : List Write} (h : f (view db p) = .ok ws) : (Tx.write f).alone db p = .ok ((), p ++ ws) := by
  rw [Tx.alone_write, h]
  rfl

/-- Replaying a stream for a wallet. -/
lemma wp_rehydrateStream {Q : LedgerWorld → List Write → WalletAggregate → Prop}
    {walletId streamId : String} (hgap : GapFree (view w.db p))
    (hE : ∀ w' message, Later (ledger setting) (ledgerProtocol setting) i p w w' →
      rehydrate walletId ((view w'.db p).stream streamId) = .error message → E w' (.error message))
    (hQ : ∀ w' a, Later (ledger setting) (ledgerProtocol setting) i p w w' →
      rehydrate walletId ((view w'.db p).stream streamId) = .ok a → Q w' p a) :
    (rehydrateStream walletId streamId).wp (ledger setting) (ledgerProtocol setting) i Q E w p := by
  simp only [rehydrateStream, Tx.bind_eq]
  rw [Tx.wp_bind, Tx.wp_query]
  intro w' hw'
  have hload : (view w'.db p).loadStream streamId = (view w'.db p).stream streamId :=
    (ledger_appends.gapFree_later hgap hw').loadStream
  rw [Tx.wp_ofExcept]
  refine ⟨fun e he => ?_, fun a ha => hQ w' a hw' ?_⟩
  · obtain ⟨message, hmessage, rfl⟩ := mapError_eq_error he
    exact hE w' message hw' (hload ▸ hmessage)
  · rw [← hload]
    exact except_mapError_ok.mp ha

/-- The streams of the committed tables can always be replayed. -/
lemma wp_rehydrateStream_ok {Q : LedgerWorld → List Write → WalletAggregate → Prop}
    {walletId : String} (hinv : (ledgerProtocol setting).inv w)
    (hQ : ∀ w' a, Later (ledger setting) (ledgerProtocol setting) i [] w w' →
      rehydrate walletId (w'.db.stream walletId) = .ok a → Q w' [] a) :
    (rehydrateStream walletId).wp (ledger setting) (ledgerProtocol setting) i Q E w [] := by
  refine wp_rehydrateStream hinv.1.gapFree (fun w' message hw' herror => ?_) hQ
  obtain ⟨a, ha⟩ := hw'.inv.1.rehydrate_ok walletId
  cases herror.symm.trans ha

/-- Replaying a stream alone. -/
lemma alone_rehydrateStream {db : Database} {walletId streamId : String} {a : WalletAggregate}
    (hgap : GapFree (view db p)) (h : rehydrate walletId ((view db p).stream streamId) = .ok a) :
    (rehydrateStream walletId streamId).alone db p = .ok (a, p) := by
  simp [rehydrateStream, Tx.alone_bind, Except.bind, hgap.loadStream, h, Except.mapError, Tx.alone]

/-! ### The append of an event -/

/-- What the append of one event has done. -/
abbrev AppendedEvent (streamId : String) (version : Int) (event : EventData) (now : Int)
    (db : Database) (p : List Write) : Prop :=
  Appended { streamId, aggregateType := "Wallet", expectedVersion := version, events := [event] }
    now db p [nextEvent streamId version event now]
    (p ++ [.insertEvent (nextEvent streamId version event now)])

/-- The request of a command that appends one event. -/
abbrev appendRequest (streamId : String) (version : Int) (event : EventData) :
    AppendToStreamRequest :=
  { streamId, aggregateType := "Wallet", expectedVersion := version, events := [event] }

/-- An append of one event that fails alone at the comparison with the latest event. -/
lemma alone_appendEvent_checkLatest {db : Database} {streamId : String} {version : Int}
    {event : EventData} {now : Int} {e : LedgerError}
    (hvalid : validateAppendRequest (appendRequest streamId version event) = .ok ())
    (hcheck : checkLatest (appendRequest streamId version event) ((view db p).latest streamId) =
      .error e) :
    (appendEvent streamId version event now).alone db p =
      .error (mapAppendErrors (appendRequest streamId version event) e) := by
  simp [appendEvent, appendWithinTransaction, Tx.alone_bind, Tx.alone_mapError, appendUsingManager,
    hvalid, hcheck, Except.bind, Except.mapError, Tx.alone]

/-- An append of one event that fails alone at the insert. -/
lemma alone_appendEvent_insertEvent {db : Database} {streamId : String} {version : Int}
    {event : EventData} {now : Int} {e : LedgerError}
    (hvalid : validateAppendRequest (appendRequest streamId version event) = .ok ())
    (hcheck : checkLatest (appendRequest streamId version event) ((view db p).latest streamId) =
      .ok ())
    (hinsert : insertEvent (nextEvent streamId version event now) (view db p) = .error e) :
    (appendEvent streamId version event now).alone db p =
      .error (mapAppendErrors (appendRequest streamId version event) e) := by
  have hrows : storedEvents (appendRequest streamId version event) now =
      [nextEvent streamId version event now] := rfl
  simp [appendEvent, appendWithinTransaction, Tx.alone_bind, Tx.alone_mapError, appendUsingManager,
    hvalid, hcheck, hrows, insertRows, Tx.alone_write, hinsert, Except.bind, Except.map,
    Except.mapError]

/-- An append of one event that is invalid fails alone. -/
lemma alone_appendEvent_invalid {db : Database} {streamId : String} {version : Int}
    {event : EventData} {now : Int} {message : String}
    (hinvalid : validateAppendRequest (appendRequest streamId version event) =
      .error (.typeError message)) :
    (appendEvent streamId version event now).alone db p = .error (.typeError message) := by
  simp [appendEvent, appendWithinTransaction, Tx.alone_bind, Tx.alone_mapError, appendUsingManager,
    hinvalid, Except.bind, Except.mapError, Tx.alone, mapAppendErrors]

/-- The ways in which the append of one event fails after its stream was replayed as `history`, each
with what it has to establish. -/
structure AppendErrors (setting : Setting) (i : Nat) (p : List Write) (w : LedgerWorld)
    (streamId : String) (version : Int) (event : EventData) (now : Int) (history : List StoredEvent)
    (E : LedgerWorld → LedgerError → Prop) : Prop where
  /-- The request is invalid. -/
  invalid : ∀ message, validateAppendRequest (appendRequest streamId version event) =
    .error (.typeError message) → E w (.typeError message)
  /-- The append fails as it would alone, while the stream is still as it was. -/
  decided : ∀ w₁ w₂ e, Later (ledger setting) (ledgerProtocol setting) i p w w₁ →
    Later (ledger setting) (ledgerProtocol setting) i p w₁ w₂ →
    (view w₁.db p).stream streamId = history → isConflict e = false →
    (appendEvent streamId version event now).alone w₁.db p = .error e → E w₂ e
  /-- The id of the event is taken. -/
  taken : ∀ w₁ id, Later (ledger setting) (ledgerProtocol setting) i p w w₁ →
    (∃ row ∈ (view w₁.db p).events, row.eventId = event.eventId) → E w₁ (.duplicateEventId id)
  /-- The stream has moved. -/
  moved : ∀ w₁ e, Later (ledger setting) (ledgerProtocol setting) i p w w₁ →
    (view w₁.db p).stream streamId ≠ history → isExpectedStreamVersionError e = true → E w₁ e

/-- Whatever the error, it is one of these. -/
lemma AppendErrors.of_any {streamId : String} {version : Int} {event : EventData} {now : Int}
    {history : List StoredEvent} (hinv : (ledgerProtocol setting).inv w)
    (h : ∀ w' e, Later (ledger setting) (ledgerProtocol setting) i p w w' → E w' e) :
    AppendErrors setting i p w streamId version event now history E where
  invalid _ _ := h w _ (.refl hinv)
  decided _ w₂ e hw₁ hw₂ _ _ _ := h w₂ e (hw₁.trans hw₂)
  taken w₁ _ hw₁ _ := h w₁ _ hw₁
  moved w₁ e hw₁ _ _ := h w₁ e hw₁

/-- The append of one event fails in one of these ways. -/
lemma wp_append_fails {streamId : String} {version : Int} {event : EventData} {now : Int}
    {history : List StoredEvent} (hgap : GapFree (view w.db p)) (hversion : version = history.length)
    (hpre : history <+: (view w.db p).stream streamId)
    (hE : AppendErrors setting i p w streamId version event now history E) :
    (appendWithinTransaction (appendRequest streamId version event) now).wp (ledger setting)
      (ledgerProtocol setting) i (fun _ _ _ => True) E w p := by
  rw [appendWithinTransaction, Tx.wp_mapError, appendUsingManager]
  simp only [Tx.bind_eq]
  rw [Tx.wp_bind, Tx.wp_ofExcept]
  refine ⟨fun e he => ?_, fun _ hvalid => ?_⟩
  · obtain ⟨message, rfl⟩ := validateAppendRequest_error he
    exact hE.invalid message he
  rw [Tx.wp_bind, Tx.wp_query]
  intro w₁ hw₁
  have hgap₁ : GapFree (view w₁.db p) := ledger_appends.gapFree_later hgap hw₁
  -- the version of the latest event is the length of the stream
  have hlatest : ((view w₁.db p).latest streamId).elim 0 (·.streamVersion) =
      (((view w₁.db p).stream streamId).length : Int) := by
    rw [hgap₁.latest]
    exact (hgap₁ streamId).getLast_version
  have hpre₁ : history <+: (view w₁.db p).stream streamId :=
    hpre.trans (hgap.view_stream_prefix (ledger_appends.gapFree _ hw₁.inv)
      (ledger_appends.grows hw₁) streamId)
  have hsame : (view w₁.db p).stream streamId = history ↔
      ((view w₁.db p).latest streamId).elim 0 (·.streamVersion) = version := by
    rw [hlatest, hversion]
    refine ⟨fun heq => by rw [heq], fun heq => (hpre₁.eq_of_length ?_).symm⟩
    exact_mod_cast heq.symm
  rw [Tx.wp_bind, Tx.wp_ofExcept]
  refine ⟨fun e he => ?_, fun _ hcheck => ?_⟩
  · rcases checkLatest_error he with ⟨hne, hconflict⟩ | ⟨heq, expected, actual, rfl⟩
    · have hmap : mapAppendErrors (appendRequest streamId version event) e = e := by
        cases e <;> first | rfl | cases hconflict
      rw [hmap]
      exact hE.moved w₁ e hw₁ (fun h => hne (hsame.mp h)) hconflict
    · exact hE.decided w₁ w₁ _ hw₁ (.refl hw₁.inv) (hsame.mpr heq) rfl
        (alone_appendEvent_checkLatest hvalid he)
  have hstream₁ : (view w₁.db p).stream streamId = history := by
    rw [hsame, hlatest]
    exact (hgap₁.checkLatest_ok.mp hcheck).1
  have hrows : storedEvents (appendRequest streamId version event) now =
      [nextEvent streamId version event now] := rfl
  rw [hrows, insertRows, insertRows]
  simp only [Tx.bind_eq]
  rw [Tx.wp_bind, Tx.wp_bind, Tx.wp_write]
  refine fun w₂ hw₂ => ⟨fun e he => ?_, fun ws _ => ?_⟩
  · rcases insertEvent_error he with ⟨⟨code, rfl⟩, hall⟩ | ⟨rfl, htakes⟩ | ⟨rfl, row, hrow, hid, hv⟩
    · exact hE.decided w₁ w₂ _ hw₁ hw₂ hstream₁ rfl
        (alone_appendEvent_insertEvent hvalid hcheck (hall (view w₁.db p)))
    · exact hE.taken w₂ (some event.eventId) (hw₁.trans hw₂) htakes
    · refine hE.moved w₂ _ (hw₁.trans hw₂) (fun hstream => ?_) rfl
      -- the replayed stream has no event of the next version
      have hmem : row ∈ (view w₂.db p).stream streamId :=
        List.mem_filter.mpr ⟨hrow, by simpa [nextEvent, storedEvent] using hid⟩
      have hgap₂ : GapFree (view w₂.db p) := ledger_appends.gapFree_later hgap₁ hw₂
      have hle := (hgap₂ streamId).version_le hmem
      rw [hstream] at hle
      have hnext : row.streamVersion = version + 1 := by simpa [nextEvent, storedEvent] using hv
      omega
  · exact fun _ _ => trivial

/-- The append of one event succeeds, or fails in one of these ways. -/
lemma wp_appendEvent {Q : LedgerWorld → List Write → StoredEvent → Prop} {streamId : String}
    {version : Int} {event : EventData} {now : Int} {history : List StoredEvent}
    (hinv : (ledgerProtocol setting).inv w) (hgap : GapFree (view w.db p))
    (hversion : version = history.length) (hpre : history <+: (view w.db p).stream streamId)
    (hE : AppendErrors setting i p w streamId version event now history E)
    (hQ : ∀ w', Later (ledger setting) (ledgerProtocol setting) i p w w' →
      AppendedEvent streamId version event now w'.db p → GapFree (view w'.db p) →
      GapFree (view w'.db (p ++ [.insertEvent (nextEvent streamId version event now)])) →
      Q w' (p ++ [.insertEvent (nextEvent streamId version event now)])
        (nextEvent streamId version event now)) :
    (appendEvent streamId version event now).wp (ledger setting) (ledgerProtocol setting) i Q E w
      p := by
  simp only [appendEvent, Tx.bind_eq]
  rw [Tx.wp_bind]
  have hsuccess := ledger_appends.wp_append (Q := fun w' q stored =>
      Later (ledger setting) (ledgerProtocol setting) i p w w' ∧
      Appended (appendRequest streamId version event) now w'.db p stored q ∧
      GapFree (view w'.db p) ∧ GapFree (view w'.db q))
    (E := fun _ _ => True) hinv hgap (fun _ _ _ => trivial)
    fun w' stored q hw' happ hgap' hgap'' => ⟨hw', happ, hgap', hgap''⟩
  refine Tx.wp_mono (fun w' q stored hq => ?_) (fun w' e he => he.2)
    (Tx.wp_and hsuccess (wp_append_fails hgap hversion hpre hE))
  obtain ⟨⟨hw', happ, hgap', hgap''⟩, -⟩ := hq
  have hstored : stored = [nextEvent streamId version event now] := happ.stored_eq
  have hq : q = p ++ [.insertEvent (nextEvent streamId version event now)] := happ.pending_eq
  subst hstored hq
  exact hQ w' hw' happ hgap' hgap''

/-- The append of one event alone. -/
lemma alone_appendEvent {db : Database} {streamId : String} {version : Int}
    {event : EventData} {now : Int} (hgap : GapFree (view db p))
    (h : AppendedEvent streamId version event now db p) :
    (appendEvent streamId version event now).alone db p =
      .ok (nextEvent streamId version event now,
        p ++ [.insertEvent (nextEvent streamId version event now)]) := by
  simp [appendEvent, Tx.alone_bind, h.alone hgap, Except.bind, Tx.alone]

/-- The id of an event that was appended was free. -/
lemma AppendedEvent.id_free {streamId : String} {version : Int} {event : EventData} {now : Int}
    {db : Database} (h : AppendedEvent streamId version event now db p) :
    ∀ row ∈ (view db p).events, row.eventId ≠ event.eventId := by
  have hinserted := h.inserted
  have hrows : storedEvents (appendRequest streamId version event) now =
      [nextEvent streamId version event now] := rfl
  rw [hrows, insertRows, Tx.bind_eq, Tx.alone_bind, Tx.alone_write] at hinserted
  cases hrow : insertEvent (nextEvent streamId version event now) (view db p) with
  | error e =>
    rw [hrow] at hinserted
    cases hinserted
  | ok ws => exact (insertEvent_ok.mp hrow).2.2.2.1

/-- An id that no event has is free in the outbox. -/
lemma Consistent.outbox_free {db : Database} (h : Consistent db) {eventId : String}
    (hfree : ∀ row ∈ db.events, row.eventId ≠ eventId) :
    ∀ row ∈ db.outbox, row.eventId ≠ eventId := by
  intro row hrow
  have hmem := h.outbox ▸ List.mem_map_of_mem (f := OutboxMessage.eventId) hrow
  obtain ⟨e, he, hid⟩ := List.mem_map.mp hmem
  exact hid ▸ hfree e he

/-! ### The outbox and the projection -/

/-- The outbox message of an event, unless its id is taken. -/
lemma wp_enqueueWalletEvents {Q : LedgerWorld → List Write → Unit → Prop} {wallet : Wallet}
    {carrier : TraceCarrier} {e : StoredEvent}
    (hE : ∀ w' e', Later (ledger setting) (ledgerProtocol setting) i p w w' →
      (∃ row ∈ (view w'.db p).outbox, row.eventId = e.eventId) → E w' e')
    (hQ : ∀ w', Later (ledger setting) (ledgerProtocol setting) i p w w' →
      insertOutbox (outboxMessage e wallet carrier) (view w'.db p) =
        .ok [.insertOutbox (outboxMessage e wallet carrier)] →
      Q w' (p ++ [.insertOutbox (outboxMessage e wallet carrier)]) ()) :
    (enqueueWalletEvents wallet carrier [e]).wp (ledger setting) (ledgerProtocol setting) i Q E w
      p := by
  simp only [enqueueWalletEvents, Tx.bind_eq]
  rw [Tx.wp_bind, Tx.wp_write]
  refine fun w' hw' => ⟨fun e' he' => hE w' e' hw' ?_, fun ws hws => ?_⟩
  · by_contra hfree
    have hok : insertOutbox (outboxMessage e wallet carrier) (view w'.db p) =
        .ok [.insertOutbox (outboxMessage e wallet carrier)] :=
      insertOutbox_ok.mpr ⟨rfl, fun row hrow hid => hfree ⟨row, hrow, hid⟩⟩
    cases he'.symm.trans hok
  · obtain ⟨rfl, -⟩ := insertOutbox_ok.mp hws
    exact hQ w' hw' hws

/-- The outbox message of an event alone. -/
lemma alone_enqueueWalletEvents {db : Database} {wallet : Wallet} {carrier : TraceCarrier}
    {e : StoredEvent} (h : insertOutbox (outboxMessage e wallet carrier) (view db p) =
      .ok [.insertOutbox (outboxMessage e wallet carrier)]) :
    (enqueueWalletEvents wallet carrier [e]).alone db p =
      .ok ((), p ++ [.insertOutbox (outboxMessage e wallet carrier)]) := by
  simp [enqueueWalletEvents, Tx.alone_bind, Tx.alone_write, h, Except.bind, Except.map, Tx.alone]

/-- The projection after an event is saved, or fails as it would alone. -/
lemma wp_projectApplied {Q : LedgerWorld → List Write → WalletBalanceProjection → Prop}
    {a : WalletAggregate} {e : StoredEvent} (hinv : (ledgerProtocol setting).inv w)
    (hE : ∀ w' e', Later (ledger setting) (ledgerProtocol setting) i p w w' →
      (isConflict e' = false ∨ (isExpectedStreamVersionError e' = false ∧
        ∀ wallet ∈ w'.db.wallets, wallet.id ≠ a.id)) →
      (projectApplied a e).alone w'.db p = .error e' → E w' e')
    (hQ : ∀ w' a', Later (ledger setting) (ledgerProtocol setting) i p w w' → a.apply e = .ok a' →
      saveProjection (projectionFromAggregate a') (view w'.db p) =
        .ok [.saveProjection (projectionFromAggregate a')] →
      Q w' (p ++ [.saveProjection (projectionFromAggregate a')]) (projectionFromAggregate a')) :
    (projectApplied a e).wp (ledger setting) (ledgerProtocol setting) i Q E w p := by
  simp only [projectApplied, Tx.bind_eq]
  rw [Tx.wp_bind, Tx.wp_ofExcept]
  refine ⟨fun e' he' => ?_, fun a' ha' => ?_⟩
  · obtain ⟨message, -, rfl⟩ := mapError_eq_error he'
    refine hE w _ (.refl hinv) (.inl rfl) ?_
    simp [projectApplied, he', Tx.alone]
  have happ : a.apply e = .ok a' := except_mapError_ok.mp ha'
  simp only [project, Tx.bind_eq]
  rw [Tx.wp_bind, Tx.wp_write]
  refine fun w' hw' => ⟨fun e' he' => ?_, fun ws hws => ?_⟩
  · have hsame : a'.id = a.id := (apply_ok happ).2.id_eq
    refine hE w' e' hw' ((saveProjection_error he').imp_right fun h => ⟨h.1, fun row hrow => ?_⟩) ?_
    · rw [← hsame]
      refine h.2 row ?_
      rw [wallets_view]
      exact List.mem_append_left _ hrow
    have hrow : saveProjection (projectionFromAggregate a') (view w'.db p) = .error e' := he'
    simp [projectApplied, project, Tx.alone_bind, Tx.alone_write, happ, hrow, Except.bind, Except.map,
      Except.mapError]
  · obtain ⟨rfl, -⟩ := saveProjection_ok.mp hws
    exact hQ w' a' hw' happ hws

/-- The projection after an event alone. -/
lemma alone_projectApplied {db : Database} {a a' : WalletAggregate} {e : StoredEvent}
    (happ : a.apply e = .ok a')
    (h : saveProjection (projectionFromAggregate a') (view db p) =
      .ok [.saveProjection (projectionFromAggregate a')]) :
    (projectApplied a e).alone db p =
      .ok (projectionFromAggregate a', p ++ [.saveProjection (projectionFromAggregate a')]) := by
  simp [projectApplied, project, Tx.alone_bind, Tx.alone_write, happ, h, Except.bind, Except.map,
    Except.mapError, Tx.alone]

/-- The projection of a wallet that is there is in no conflict. -/
lemma not_isConflict_of_wallet {wallet : Wallet} {walletId : String} {e : LedgerError}
    (hw : Later (ledger setting) (ledgerProtocol setting) i p w w') (hmem : wallet ∈ w.db.wallets)
    (hid : wallet.id = walletId)
    (h : isConflict e = false ∨ (isExpectedStreamVersionError e = false ∧
      ∀ row ∈ w'.db.wallets, row.id ≠ walletId)) : isConflict e = false := by
  exact h.resolve_right fun hnone =>
    hnone.2 wallet ((ledger_appends.grows hw).mem_wallets hmem) hid

end Statements

end Ledger

end PeerLedger
