import PeerLedger.Transactions.RelyGuarantee
import PeerLedger.Ledger.Database

/-!
# The event store

`append` and `appendWithinTransaction` of `event-store.service.ts`: read the latest version of the
stream, compare it with the expected one, insert the batch row by row, and read it back.  The three
are separate statements, so that another transaction may commit in between.

A stream is `Contiguous` when its versions are `1..n` in order and it has one aggregate type.
`Appends` collects what a service must promise so that the rules of this file apply to its
transactions; `Appends.wp_append` is the specification of an append under interference.
-/

namespace PeerLedger

namespace Ledger

open Transactions

/-! ### The code -/

/-- A request to append a batch of events to a stream. -/
structure AppendToStreamRequest where
  streamId : String
  aggregateType : String
  expectedVersion : Int
  events : List EventData

/-- The white space that `String.prototype.trim` removes. -/
def isWhiteSpace (c : Char) : Bool :=
  c.toNat ∈ [9, 10, 11, 12, 13, 32, 160, 5760, 8232, 8233, 8239, 8287, 12288, 65279] ∨
    (8192 ≤ c.toNat ∧ c.toNat ≤ 8202)

/-- A string that `trim` makes empty. -/
def isBlank (s : String) : Bool := s.toList.all isWhiteSpace

/-- The checks of the events of a request. -/
def validateEvents : List EventData → Except LedgerError Unit
  | [] => .ok ()
  | event :: events =>
    if event.eventId = "" ∨ isBlank event.eventType then
      .error (.typeError "eventId and eventType are required")
    else if event.schemaVersion < 1 then
      .error (.typeError "schemaVersion must be a positive integer")
    else validateEvents events

def validateAppendRequest (request : AppendToStreamRequest) : Except LedgerError Unit :=
  if request.streamId = "" ∨ isBlank request.aggregateType then
    .error (.typeError "streamId and aggregateType are required")
  else if request.expectedVersion < 0 then
    .error (.typeError "expectedVersion must be a non-negative integer")
  else if request.events = [] then .error (.typeError "At least one event is required")
  else validateEvents request.events

/-- The comparison of the request with the latest event of its stream. -/
def checkLatest (request : AppendToStreamRequest) (latest : Option StoredEvent) :
    Except LedgerError Unit :=
  let actualVersion := latest.elim 0 (·.streamVersion)
  if actualVersion ≠ request.expectedVersion then
    .error (.expectedStreamVersion request.streamId request.expectedVersion (some actualVersion))
  else
    match latest with
    | none => .ok ()
    | some event =>
      if event.aggregateType ≠ request.aggregateType then
        .error (.streamAggregateType request.streamId request.aggregateType event.aggregateType)
      else .ok ()

/-- The row of an event of the request; `now` is the start of the transaction. -/
def storedEvent (request : AppendToStreamRequest) (now : Int) (index : Nat) (event : EventData) :
    StoredEvent :=
  { eventId := event.eventId, streamId := request.streamId, aggregateType := request.aggregateType,
    eventType := event.eventType, schemaVersion := event.schemaVersion,
    streamVersion := request.expectedVersion + index + 1, payload := event.payload,
    metadata := event.metadata.getD (.obj []), correlationId := event.correlationId,
    traceId := event.traceId, createdAt := now }

/-- The rows of the request. -/
def storedEvents (request : AppendToStreamRequest) (now : Int) : List StoredEvent :=
  request.events.mapIdx (storedEvent request now)

/-- The insert of a batch: each row may have to wait for another transaction. -/
def insertRows : List StoredEvent → Tx Database Write LedgerError Unit
  | [] => .ret ()
  | row :: rows => do
    Tx.write (insertEvent row)
    insertRows rows

def appendUsingManager (request : AppendToStreamRequest) (now : Int) :
    Tx Database Write LedgerError (List StoredEvent) := do
  Tx.ofExcept (validateAppendRequest request)
  let latest ← Tx.query fun db => db.latest request.streamId
  Tx.ofExcept (checkLatest request latest)
  insertRows (storedEvents request now)
  Tx.query fun db => db.between request.streamId (request.expectedVersion + 1)
    (request.expectedVersion + request.events.length)

/-- Violated constraints as errors of the event store. -/
def mapAppendErrors (request : AppendToStreamRequest) : LedgerError → LedgerError
  | .uniqueViolation constraint =>
    if constraint = EVENT_ID_CONSTRAINT then
      .duplicateEventId <|
        match request.events with
        | [event] => some event.eventId
        | _ => none
    else if constraint = STREAM_VERSION_CONSTRAINT then
      .expectedStreamVersion request.streamId request.expectedVersion none
    else .uniqueViolation constraint
  | error => error

def appendWithinTransaction (request : AppendToStreamRequest) (now : Int) :
    Tx Database Write LedgerError (List StoredEvent) :=
  (appendUsingManager request now).mapError (mapAppendErrors request)

/-! ### Contiguous streams -/

/-- A stream with versions `1..n`, in order, and one aggregate type. -/
structure Contiguous (events : List StoredEvent) : Prop where
  versions : events.map (·.streamVersion) =
    (List.range events.length).map fun k : Nat => (k : Int) + 1
  aggregateType : ∀ e ∈ events, ∀ e' ∈ events, e.aggregateType = e'.aggregateType

/-- Every stream is contiguous. -/
def GapFree (db : Database) : Prop := ∀ streamId, Contiguous (db.stream streamId)

namespace Contiguous

variable {events more : List StoredEvent} {e : StoredEvent}

lemma nil : Contiguous [] := ⟨rfl, by simp⟩

/-- A prefix of a contiguous stream is contiguous. -/
lemma left (h : Contiguous (events ++ more)) : Contiguous events := by
  refine ⟨?_, fun e he e' he' => h.2 e (by simp [he]) e' (by simp [he'])⟩
  have hv := congrArg (List.take events.length) h.1
  simpa [List.map_append, List.take_append, ← List.map_take, List.take_range] using hv

/-- The version of an event is its position. -/
lemma version_append (h : Contiguous (events ++ e :: more)) :
    e.streamVersion = events.length + 1 := by
  have hv := congrArg (fun l => l[events.length]?) h.1
  simpa using hv

/-- The event after a contiguous stream. -/
lemma concat (h : Contiguous events) (hv : e.streamVersion = events.length + 1)
    (ht : ∀ e' ∈ events, e'.aggregateType = e.aggregateType) : Contiguous (events ++ [e]) := by
  refine ⟨by simp [h.1, hv, List.range_succ], ?_⟩
  intro a ha b hb
  simp only [List.mem_append, List.mem_singleton] at ha hb
  rcases ha with ha | rfl <;> rcases hb with hb | rfl
  · exact h.2 a ha b hb
  · exact ht a ha
  · exact (ht b hb).symm
  · rfl

/-- The versions of a contiguous stream increase. -/
lemma pairwise_lt (h : Contiguous events) :
    events.Pairwise fun e e' => e.streamVersion < e'.streamVersion := by
  rw [← List.pairwise_map (R := (· < ·)), h.1, List.pairwise_map]
  exact List.pairwise_lt_range.imp fun hab => by omega

lemma pairwise (h : Contiguous events) :
    events.Pairwise fun e e' => e.streamVersion ≤ e'.streamVersion :=
  h.pairwise_lt.imp le_of_lt

/-- The last event of a contiguous stream has the version of its length. -/
lemma getLast_version (h : Contiguous events) :
    events.getLast?.elim (0 : Int) (·.streamVersion) = events.length := by
  rcases List.eq_nil_or_concat' events with rfl | ⟨init, last, rfl⟩
  · rfl
  · simp [h.version_append]

/-- The versions of an event of a contiguous stream are at most its length. -/
lemma version_le (h : Contiguous events) (he : e ∈ events) :
    1 ≤ e.streamVersion ∧ e.streamVersion ≤ events.length := by
  obtain ⟨l, r, rfl⟩ := List.append_of_mem he
  have := h.version_append
  simp only [List.length_append, List.length_cons]
  omega

/-- The events after a contiguous prefix are those with the versions after its length. -/
lemma between (h : Contiguous (events ++ more)) :
    Database.orderByVersion ((events ++ more).filter fun event =>
      (events.length : Int) + 1 ≤ event.streamVersion ∧
        event.streamVersion ≤ events.length + more.length) = more := by
  have hold : ∀ e ∈ events, ¬ ((events.length : Int) + 1 ≤ e.streamVersion ∧
      e.streamVersion ≤ events.length + more.length) := fun e he => by
    have := h.left.version_le he
    omega
  have hnew : ∀ e ∈ more, (events.length : Int) + 1 ≤ e.streamVersion ∧
      e.streamVersion ≤ events.length + more.length := fun e he => by
    obtain ⟨l, r, rfl⟩ := List.append_of_mem he
    rw [← List.append_assoc] at h
    have := h.version_append
    simp only [List.length_append, List.length_cons] at this ⊢
    omega
  rw [List.filter_append, List.filter_eq_nil_iff.mpr (by simpa using hold),
    List.filter_eq_self.mpr (by simpa using hnew), List.nil_append]
  exact List.Pairwise.insertionSort_eq (List.pairwise_append.mp h.pairwise).2.1

end Contiguous

namespace GapFree

variable {db db' : Database} {p : List Write} {streamId : String}

/-- The whole stream is loaded in its own order. -/
lemma loadStream (h : GapFree db) : db.loadStream streamId = db.stream streamId := by
  have hall : (db.stream streamId).filter (fun event => (1 : Int) ≤ event.streamVersion) =
      db.stream streamId :=
    List.filter_eq_self.mpr fun e he => by simpa using ((h streamId).version_le he).1
  rw [Database.loadStream, hall]
  exact List.Pairwise.insertionSort_eq (h streamId).pairwise

/-- The latest event is the last of the stream. -/
lemma latest (h : GapFree db) : db.latest streamId = (db.stream streamId).getLast? := by
  rw [Database.latest, Database.orderByVersion, List.Pairwise.insertionSort_eq (h streamId).pairwise]

/-- Of a stream to which a transaction has appended, nobody else can write the next version: either
the transaction has not appended to it, or the others have left it alone. -/
lemma stream_locked (h : GapFree (view db p)) (h' : GapFree db')
    (hg : db.Grows (locksOf (σ := Database) p) db') (streamId : String) :
    (insertedEvents p).filter (fun event => event.streamId = streamId) = [] ∨
      db'.stream streamId = db.stream streamId := by
  obtain ⟨more, hmore, hdisj⟩ := hg.events
  have hstream : db'.stream streamId =
      db.stream streamId ++ more.filter fun event => event.streamId = streamId := by
    simp [Database.stream, hmore]
  rcases hmine : (insertedEvents p).filter (fun event => event.streamId = streamId) with _ | ⟨m, ms⟩
  · exact .inl (by simpa using hmine)
  refine .inr ?_
  rcases hothers : more.filter (fun event => event.streamId = streamId) with _ | ⟨e, es⟩
  · rw [hstream, hothers, List.append_nil]
  exfalso
  -- both would be the next event of the stream
  have hm : m.streamVersion = (db.stream streamId).length + 1 := by
    have hc := h streamId
    rw [stream_view, hmine] at hc
    exact hc.version_append
  have he : e.streamVersion = (db.stream streamId).length + 1 := by
    have hc := h' streamId
    rw [hstream, hothers] at hc
    exact hc.version_append
  have hmem : m ∈ insertedEvents p ∧ m.streamId = streamId := by
    have : m ∈ (insertedEvents p).filter (fun event => event.streamId = streamId) := by simp [hmine]
    simpa using this
  have heem : e ∈ more ∧ e.streamId = streamId := by
    have : e ∈ more.filter (fun event => event.streamId = streamId) := by simp [hothers]
    simpa using this
  refine hdisj e heem.1 (a := .streamVersion streamId m.streamVersion) ?_ ?_
  · exact locks_subset_locksOf (mem_insertedEvents.mp hmem.1) (by simp [Write.locks, hmem.2])
  · simp [Write.locks, heem.2, hm, he]

/-- What a transaction sees stays gap-free while others commit. -/
lemma view_grows (h : GapFree (view db p)) (h' : GapFree db')
    (hg : db.Grows (locksOf (σ := Database) p) db') : GapFree (view db' p) := by
  intro streamId
  rw [stream_view]
  rcases h.stream_locked h' hg streamId with hnil | heq
  · rw [hnil, List.append_nil]
    exact h' streamId
  · rw [heq, ← stream_view]
    exact h streamId

/-- A stream that a transaction sees only grows while others commit. -/
lemma view_stream_prefix (h : GapFree (view db p)) (h' : GapFree db')
    (hg : db.Grows (locksOf (σ := Database) p) db') (streamId : String) :
    (view db p).stream streamId <+: (view db' p).stream streamId := by
  rw [stream_view, stream_view]
  rcases h.stream_locked h' hg streamId with hnil | heq
  · rw [hnil, List.append_nil, List.append_nil]
    exact hg.stream streamId
  · exact heq ▸ List.prefix_rfl

/-- A row with the next version of a stream can be inserted only while the stream has not grown. -/
lemma stream_of_insertEvent {row : StoredEvent} {ws : List Write} (h : GapFree (view db p))
    (h' : GapFree db') (hg : db.Grows (locksOf (σ := Database) p) db')
    (hv : row.streamVersion = ((view db p).stream row.streamId).length + 1)
    (hok : insertEvent row (view db' p) = .ok ws) :
    (view db' p).stream row.streamId = (view db p).stream row.streamId := by
  obtain ⟨more, hmore⟩ := h.view_stream_prefix h' hg row.streamId
  rcases more with _ | ⟨e, es⟩
  · rw [← hmore, List.append_nil]
  obtain ⟨-, -, -, -, hfree⟩ := insertEvent_ok.mp hok
  have hc := h.view_grows h' hg row.streamId
  rw [← hmore] at hc
  have hmem : e ∈ (view db' p).stream row.streamId := by simp [← hmore]
  have hmem' := List.mem_filter.mp hmem
  exact absurd (hc.version_append.trans hv.symm) (hfree e hmem'.1 (by simpa using hmem'.2))

end GapFree

/-! ### An append that succeeds -/

@[simp]
lemma length_storedEvents (request : AppendToStreamRequest) (now : Int) :
    (storedEvents request now).length = request.events.length := by
  simp [storedEvents]

lemma streamId_of_mem_storedEvents {request : AppendToStreamRequest} {now : Int}
    {row : StoredEvent} (h : row ∈ storedEvents request now) :
    row.streamId = request.streamId ∧ row.aggregateType = request.aggregateType := by
  obtain ⟨k, hk, rfl⟩ := List.mem_mapIdx.mp h
  exact ⟨rfl, rfl⟩

lemma versions_storedEvents (request : AppendToStreamRequest) (now : Int) :
    (storedEvents request now).map (·.streamVersion) =
      (List.range request.events.length).map fun k : Nat => request.expectedVersion + k + 1 := by
  refine List.ext_getElem (by simp) fun k hk hk' => ?_
  simp [storedEvents, storedEvent]

/-- The version check passes exactly when the stream has the expected length and type. -/
lemma GapFree.checkLatest_ok {db : Database} (h : GapFree db) {request : AppendToStreamRequest} :
    checkLatest request (db.latest request.streamId) = .ok () ↔
      ((db.stream request.streamId).length : Int) = request.expectedVersion ∧
        ∀ e ∈ db.stream request.streamId, e.aggregateType = request.aggregateType := by
  have hc := h request.streamId
  have hv := hc.getLast_version
  rw [h.latest]
  generalize db.stream request.streamId = events at hc hv
  simp only [checkLatest, hv, ite_error_eq_ok, not_not, ne_eq]
  refine and_congr_right fun _ => ?_
  rcases List.eq_nil_or_concat' events with rfl | ⟨init, last, rfl⟩
  · simp
  · simp only [List.getLast?_append, List.getLast?_singleton, Option.some_or, ite_error_eq_ok,
      not_not, and_true]
    refine ⟨fun hl e he => ?_, fun hall => hall last (by simp)⟩
    exact (hc.aggregateType e he last (by simp)).trans hl

/-- A batch that was inserted could still be inserted after the others have committed. -/
lemma insertRows_stable {db db' : Database} {rows : List StoredEvent} {p q : List Write}
    (h : (insertRows rows).alone db p = .ok ((), q))
    (hg : db.Grows (locksOf (σ := Database) q) db') :
    (insertRows rows).alone db' p = .ok ((), q) ∧ p ++ rows.map .insertEvent = q := by
  induction rows generalizing p with
  | nil => 
    cases h
    exact ⟨rfl, by simp⟩
  | cons row rows ih =>
    simp only [insertRows, Tx.bind_eq, Tx.alone_bind, Tx.alone_write] at h ⊢
    cases hrow : insertEvent row (view db p) with
    | error e => simp [hrow, Except.map, Except.bind] at h
    | ok ws =>
      obtain ⟨rfl, -⟩ := insertEvent_ok.mp hrow
      simp only [hrow, Except.map, Except.bind] at h
      obtain ⟨hrest, hq⟩ := ih h
      have hsub : locksOf (σ := Database) (p ++ [Write.insertEvent row]) ⊆
          locksOf (σ := Database) q := by
        rw [← hq]
        simp [locksOf]
      rw [insertEvent_stable hrow (hg.mono hsub)]
      exact ⟨hrest, by simpa using hq⟩

/-- What an append has done when it succeeds on the contents `db` with pending writes `p`. -/
structure Appended (request : AppendToStreamRequest) (now : Int) (db : Database) (p : List Write)
    (stored : List StoredEvent) (q : List Write) : Prop where
  validated : validateAppendRequest request = .ok ()
  expectedVersion : (((view db p).stream request.streamId).length : Int) = request.expectedVersion
  aggregateType : ∀ e ∈ (view db p).stream request.streamId,
    e.aggregateType = request.aggregateType
  stored_eq : stored = storedEvents request now
  pending_eq : q = p ++ (storedEvents request now).map .insertEvent
  inserted : (insertRows (storedEvents request now)).alone db p = .ok ((), q)

namespace Appended

variable {request : AppendToStreamRequest} {now : Int} {db db' : Database} {p q : List Write}
variable {stored : List StoredEvent}

lemma events_ne_nil (h : validateAppendRequest request = .ok ()) : request.events ≠ [] := by
  simp only [validateAppendRequest, ite_error_eq_ok] at h
  exact h.2.2.1

/-- The stream with the batch at its end. -/
lemma contiguous_append (now : Int) (hgap : GapFree (view db p))
    (hv : (((view db p).stream request.streamId).length : Int) = request.expectedVersion)
    (ht : ∀ e ∈ (view db p).stream request.streamId, e.aggregateType = request.aggregateType) :
    Contiguous ((view db p).stream request.streamId ++ storedEvents request now) := by
  have hc := hgap request.streamId
  generalize (view db p).stream request.streamId = events at hc hv ht
  refine ⟨?_, fun e he e' he' => ?_⟩
  · rw [List.map_append, hc.versions, versions_storedEvents, List.length_append,
      length_storedEvents, List.range_add, List.map_append, List.map_map]
    congr 1
    refine List.map_congr_left fun k _ => ?_
    simp only [Function.comp, Nat.cast_add, ← hv]
  · have htype : ∀ e ∈ events ++ storedEvents request now,
        e.aggregateType = request.aggregateType := fun e he =>
      (List.mem_append.mp he).elim (ht e) fun h => (streamId_of_mem_storedEvents h).2
    rw [htype e he, htype e' he']

/-- The stream that the transaction sees after the append. -/
lemma stream_eq (h : Appended request now db p stored q) :
    (view db q).stream request.streamId = (view db p).stream request.streamId ++ stored := by
  have hins : ∀ rows : List StoredEvent, insertedEvents (rows.map .insertEvent) = rows := fun rows => by
    simp [insertedEvents, List.filterMap_map]
  rw [h.pending_eq, view_append, stream_view, hins, h.stored_eq, List.filter_eq_self.mpr]
  exact fun row hrow => by simpa using (streamId_of_mem_storedEvents hrow).1

/-- The append alone on `db`. -/
lemma alone (h : Appended request now db p stored q) (hgap : GapFree (view db p)) :
    (appendWithinTransaction request now).alone db p = .ok (stored, q) := by
  have hbetween : (view db q).between request.streamId (request.expectedVersion + 1)
      (request.expectedVersion + request.events.length) = stored := by
    have hb := (contiguous_append now hgap h.expectedVersion h.aggregateType).between
    rw [Database.between, h.stream_eq, h.stored_eq]
    simpa [h.expectedVersion] using hb
  have hcheck := hgap.checkLatest_ok.mpr ⟨h.expectedVersion, h.aggregateType⟩
  simp [appendWithinTransaction, Tx.alone_mapError, appendUsingManager, Tx.alone_bind, h.validated,
    hcheck, h.inserted, hbetween, Except.bind, Except.mapError]

/-- An append that succeeded would still succeed after the others have committed. -/
lemma stable (h : Appended request now db p stored q) (hgap : GapFree (view db q))
    (hgap' : GapFree db') (hg : db.Grows (locksOf (σ := Database) q) db') :
    Appended request now db' p stored q ∧
      (view db' p).stream request.streamId = (view db p).stream request.streamId := by
  have hstream : (view db' p).stream request.streamId = (view db p).stream request.streamId := by
    have hne : (insertedEvents q).filter (fun event => event.streamId = request.streamId) ≠ [] := by
      intro hnil
      obtain ⟨event, hevent⟩ := List.exists_mem_of_ne_nil _ (events_ne_nil h.validated)
      obtain ⟨k, hk, hkev⟩ := List.getElem_of_mem hevent
      have hmem : storedEvent request now k event ∈ storedEvents request now := by
        exact List.mem_mapIdx.mpr ⟨k, hk, by rw [hkev]⟩
      have : storedEvent request now k event ∈ insertedEvents q := by
        rw [mem_insertedEvents, h.pending_eq]
        exact List.mem_append.mpr (.inr (List.mem_map_of_mem hmem))
      simpa [storedEvent] using List.filter_eq_nil_iff.mp hnil _ this
    rw [stream_view, stream_view, (hgap.stream_locked hgap' hg request.streamId).resolve_left hne]
  refine ⟨⟨h.validated, ?_, ?_, h.stored_eq, h.pending_eq, (insertRows_stable h.inserted hg).1⟩,
    hstream⟩
  · rw [hstream]
    exact h.expectedVersion
  · rw [hstream]
    exact h.aggregateType

end Appended

/-! ### Appends under interference -/

section Appends

variable {ι W ρ χ υ τ α : Type}

/-- What a service must promise so that appends are safe in its transactions: only commits change
the database, by their writes, and the invariant keeps the streams contiguous. -/
structure Appends (sv : Service ι W Database Write LedgerError ρ χ υ τ α)
    (pr : Protocol ι W Database Write LedgerError ρ χ α) : Prop where
  db_commit : ∀ w c, sv.db (sv.commit w c) = view (sv.db w) c.writes
  db_env : ∀ w w', sv.env w w' → sv.db w' = sv.db w
  db_issue : ∀ w i q t w', sv.issue w i q t w' → sv.db w' = sv.db w
  db_start : ∀ w i p w', sv.starts w i p w' → sv.db w' = sv.db w
  gapFree : ∀ w, pr.inv w → GapFree (sv.db w)

variable {sv : Service ι W Database Write LedgerError ρ χ υ τ α}
variable {pr : Protocol ι W Database Write LedgerError ρ χ α}
variable {i : ι} {p : List Write} {w w' : W}

/-- Interference adds rows that do not touch what the transaction occupies. -/
lemma Appends.grows (ha : Appends sv pr) (h : Later sv pr i p w w') :
    (sv.db w).Grows (locksOf (σ := Database) p) (sv.db w') := by
  refine Later.rel (R := fun w w' => (sv.db w).Grows (locksOf (σ := Database) p) (sv.db w'))
    (fun w => .refl _ _) (fun _ _ _ => .trans) (fun a b hab => ?_) h
  cases hab with
  | env _ he => rw [ha.db_env _ _ he]; exact .refl _ _
  | commit _ _ hd _ _ => rw [ha.db_commit]; exact .of_view _ hd
  | issue _ _ _ hq => rw [ha.db_issue _ _ _ _ _ hq]; exact .refl _ _
  | start _ _ hs => rw [ha.db_start _ _ _ _ hs]; exact .refl _ _

/-- What a transaction sees stays gap-free. -/
lemma Appends.gapFree_later (ha : Appends sv pr) (hgap : GapFree (view (sv.db w) p))
    (h : Later sv pr i p w w') : GapFree (view (sv.db w') p) :=
  hgap.view_grows (ha.gapFree _ h.inv) (ha.grows h)

/-- The view after a row with the next version of its stream. -/
lemma GapFree.view_insertEvent {db : Database} (hgap : GapFree (view db p)) {row : StoredEvent}
    (hc : Contiguous ((view db p).stream row.streamId ++ [row])) :
    GapFree (view db (p ++ [.insertEvent row])) := by
  intro streamId
  have hnew : insertedEvents [Write.insertEvent row] = [row] := rfl
  rw [view_append, stream_view, hnew]
  by_cases hs : row.streamId = streamId
  · subst hs
    simpa using hc
  · simpa [hs] using hgap streamId

/-- The batch insert: if it succeeds, the stream did not move between the version check and the
insert, and the transaction sees a contiguous stream that ends in the batch. -/
lemma Appends.wp_insertRows (ha : Appends sv pr) {Q : W → List Write → Unit → Prop}
    {E : W → LedgerError → Prop} {streamId : String} (rows : List StoredEvent)
    (hrows : ∀ row ∈ rows, row.streamId = streamId) (w : W) (p : List Write) (hinv : pr.inv w)
    (hgap : GapFree (view (sv.db w) p))
    (hc : Contiguous ((view (sv.db w) p).stream streamId ++ rows))
    (hE : ∀ w' e, Later sv pr i p w w' → E w' e)
    (hQ : ∀ w', Later sv pr i p w w' → (rows ≠ [] →
        (view (sv.db w') p).stream streamId = (view (sv.db w) p).stream streamId) →
      (insertRows rows).alone (sv.db w') p = .ok ((), p ++ rows.map .insertEvent) →
      GapFree (view (sv.db w') (p ++ rows.map .insertEvent)) →
      Q w' (p ++ rows.map .insertEvent) ()) :
    (insertRows rows).wp sv pr i Q E w p := by
  induction rows generalizing w p with
  | nil =>
    have := hQ w (.refl hinv) (by simp) (by simp [insertRows, Tx.alone]) (by simpa using hgap)
    simpa [insertRows, Tx.wp] using this
  | cons row rows ih =>
    obtain rfl := hrows row (by simp)
    simp only [insertRows, Tx.bind_eq]
    rw [Tx.wp_bind, Tx.wp_write]
    refine fun w' hw' => ⟨fun e _ => hE w' e hw', fun ws hok => ?_⟩
    have hstream := hgap.stream_of_insertEvent (ha.gapFree _ hw'.inv) (ha.grows hw')
      hc.version_append hok
    obtain ⟨rfl, -⟩ := insertEvent_ok.mp hok
    have hgap' := ha.gapFree_later hgap hw'
    have hc' : Contiguous ((view (sv.db w') p).stream row.streamId ++ [row] ++ rows) := by
      simpa [hstream] using hc
    have hview : (view (sv.db w') (p ++ [Write.insertEvent row])).stream row.streamId =
        (view (sv.db w') p).stream row.streamId ++ [row] := by
      rw [view_append, stream_view]
      simp [insertedEvents]
    refine ih (fun r hr => hrows r (by simp [hr])) w' _ hw'.inv (hgap'.view_insertEvent hc'.left)
      (by rw [hview]; exact hc') ?_ ?_
    · exact fun w'' e hw'' => hE w'' e (hw'.trans (hw''.mono (by simp)))
    · intro w'' hw'' hs halone hgap''
      have hlater : Later sv pr i p w' w'' := hw''.mono (by simp)
      have hrow : insertEvent row (view (sv.db w'') p) = .ok [.insertEvent row] :=
        insertEvent_stable hok (ha.grows hw'')
      have hmap : p ++ (row :: rows).map .insertEvent =
          p ++ [Write.insertEvent row] ++ rows.map .insertEvent := by simp
      have := hQ w'' (hw'.trans hlater) (fun _ => ?_) ?_ (by rw [hmap]; exact hgap'')
      · rwa [hmap] at this
      · rw [← hstream]
        exact hgap'.stream_of_insertEvent (ha.gapFree _ hw''.inv) (ha.grows hlater)
          (by rw [hstream]; exact hc.version_append) hrow
      · simp only [insertRows, Tx.bind_eq, Tx.alone_bind, Tx.alone_write, hrow, Except.map,
          Except.bind, halone, hmap]

/-- An append under interference: if it succeeds, then at its last statement it has done what it
would have done alone at that moment. -/
lemma Appends.wp_appendUsingManager (ha : Appends sv pr) {Q : W → List Write → List StoredEvent → Prop}
    {E : W → LedgerError → Prop} {request : AppendToStreamRequest} {now : Int} (hinv : pr.inv w)
    (hgap : GapFree (view (sv.db w) p)) (hE : ∀ w' e, Later sv pr i p w w' → E w' e)
    (hQ : ∀ w' stored q, Later sv pr i p w w' → Appended request now (sv.db w') p stored q →
      GapFree (view (sv.db w') p) → GapFree (view (sv.db w') q) → Q w' q stored) :
    (appendUsingManager request now).wp sv pr i Q E w p := by
  simp only [appendUsingManager, Tx.bind_eq]
  rw [Tx.wp_bind, Tx.wp_ofExcept]
  refine ⟨fun e _ => hE _ _ (.refl hinv), fun _ hvalid => ?_⟩
  rw [Tx.wp_bind, Tx.wp_query]
  intro w₁ hw₁
  have hgap₁ := ha.gapFree_later hgap hw₁
  rw [Tx.wp_bind, Tx.wp_ofExcept]
  refine ⟨fun e _ => hE _ _ hw₁, fun _ hcheck => ?_⟩
  obtain ⟨hv, ht⟩ := hgap₁.checkLatest_ok.mp hcheck
  have hrows : storedEvents request now ≠ [] := by
    simpa [storedEvents] using Appended.events_ne_nil hvalid
  rw [Tx.wp_bind]
  refine ha.wp_insertRows (storedEvents request now)
    (fun row hrow => (streamId_of_mem_storedEvents hrow).1) w₁ p hw₁.inv hgap₁
    (Appended.contiguous_append now hgap₁ hv ht) (fun w' e hw' => hE _ _ (hw₁.trans hw')) ?_
  intro w₂ hw₂ hstream halone hgap₂
  specialize hstream hrows
  have happ : Appended request now (sv.db w₂) p (storedEvents request now)
      (p ++ (storedEvents request now).map .insertEvent) :=
    ⟨hvalid, by rw [hstream]; exact hv, by rw [hstream]; exact ht, rfl, rfl, halone⟩
  rw [Tx.wp_query]
  intro w₃ hw₃
  obtain ⟨happ₃, -⟩ := happ.stable hgap₂ (ha.gapFree _ hw₃.inv) (ha.grows hw₃)
  have hlater : Later sv pr i p w₂ w₃ := hw₃.mono (by simp)
  have hgap₃ : GapFree (view (sv.db w₃) p) :=
    ha.gapFree_later (ha.gapFree_later hgap₁ hw₂) hlater
  have hbetween := (Appended.contiguous_append now hgap₃ happ₃.expectedVersion
    happ₃.aggregateType).between
  have hread : (view (sv.db w₃) (p ++ (storedEvents request now).map .insertEvent)).between
      request.streamId (request.expectedVersion + 1)
      (request.expectedVersion + request.events.length) = storedEvents request now := by
    rw [Database.between, happ₃.stream_eq]
    simpa [happ₃.expectedVersion] using hbetween
  rw [hread]
  exact hQ w₃ _ _ ((hw₁.trans hw₂).trans hlater) happ₃ hgap₃ (ha.gapFree_later hgap₂ hw₃)

/-- The same inside a transaction of the caller. -/
lemma Appends.wp_append (ha : Appends sv pr) {Q : W → List Write → List StoredEvent → Prop}
    {E : W → LedgerError → Prop} {request : AppendToStreamRequest} {now : Int} (hinv : pr.inv w)
    (hgap : GapFree (view (sv.db w) p)) (hE : ∀ w' e, Later sv pr i p w w' → E w' e)
    (hQ : ∀ w' stored q, Later sv pr i p w w' → Appended request now (sv.db w') p stored q →
      GapFree (view (sv.db w') p) → GapFree (view (sv.db w') q) → Q w' q stored) :
    (appendWithinTransaction request now).wp sv pr i Q E w p := by
  rw [appendWithinTransaction, Tx.wp_mapError]
  exact ha.wp_appendUsingManager hinv hgap (fun w' e => hE w' _) hQ

end Appends

end Ledger

end PeerLedger
