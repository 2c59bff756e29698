import PeerLedger.Ledger.EventStore
import PeerLedger.Transactions.Solo

/-!
# Concurrent appends

Any number of threads append through the event store: with `append`, which runs a transaction of its
own, or with `appendWithinTransaction`, any number of times in one transaction.  What a thread does
next may depend on the outcomes so far.  In every committed state the streams are contiguous, and
the events are exactly those that the committed calls returned.
-/

namespace PeerLedger

namespace Ledger

open Transactions

/-- A call of the event store that succeeded, with what it returned. -/
structure AppendCall where
  request : AppendToStreamRequest
  returned : List StoredEvent

/-- The body of a transaction that calls `appendWithinTransaction`; each further call may depend on
what the earlier ones returned. -/
inductive AppendScript where
  | done
  | throw (e : LedgerError)
  | appendWithinTransaction (request : AppendToStreamRequest)
      (k : List StoredEvent → AppendScript)

/-- A client of the event store. -/
inductive AppendClient where
  | done
  | append (request : AppendToStreamRequest) (now : Int)
      (k : Except LedgerError (List StoredEvent) → AppendClient)
  | transaction (script : AppendScript) (now : Int)
      (k : Except LedgerError (List AppendCall) → AppendClient)

/-- The transaction body of a script; it returns its calls. -/
def AppendScript.body (now : Int) : AppendScript → Tx Database Write LedgerError (List AppendCall)
  | .done => .ret []
  | .throw e => .abort e
  | .appendWithinTransaction request k => do
    let stored ← Ledger.appendWithinTransaction request now
    let calls ← (k stored).body now
    return ⟨request, stored⟩ :: calls

/-- `append`: one transaction, whose errors are mapped after it has been rolled back. -/
def append (request : AppendToStreamRequest) (now : Int) :
    Prog Database Write LedgerError (List AppendCall) Empty Empty (List StoredEvent) :=
  .transaction (do
      let stored ← appendUsingManager request now
      return [⟨request, stored⟩])
    fun
      | .ok calls => .done (.ok (calls.flatMap (·.returned)))
      | .error e => .done (.error (mapAppendErrors request e))

/-- The program of a client. -/
def AppendClient.program : AppendClient →
    Prog Database Write LedgerError (List AppendCall) Empty Empty Unit
  | .done => .done (.ok ())
  | .append request now k => (Ledger.append request now).attempt fun r => (k r).program
  | .transaction script now k => .transaction (script.body now) fun r => (k r).program

/-- The committed database and the calls of the committed transactions. -/
structure AppendWorld where
  db : Database
  calls : List AppendCall

/-- The event store with its clients; `fails` are the errors that a statement may throw at any time. -/
def eventStore (fails : LedgerError → Prop) :
    Service Nat AppendWorld Database Write LedgerError (List AppendCall) Empty Empty Unit Unit where
  db w := w.db
  commit w c := ⟨view w.db c.writes, w.calls ++ c.reply⟩
  admits _ _ _ := True
  fails := fails
  issue _ _ q _ _ := nomatch q
  answer _ _ q _ _ := nomatch q
  starts w _ program w' := w' = w ∧ ∃ client : AppendClient, program = client.program
  env _ _ := False

/-- What a call that succeeded has returned: the events of its request, with the next versions. -/
def AppendCall.Returned (call : AppendCall) : Prop :=
  call.request.events ≠ [] ∧ ∃ now, call.returned = storedEvents call.request now

/-- The commits of the event store insert what their calls returned. -/
def eventStoreProtocol :
    Protocol Nat AppendWorld Database Write LedgerError (List AppendCall) Empty Unit where
  inv w := GapFree w.db ∧ w.db.events = w.calls.flatMap (·.returned) ∧
    ∀ call ∈ w.calls, call.Returned
  guar w c := GapFree (view w.db c.writes) ∧
    insertedEvents c.writes = c.reply.flatMap (·.returned) ∧ ∀ call ∈ c.reply, call.Returned
  callOk _ _ _ := True
  post _ _ _ := True

variable {fails : LedgerError → Prop} {i : Nat}

lemma eventStore_appends : Appends (eventStore fails) eventStoreProtocol where
  db_commit _ _ := rfl
  db_env _ _ h := h.elim
  db_issue _ _ q := nomatch q
  db_start _ _ _ _ h := by rw [h.1]
  gapFree _ h := h.1

/-- The writes of an append are the events that it returns. -/
lemma Appended.insertedEvents_eq {request : AppendToStreamRequest} {now : Int} {db : Database}
    {p q : List Write} {stored : List StoredEvent} (h : Appended request now db p stored q) :
    insertedEvents q = insertedEvents p ++ stored := by
  rw [h.pending_eq, h.stored_eq, insertedEvents_append]
  simp [insertedEvents, List.filterMap_map]

lemma Appended.returned {request : AppendToStreamRequest} {now : Int} {db : Database}
    {p q : List Write} {stored : List StoredEvent} (h : Appended request now db p stored q) :
    AppendCall.Returned ⟨request, stored⟩ :=
  ⟨Appended.events_ne_nil h.validated, now, h.stored_eq⟩

/-- A script that returns has inserted exactly what its calls returned. -/
lemma AppendScript.wp_body (now : Int) (script : AppendScript)
    {Q : AppendWorld → List Write → List AppendCall → Prop} {E : AppendWorld → LedgerError → Prop}
    (w : AppendWorld) (p : List Write) (hinv : eventStoreProtocol.inv w)
    (hgap : GapFree (view w.db p))
    (hE : ∀ w' e, Later (eventStore fails) eventStoreProtocol i p w w' → E w' e)
    (hQ : ∀ w' q calls, Later (eventStore fails) eventStoreProtocol i p w w' →
      GapFree (view w'.db q) → insertedEvents q = insertedEvents p ++ calls.flatMap (·.returned) →
      (∀ call ∈ calls, call.Returned) → Q w' q calls) :
    (script.body now).wp (eventStore fails) eventStoreProtocol i Q E w p := by
  induction script generalizing w p Q with
  | done => exact hQ w p [] (.refl hinv) hgap (by simp) (by simp)
  | throw e => exact hE w e (.refl hinv)
  | appendWithinTransaction request k ih =>
    simp only [AppendScript.body, Tx.bind_eq]
    rw [Tx.wp_bind]
    refine eventStore_appends.wp_append hinv hgap hE ?_
    intro w' stored q hw' happ _ hgap'
    have hsub : p ⊆ q := by simp [happ.pending_eq]
    rw [Tx.wp_bind]
    refine ih stored w' q hw'.inv hgap' (fun w'' e hw'' => hE _ _ (hw'.trans (hw''.mono hsub))) ?_
    intro w'' q' calls hw'' hgap'' hins hcalls
    refine hQ w'' q' _ (hw'.trans (hw''.mono hsub)) hgap'' ?_ ?_
    · simp [hins, happ.insertedEvents_eq]
    · exact List.forall_mem_cons.mpr ⟨happ.returned, hcalls⟩

/-- A transaction whose body inserts what its calls return meets the protocol. -/
lemma wp_eventStore_transaction {body : Tx Database Write LedgerError (List AppendCall)}
    {k : Except LedgerError (List AppendCall) →
      Prog Database Write LedgerError (List AppendCall) Empty Empty Unit}
    {Φ : AppendWorld → Except LedgerError Unit → Prop} {w : AppendWorld}
    (hbody : ∀ w' Q E, eventStoreProtocol.inv w' →
      (∀ w'' e, Later (eventStore fails) eventStoreProtocol i [] w' w'' → E w'' e) →
      (∀ w'' q calls, Later (eventStore fails) eventStoreProtocol i [] w' w'' →
        GapFree (view w''.db q) → insertedEvents q = calls.flatMap (·.returned) →
        (∀ call ∈ calls, call.Returned) → Q w'' q calls) →
      body.wp (eventStore fails) eventStoreProtocol i Q E w' [])
    (hk : ∀ r w', (k r).wp (eventStore fails) eventStoreProtocol i Φ w') :
    (Prog.transaction body k).wp (eventStore fails) eventStoreProtocol i Φ w := by
  refine fun w₁ hw₁ => ⟨hbody w₁ _ _ hw₁.inv (fun _ _ _ => hk _ _) ?_, fun _ _ => hk _ _⟩
  intro w₂ q calls hw₂ hgap hins hcalls w₃ hw₃ _
  exact ⟨⟨eventStore_appends.gapFree_later hgap hw₃, hins, hcalls⟩, hk _ _⟩

/-- Every client meets the protocol. -/
lemma AppendClient.wp_program (client : AppendClient) (w : AppendWorld) :
    client.program.wp (eventStore fails) eventStoreProtocol i
      (eventStoreProtocol.final (eventStore fails) i) w := by
  induction client generalizing w with
  | done => exact fun _ _ => trivial
  | append request now k ih =>
    refine wp_eventStore_transaction (fun w' Q E hinv hE hQ => ?_) fun r w' => ?_
    · simp only [Tx.bind_eq]
      rw [Tx.wp_bind]
      refine eventStore_appends.wp_appendUsingManager hinv hinv.1 hE ?_
      intro w'' stored q hw'' happ _ hgap
      exact hQ w'' q _ hw'' hgap (by simp [happ.insertedEvents_eq])
        (by simpa using happ.returned)
    · cases r <;> exact ih _ _
  | transaction script now k ih =>
    refine wp_eventStore_transaction (fun w' Q E hinv hE hQ => ?_) fun r w' => ih r w'
    refine script.wp_body now w' [] hinv hinv.1 hE fun w'' q calls hw'' hgap hins => ?_
    exact hQ w'' q calls hw'' hgap (by simpa using hins)

lemma eventStore_sound : eventStoreProtocol.Sound (eventStore fails) where
  inv_env _ _ _ h := h.elim
  inv_commit w c hinv _ hguar := by
    refine ⟨hguar.1, ?_, fun call hcall => ?_⟩
    · simp only [eventStore, events_view, List.flatMap_append, hinv.2.1, hguar.2.1]
    · exact (List.mem_append.mp hcall).elim (hinv.2.2 call) (hguar.2.2 call)
  inv_issue _ _ q := nomatch q
  inv_start _ _ _ _ hinv h := h.1 ▸ hinv
  start_wp w i p w' _ h := by
    obtain ⟨-, client, rfl⟩ := h
    exact client.wp_program w'

/-! ### What holds in every run -/

/-- The first versions of the batches are among the versions of the events. -/
lemma sublist_of_returned {calls : List AppendCall} (h : ∀ call ∈ calls, call.Returned) :
    (calls.map fun call => (call.request.streamId, call.request.expectedVersion + 1)).Sublist
      ((calls.flatMap (·.returned)).map fun e => (e.streamId, e.streamVersion)) := by
  induction calls with
  | nil => simp
  | cons call calls ih =>
    obtain ⟨hne, now, hreturned⟩ := h call (by simp)
    obtain ⟨event, events, hevents⟩ := List.exists_cons_of_ne_nil hne
    have hhead : ∃ more, call.returned = storedEvent call.request now 0 event :: more :=
      ⟨_, by rw [hreturned, storedEvents, hevents, List.mapIdx_cons]⟩
    obtain ⟨more, hmore⟩ := hhead
    rw [List.map_cons, List.flatMap_cons, hmore, List.cons_append, List.map_cons, List.map_append]
    have hkey : ((storedEvent call.request now 0 event).streamId,
        (storedEvent call.request now 0 event).streamVersion) =
        (call.request.streamId, call.request.expectedVersion + 1) := by
      simp [storedEvent]
    rw [hkey]
    exact ((ih fun c hc => h c (by simp [hc])).trans (List.sublist_append_right _ _)).cons_cons _

/-- No two events of gap-free streams have the same stream and version. -/
lemma GapFree.nodup_keys {db : Database} (h : GapFree db) :
    (db.events.map fun e => (e.streamId, e.streamVersion)).Nodup := by
  rw [List.Nodup, List.pairwise_map]
  refine List.pairwise_iff_forall_sublist.mpr fun {a b} hab hkey => ?_
  obtain ⟨hs, hv⟩ := Prod.mk.inj hkey
  have hab' : [a, b].Sublist (db.stream a.streamId) := by
    have := hab.filter fun event => event.streamId = a.streamId
    simpa [Database.stream, hs] using this
  have hlt := List.pairwise_iff_forall_sublist.mp (h a.streamId).pairwise_lt hab'
  exact absurd hv hlt.ne

/-- The states of the event store and its clients. -/
abbrev AppendSys :=
  Sys Nat AppendWorld Database Write LedgerError (List AppendCall) Empty Empty Unit Unit

variable {s s' : AppendSys}

/-- A step adds events only when a transaction returns, namely those that its calls returned. -/
lemma eventStore_step (hok : s.Ok (eventStore fails) eventStoreProtocol)
    (hs : Step (eventStore fails) s s') : s'.world = s.world ∨
      ∃ i body calls p k, s.threads i = .inTx body (.ret calls) p k ∧
        s'.threads i = .run (k (.ok calls)) ∧ s'.world.calls = s.world.calls ++ calls ∧
        s'.world.db.events = s.world.db.events ++ calls.flatMap (·.returned) := by
  cases hs with
  | start _ hst => exact .inl hst.1
  | @issue _ q => exact nomatch q
  | env he => exact he.elim
  | @commit i body calls p k hi ha =>
    refine .inr ⟨i, body, calls, p, k, hi, Sys.set_threads_self _ _ _ _, rfl, ?_⟩
    have hins : insertedEvents p = calls.flatMap (·.returned) := (hok.guar hi ⟨_, ha⟩).2.1
    rw [← hins]
    exact events_view _ _
  | _ => exact .inl rfl

/-- Committed events stay. -/
lemma eventStore_events_prefix (hok : s.Ok (eventStore fails) eventStoreProtocol)
    (hs : Reaches (eventStore fails) s s') : s.world.db.events <+: s'.world.db.events := by
  induction hs with
  | refl => exact List.prefix_rfl
  | tail hab hstep ih =>
    refine ih.trans ?_
    rcases eventStore_step (hok.reaches eventStore_sound hab) hstep with
      he | ⟨_, _, _, _, _, -, -, -, he⟩
    · exact he ▸ List.prefix_rfl
    · rw [he]
      exact List.prefix_append _ _

/-- Gap-free, append-only streams: in every reachable state each stream has the versions `1..n` and
one aggregate type, and the events are those that the committed calls returned, each call the events
of its request at the versions after its expected one, no two calls of a stream with the same
expected version.  Committed events stay, and a step adds events only when a transaction returns
successfully, namely those its calls returned. -/
theorem event_streams_gap_free (users : List User)
    (h : Reaches (eventStore fails) (Sys.init ⟨Database.initial users, []⟩) s) :
    (∀ streamId, Contiguous (s.world.db.stream streamId)) ∧
    s.world.db.events = s.world.calls.flatMap (·.returned) ∧
    (∀ call ∈ s.world.calls, call.Returned ∧ call.returned.map (·.streamVersion) =
      (List.range call.request.events.length).map
        fun k : Nat => call.request.expectedVersion + k + 1) ∧
    (s.world.calls.map fun call =>
      (call.request.streamId, call.request.expectedVersion)).Nodup ∧
    (∀ s', Reaches (eventStore fails) s s' → s.world.db.events <+: s'.world.db.events) ∧
    ∀ s', Step (eventStore fails) s s' → s'.world = s.world ∨
      ∃ i body calls p k, s.threads i = .inTx body (.ret calls) p k ∧
        s'.threads i = .run (k (.ok calls)) ∧ s'.world.calls = s.world.calls ++ calls ∧
        s'.world.db.events = s.world.db.events ++ calls.flatMap (·.returned) := by
  have hinit : eventStoreProtocol.inv ⟨Database.initial users, []⟩ :=
    ⟨fun _ => Contiguous.nil, rfl, by simp⟩
  have hok : s.Ok (eventStore fails) eventStoreProtocol :=
    (Sys.Ok.init hinit).reaches eventStore_sound h
  obtain ⟨hgap, hevents, hcalls⟩ := hok.inv
  refine ⟨hgap, hevents, fun call hcall => ⟨hcalls call hcall, ?_⟩, ?_,
    fun _ => eventStore_events_prefix hok, fun _ => eventStore_step hok⟩
  · obtain ⟨-, now, hreturned⟩ := hcalls call hcall
    rw [hreturned, versions_storedEvents]
  · have hkeys := hgap.nodup_keys
    rw [hevents] at hkeys
    have hnodup := (sublist_of_returned hcalls).nodup hkeys
    -- the first version of a batch determines its expected version
    refine List.Nodup.of_map (fun key => (key.1, key.2 + 1)) ?_
    rwa [List.map_map]

/-- A request for one event. -/
def noted (eventId : String) (expectedVersion : Int) : AppendToStreamRequest :=
  { streamId := "w", aggregateType := "Wallet", expectedVersion,
    events := [{ eventId, eventType := "Noted", schemaVersion := 1, payload := .obj [] }] }

/-- A client that appends two events in one transaction. -/
def pairClient : AppendClient :=
  .transaction
    (.appendWithinTransaction (noted "a" 0) fun _ =>
      .appendWithinTransaction (noted "b" 1) fun _ => .done) 0 fun _ => .done

/-- A client that comes too late with the same expected version, and then appends behind. -/
def lateClient : AppendClient :=
  .append (noted "c" 0) 1 fun _ => .append (noted "d" 2) 1 fun _ => .done

/-- The state after both clients have run. -/
def twoClients : AppendSys :=
  let s := (Sys.init ⟨Database.initial [], []⟩ : AppendSys)
  let s := s.serve (eventStore fun _ => False) 5 0 pairClient.program s.world
  s.serve (eventStore fun _ => False) 5 1 lateClient.program s.world

theorem event_streams_gap_free_twoClients :
    Reaches (eventStore fun _ => False) (Sys.init ⟨Database.initial [], []⟩) twoClients ∧
    twoClients.world.calls.map (·.request.expectedVersion) = [0, 1, 2] ∧
    Contiguous (twoClients.world.db.stream "w") := by
  have hreach : Reaches (eventStore fun _ => False) (Sys.init ⟨Database.initial [], []⟩)
      twoClients := by
    have hadm : ∀ i w (client : AppendClient), client.program.Admitted (eventStore fun _ => False) i
        5 w := fun i w client => Prog.admitted_of_invariant (I := fun _ => True)
      (fun _ _ _ _ => trivial) (fun _ _ _ _ => trivial) 5 trivial client.program
    have hpair := (Sys.Quiet.init (⟨Database.initial [], []⟩ : AppendWorld)).serve
      (eventStore fun _ => False) 5 0 pairClient.program _ (hadm _ _ _) rfl ⟨rfl, pairClient, rfl⟩
    have hlate := hpair.2.serve (eventStore fun _ => False) 5 1
      lateClient.program _ (hadm _ _ _) rfl ⟨rfl, lateClient, rfl⟩
    exact hpair.1.trans hlate.1
  exact ⟨hreach, by decide +kernel, (event_streams_gap_free [] hreach).1 "w"⟩

end Ledger

end PeerLedger
