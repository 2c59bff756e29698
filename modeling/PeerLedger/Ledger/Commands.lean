import PeerLedger.Ledger.Statements

/-!
# The commands meet the protocol

For every command: under any interference each of its commits has an `Effect` on the contents at
that moment, is what its transaction would have done alone, and the command ends with an `Outcome`.

The statements of a transaction are followed one by one.  A row that was read may be out of date
when the next statement runs; the version check and the unique index make up for it: when the event
is inserted, the stream is still the one that was replayed, and from then on nobody else can append
to it.
-/

namespace PeerLedger

namespace Ledger

open Transactions WalletAggregate

variable {setting : Setting} {i : Nat} {p : List Write} {w : LedgerWorld} {job : Job}

/-! ### One event of one wallet -/

/-- The statements with which a command records its event. -/
def recordEvent (wallet : Wallet) (a : WalletAggregate) (event : EventData) (draw : Draw) :
    LedgerTx Reply :=
  (appendEvent wallet.id a.version event draw.now).bind fun stored =>
    (enqueueWalletEvents wallet draw.carrier [stored]).bind fun _ =>
      (projectApplied a stored).bind fun projection => .ret (.wallet (toView wallet projection))

/-- A stream that was replayed and to which the next event could be appended has not moved in
between. -/
lemma AppendedEvent.stream_eq {streamId walletId : String} {a : WalletAggregate} {event : EventData}
    {now : Int} {db : Database} {history : List StoredEvent}
    (h : AppendedEvent streamId a.version event now db p) (ha : rehydrate walletId history = .ok a)
    (hpre : history <+: (view db p).stream streamId) : (view db p).stream streamId = history := by
  have hlen : (((view db p).stream streamId).length : Int) = a.version := h.expectedVersion
  rw [(rehydrate_replayed ha).version] at hlen
  exact (hpre.eq_of_length (by exact_mod_cast hlen.symm)).symm

/-- After the append the stream does not move, and is the one that was replayed. -/
lemma AppendedEvent.locked {streamId walletId : String} {a : WalletAggregate} {event : EventData}
    {now : Int} {history : List StoredEvent} {w' : LedgerWorld} (hgap : GapFree (view w.db p))
    (hgap' : GapFree (view w.db (p ++ [.insertEvent (nextEvent streamId a.version event now)])))
    (h : AppendedEvent streamId a.version event now w.db p) (ha : rehydrate walletId history = .ok a)
    (hpre : history <+: (view w.db p).stream streamId)
    (hw' : Later (ledger setting) (ledgerProtocol setting) i
      (p ++ [.insertEvent (nextEvent streamId a.version event now)]) w w') :
    AppendedEvent streamId a.version event now w'.db p ∧
      (view w'.db p).stream streamId = history := by
  have hgrows := ledger_appends.grows (hw'.mono (q := p) (by simp))
  have hgapFree : GapFree w'.db := ledger_appends.gapFree _ hw'.inv
  obtain ⟨happ, -⟩ := h.stable hgap' hgapFree (ledger_appends.grows hw')
  exact ⟨happ, AppendedEvent.stream_eq happ ha
    (hpre.trans (hgap.view_stream_prefix hgapFree hgrows streamId))⟩

/-- Every statement of the record succeeds alone on `db`. -/
structure RecordsEvent (wallet : Wallet) (a a' : WalletAggregate) (event : EventData) (draw : Draw)
    (db : Database) : Prop where
  consistent : Consistent db
  appended : AppendedEvent wallet.id a.version event draw.now db []
  applied : a.apply (nextEvent wallet.id a.version event draw.now) = .ok a'
  saved : saveProjection (projectionFromAggregate a')
      (view db [Write.insertEvent (nextEvent wallet.id a.version event draw.now),
        .insertOutbox
          (outboxMessage (nextEvent wallet.id a.version event draw.now) wallet draw.carrier)]) =
    .ok [.saveProjection (projectionFromAggregate a')]

section RecordEvent

variable {wallet : Wallet} {a a' : WalletAggregate} {event : EventData} {draw : Draw}
variable {db : Database} {E : LedgerWorld → LedgerError → Prop}

/-- The message of an event that was appended has a free id, when there is no other message before
it. -/
lemma AppendedEvent.outbox_free {streamId : String} {version now : Int} (hc : Consistent db)
    (hp : insertedOutbox p = []) (h : AppendedEvent streamId version event now db p) :
    ∀ row ∈ (view db (p ++ [.insertEvent (nextEvent streamId version event now)])).outbox,
      row.eventId ≠ event.eventId := by
  have hnone : insertedOutbox (p ++ [.insertEvent (nextEvent streamId version event now)]) = [] := by
    rw [insertedOutbox, List.filterMap_append]
    exact congrArg (· ++ []) hp
  rw [outbox_view, hnone, List.append_nil]
  refine hc.outbox_free fun row hrow => h.id_free row ?_
  rw [events_view]
  exact List.mem_append_left _ hrow

/-- Once its event can be appended, the record alone comes down to the projection. -/
lemma alone_recordEvent_appended (hc : Consistent db)
    (happ : AppendedEvent wallet.id a.version event draw.now db []) :
    (recordEvent wallet a event draw).alone db [] =
      ((projectApplied a (nextEvent wallet.id a.version event draw.now)).bind fun projection =>
        .ret (.wallet (toView wallet projection))).alone db
        [.insertEvent (nextEvent wallet.id a.version event draw.now),
          .insertOutbox
            (outboxMessage (nextEvent wallet.id a.version event draw.now) wallet draw.carrier)] := by
  refine Tx.alone_bind_ok (alone_appendEvent hc.gapFree happ) ?_
  exact Tx.alone_bind_ok
    (alone_enqueueWalletEvents (insertOutbox_ok.mpr ⟨rfl, happ.outbox_free hc rfl⟩)) rfl

/-- Recording an event alone. -/
lemma RecordsEvent.alone (h : RecordsEvent wallet a a' event draw db) :
    (recordEvent wallet a event draw).alone db [] =
      .ok (.wallet (toView wallet (projectionFromAggregate a')),
        records wallet (nextEvent wallet.id a.version event draw.now) a' draw.carrier) :=
  (alone_recordEvent_appended h.consistent h.appended).trans
    (Tx.alone_bind_ok (alone_projectApplied h.applied h.saved) rfl)

/-- The event continues the stream of its wallet. -/
lemma RecordsEvent.recorded (h : RecordsEvent wallet a a' event draw db) (hmem : wallet ∈ db.wallets)
    (ha : rehydrate wallet.id (db.stream wallet.id) = .ok a)
    (hid : assertAggregateIdentity wallet a = .ok ()) :
    Recorded db wallet a (nextEvent wallet.id a.version event draw.now) a' := by
  obtain ⟨howner, hcurrency⟩ : a.ownerId = some wallet.ownerId ∧
      a.currency = some wallet.currency := by
    simpa [assertAggregateIdentity, ite_error_eq_ok] using hid
  have hgap : GapFree (view db ([] : List Write)) := h.consistent.gapFree
  exact ⟨hmem, ha, howner, hcurrency, rfl, Appended.contiguous_append draw.now hgap
    h.appended.expectedVersion h.appended.aggregateType, h.applied⟩

/-- The aggregate has the id of a wallet. -/
lemma RecordsEvent.exists_wallet (h : RecordsEvent wallet a a' event draw db) :
    ∃ row ∈ db.wallets, row.id = a.id := by
  obtain ⟨-, -, row, hrow, hid⟩ := saveProjection_ok.mp h.saved
  rw [wallets_view] at hrow
  exact ⟨row, (List.mem_append.mp hrow).resolve_right (List.not_mem_nil (a := row)),
    hid.trans (apply_ok h.applied).2.id_eq⟩

/-- The ways in which the record of an event fails after its stream was replayed for a wallet, each
with what it has to establish. -/
structure RecordErrors (setting : Setting) (i : Nat) (w : LedgerWorld) (walletId : String)
    (wallet : Wallet) (a : WalletAggregate) (event : EventData) (draw : Draw)
    (E : LedgerWorld → LedgerError → Prop) : Prop where
  /-- It fails as it would alone, while the stream is still as it was. -/
  decided : ∀ w₁ w₂ e, Later (ledger setting) (ledgerProtocol setting) i [] w w₁ →
    Later (ledger setting) (ledgerProtocol setting) i [] w₁ w₂ →
    w₁.db.stream wallet.id = w.db.stream wallet.id →
    (isConflict e = false ∨ (isExpectedStreamVersionError e = false ∧
      ∀ row ∈ w₁.db.wallets, row.id ≠ walletId)) →
    (recordEvent wallet a event draw).alone w₁.db [] = .error e → E w₂ e
  /-- The id of the event is taken. -/
  taken : ∀ w₁ id, Later (ledger setting) (ledgerProtocol setting) i [] w w₁ →
    (∃ row ∈ w₁.db.events, row.eventId = event.eventId) → E w₁ (.duplicateEventId id)
  /-- The stream has moved. -/
  moved : ∀ w₁ e, Later (ledger setting) (ledgerProtocol setting) i [] w w₁ →
    w₁.db.stream wallet.id ≠ w.db.stream wallet.id → isExpectedStreamVersionError e = true → E w₁ e

/-- Whatever the error, it is one of these. -/
lemma RecordErrors.of_any {walletId : String}
    (h : ∀ w' e, Later (ledger setting) (ledgerProtocol setting) i [] w w' → E w' e) :
    RecordErrors setting i w walletId wallet a event draw E where
  decided _ w₂ e hw₁ hw₂ _ _ _ := h w₂ e (hw₁.trans hw₂)
  taken w₁ _ hw₁ _ := h w₁ _ hw₁
  moved w₁ e hw₁ _ _ := h w₁ e hw₁

/-- An event is recorded as if the command were alone at the moment of its commit, and its stream has
not moved since it was replayed; or the record fails in one of these ways. -/
lemma wp_recordEvent {Q : LedgerWorld → List Write → Reply → Prop} {walletId : String}
    (hinv : (ledgerProtocol setting).inv w)
    (ha : rehydrate walletId (w.db.stream wallet.id) = .ok a)
    (hE : RecordErrors setting i w walletId wallet a event draw E)
    (hQ : ∀ w' a', Later (ledger setting) (ledgerProtocol setting) i [] w w' →
      (∀ w'', Later (ledger setting) (ledgerProtocol setting) i
          (records wallet (nextEvent wallet.id a.version event draw.now) a' draw.carrier) w' w'' →
        RecordsEvent wallet a a' event draw w''.db ∧
        w''.db.stream wallet.id = w.db.stream wallet.id) →
      Q w' (records wallet (nextEvent wallet.id a.version event draw.now) a' draw.carrier)
        (.wallet (toView wallet (projectionFromAggregate a')))) :
    (recordEvent wallet a event draw).wp (ledger setting) (ledgerProtocol setting) i Q E w [] := by
  have happend : ∀ {db : Database} {e : LedgerError},
      (appendEvent wallet.id a.version event draw.now).alone db [] = .error e →
      (recordEvent wallet a event draw).alone db [] = .error e := fun {db e} h => by
    rw [recordEvent, Tx.alone_bind, h]
    rfl
  unfold recordEvent
  rw [Tx.wp_bind]
  refine wp_appendEvent hinv hinv.1.gapFree (rehydrate_replayed ha).version List.prefix_rfl
    ⟨fun message hinvalid => ?_, fun w₁ w₂ e hw₁ hw₂ hstream hno h => ?_, hE.taken, hE.moved⟩
    fun w₁ hw₁ happ hgap₀ hgap₁ => ?_
  · exact hE.decided w w _ (.refl hinv) (.refl hinv) rfl (.inl rfl)
      (happend (alone_appendEvent_invalid hinvalid))
  · exact hE.decided w₁ w₂ e hw₁ hw₂ hstream (.inl hno) (happend h)
  set e := nextEvent wallet.id a.version event draw.now
  -- from now on the stream is locked
  have hlocked : ∀ w', Later (ledger setting) (ledgerProtocol setting) i [Write.insertEvent e] w₁ w' →
      AppendedEvent wallet.id a.version event draw.now w'.db [] ∧
        w'.db.stream wallet.id = w.db.stream wallet.id :=
    fun w' hw' => AppendedEvent.locked (p := []) hgap₀ hgap₁ happ ha
      ((ledger_appends.grows hw₁).stream wallet.id) hw'
  rw [Tx.wp_bind]
  refine wp_enqueueWalletEvents (fun w' e' hw' htaken => ?_) fun w₂ hw₂ _ => ?_
  · obtain ⟨row, hrow, hid⟩ := htaken
    exact absurd hid ((hlocked w' hw').1.outbox_free hw'.inv.1 rfl row hrow)
  have h₁ : ∀ {w' : LedgerWorld}, Later (ledger setting) (ledgerProtocol setting) i
      [Write.insertEvent e, .insertOutbox (outboxMessage e wallet draw.carrier)] w₂ w' →
      Later (ledger setting) (ledgerProtocol setting) i [Write.insertEvent e] w₁ w' :=
    fun hw' => Later.trans hw₂ (hw'.mono (by simp))
  rw [Tx.wp_bind]
  refine wp_projectApplied hw₂.inv (fun w₃ e' hw₃ hno herror => ?_) fun w₃ a' hw₃ happly hsave => ?_
  · obtain ⟨happ₃, hstream₃⟩ := hlocked w₃ (h₁ hw₃)
    rw [(rehydrate_replayed ha).id] at hno
    refine hE.decided w₃ w₃ e' (hw₁.trans (h₁ hw₃).nil) (.refl hw₃.inv) hstream₃ hno ?_
    rw [alone_recordEvent_appended hw₃.inv.1 happ₃, Tx.alone_bind]
    exact congrArg (fun r => Except.bind r _) herror
  · refine hQ w₃ a' (hw₁.trans (h₁ hw₃).nil) fun w₄ hw₄ => ?_
    obtain ⟨happ₄, hstream₄⟩ := hlocked w₄ (h₁ (Later.trans hw₃ (hw₄.mono (by simp [records, e]))))
    exact ⟨⟨hw₄.inv.1, happ₄, happly, saveProjection_stable hsave (ledger_appends.grows hw₄)⟩,
      hstream₄⟩

end RecordEvent

/-! ### Ids in another spelling -/

section Spellings

variable {db : Database} {walletId holdId : String}

/-- No wallet has an id that is spelled otherwise than the database prints it. -/
lemma Consistent.ne_of_spelling (hc : Consistent db) (h : uuid walletId ≠ walletId) :
    ∀ wallet ∈ db.wallets, wallet.id ≠ walletId := by
  rintro wallet hwallet rfl
  exact h (hc.uuids wallet hwallet)

/-- Under an id in another spelling there is no hold. -/
lemma Consistent.hold_of_spelling (hc : Consistent db) (h : uuid walletId ≠ walletId) :
    db.hold walletId holdId = none := by
  have hnil : db.stream walletId = [] := List.filter_eq_nil_iff.mpr fun e he hs => by
    obtain ⟨wallet, hwallet, hid⟩ := hc.streams e he
    exact hc.ne_of_spelling h wallet hwallet (hid.trans (by simpa using hs))
  rw [Database.hold_of_rehydrate (a := empty walletId) (by rw [hnil]; rfl)]
  rfl

/-- Replayed under an id in another spelling, a wallet's stream leaves neither balance nor holds. -/
lemma Consistent.rehydrate_of_spelling {a : WalletAggregate} (hc : Consistent db)
    (h : uuid walletId ≠ walletId)
    (ha : rehydrate walletId (db.stream (uuid walletId)) = .ok a) :
    a.balanceMinor = 0 ∧ a.holds = ∅ := by
  refine rehydrate_other h.symm (fun e he => ?_) ha
  obtain ⟨hmem, hstream⟩ := List.mem_filter.mp he
  have hposts := hc.postings e hmem
  rwa [show e.streamId = uuid walletId by simpa using hstream] at hposts

/-- Under an id in another spelling no event is recorded: the projection has no wallet. -/
lemma wp_recordEvent_of_spelling {Q : LedgerWorld → List Write → Reply → Prop}
    {E : LedgerWorld → LedgerError → Prop} {wallet : Wallet} {a : WalletAggregate}
    {event : EventData} {draw : Draw} (hinv : (ledgerProtocol setting).inv w)
    (h : uuid walletId ≠ walletId) (ha : rehydrate walletId (w.db.stream wallet.id) = .ok a)
    (hE : ∀ w' e, Later (ledger setting) (ledgerProtocol setting) i [] w w' → E w' e) :
    (recordEvent wallet a event draw).wp (ledger setting) (ledgerProtocol setting) i Q E w [] := by
  refine wp_recordEvent hinv ha (.of_any hE) fun w₁ a' hw₁ hrecords => ?_
  obtain ⟨row, hrow, hid⟩ := (hrecords w₁ (.refl hw₁.inv)).1.exists_wallet
  exact absurd (hid.trans (rehydrate_replayed ha).id) (hw₁.inv.1.ne_of_spelling h row hrow)

end Spellings

/-! ### Transactions of commands -/

/-- Whatever the others do, a commit of `body` by thread `i` has an effect of its command and is
serial, and its reply meets `R`. -/
def Commits (setting : Setting) (i : Nat) (job : Job) (R : Reply → Prop) (body : LedgerTx Reply) :
    Prop :=
  ∀ w, Running setting w i job → ∀ Q E,
    (∀ w' e, Later (ledger setting) (ledgerProtocol setting) i [] w w' → E w' e) →
    (∀ w' q reply, Later (ledger setting) (ledgerProtocol setting) i [] w w' → R reply →
      (∀ w'', Later (ledger setting) (ledgerProtocol setting) i q w' w'' →
        Effect job.draw job.startDb w''.db job.command q ∧ Serial job.command w''.db body q) →
      Q w' q reply) →
    body.wp (ledger setting) (ledgerProtocol setting) i Q E w []

/-- The world after a commit. -/
def LedgerWorld.commit (w : LedgerWorld) (c : LedgerCommit) : LedgerWorld :=
  { w with db := view w.db c.writes, log := w.log ++ [c] }

/-- A transaction of a command. -/
lemma Commits.wp_transaction {R : Reply → Prop} {body : LedgerTx Reply} {β : Type}
    {k : Except LedgerError Reply → LedgerProg β} {Φ : LedgerWorld → Except LedgerError β → Prop}
    (hbody : Commits setting i job R body) (hattempt : job.command.Attempts job.draw body)
    (hrun : Running setting w i job)
    (hok : ∀ w' q reply, Running setting w' i job → R reply →
      Effect job.draw job.startDb w'.db job.command q →
      (k (.ok reply)).wp (ledger setting) (ledgerProtocol setting) i Φ (w'.commit ⟨i, body, q, reply⟩))
    (herr : ∀ w' e, Running setting w' i job →
      (k (.error e)).wp (ledger setting) (ledgerProtocol setting) i Φ w') :
    (Prog.transaction body k).wp (ledger setting) (ledgerProtocol setting) i Φ w := by
  intro w₁ hw₁
  have hrun₁ := hrun.later hw₁
  refine ⟨hbody w₁ hrun₁ _ _ (fun w' e hw' => herr w' e (hrun₁.later hw')) ?_,
    fun e _ => herr w₁ e hrun₁⟩
  intro w₂ q reply hw₂ hR hcommit w₃ hw₃ _
  have hrun₃ := (hrun₁.later hw₂).later hw₃
  obtain ⟨heffect, hserial⟩ := hcommit w₃ hw₃
  exact ⟨⟨job, hrun₃.job_eq, hrun₃.uncommitted, hattempt, heffect, hserial⟩,
    hok w₃ q reply hrun₃ hR heffect⟩

/-- A retry loop. -/
lemma Commits.wp_retrying {R : Reply → Prop} {body : Nat → LedgerTx Reply}
    {again : LedgerError → Bool} {unreachable : String}
    {Φ : LedgerWorld → Except LedgerError Reply → Prop}
    (hbody : ∀ n, Commits setting i job R (body n))
    (hattempt : ∀ n, job.command.Attempts job.draw (body n)) (hrun : Running setting w i job)
    (hok : ∀ w' q n reply, Running setting w' i job → R reply →
      Effect job.draw job.startDb w'.db job.command q →
      Φ (w'.commit ⟨i, body n, q, reply⟩) (.ok reply))
    (herr : ∀ w' e, Running setting w' i job → Φ w' (.error e)) (attempt left : Nat) :
    (retrying again unreachable body attempt left).wp (ledger setting) (ledgerProtocol setting) i Φ
      w := by
  induction left generalizing w attempt with
  | zero => exact herr w _ hrun
  | succ left ih =>
    refine (hbody attempt).wp_transaction (hattempt attempt) hrun
      (fun w' q reply hrun' hR heffect => ?_) fun w' e hrun' => ?_
    · exact hok w' q attempt reply hrun' hR heffect
    · dsimp only
      split_ifs
      · exact ih hrun' _
      · exact herr w' e hrun'

/-! ### Commands of one wallet -/

/-- The statements with which the wallet commands begin. -/
def loadWallet (walletId ownerId : String) (f : Wallet → WalletAggregate → LedgerTx Reply) :
    LedgerTx Reply :=
  (findOrThrow (.notFound "Гаманець не знайдено") fun db => db.walletOf walletId ownerId).bind
    fun wallet => (rehydrateStream walletId (uuid walletId)).bind fun a =>
      (Tx.ofExcept (assertAggregateIdentity wallet a)).bind fun _ => f wallet a

lemma walletOf_some {db : Database} {walletId ownerId : String} {wallet : Wallet}
    (h : db.walletOf walletId ownerId = some wallet) :
    wallet ∈ db.wallets ∧ wallet.id = uuid walletId ∧ wallet.ownerId = ownerId :=
  ⟨List.mem_of_find?_eq_some h, by simpa using List.find?_some h⟩

lemma find?_wallets_grows {db db' : Database} {locked : List Lock} {f : Wallet → Bool}
    {wallet : Wallet} (hg : db.Grows locked db') (h : db.wallets.find? f = some wallet) :
    db'.wallets.find? f = some wallet := by
  obtain ⟨more, hmore, -⟩ := hg.wallets
  rw [hmore, List.find?_append, h, Option.some_or]

lemma alone_loadWallet {db : Database} {walletId ownerId : String} {wallet : Wallet}
    {a : WalletAggregate} {f : Wallet → WalletAggregate → LedgerTx Reply} (hgap : GapFree db)
    (hwallet : db.walletOf walletId ownerId = some wallet)
    (ha : rehydrate walletId (db.stream (uuid walletId)) = .ok a)
    (hid : assertAggregateIdentity wallet a = .ok ()) :
    (loadWallet walletId ownerId f).alone db [] = (f wallet a).alone db [] := by
  refine Tx.alone_bind_ok (alone_findOrThrow (p := []) hwallet) ?_
  refine Tx.alone_bind_ok (alone_rehydrateStream (p := []) hgap ha) ?_
  rw [hid]
  rfl

/-- Loading a wallet alone fails when the owner has no such wallet. -/
lemma alone_loadWallet_missing {db : Database} {walletId ownerId : String}
    {f : Wallet → WalletAggregate → LedgerTx Reply} (h : db.walletOf walletId ownerId = none) :
    (loadWallet walletId ownerId f).alone db [] = .error (.notFound "Гаманець не знайдено") := by
  simp [loadWallet, findOrThrow, Tx.alone_bind, h, Except.bind, Tx.alone]

/-- Loading a wallet alone fails when its stream cannot be replayed. -/
lemma alone_loadWallet_unreplayed {db : Database} {walletId ownerId : String} {wallet : Wallet}
    {f : Wallet → WalletAggregate → LedgerTx Reply} {message : String} (hgap : GapFree db)
    (hwallet : db.walletOf walletId ownerId = some wallet)
    (h : rehydrate walletId (db.stream (uuid walletId)) = .error message) :
    (loadWallet walletId ownerId f).alone db [] = .error (.error message) := by
  refine Tx.alone_bind_ok (alone_findOrThrow (p := []) hwallet) ?_
  simp [rehydrateStream, Tx.alone_bind, hgap.loadStream, h, Except.bind, Except.mapError, Tx.alone]

/-- Loading a wallet alone fails when the stream tells of another owner or currency. -/
lemma alone_loadWallet_foreign {db : Database} {walletId ownerId : String} {wallet : Wallet}
    {a : WalletAggregate} {f : Wallet → WalletAggregate → LedgerTx Reply} {e : LedgerError}
    (hgap : GapFree db) (hwallet : db.walletOf walletId ownerId = some wallet)
    (ha : rehydrate walletId (db.stream (uuid walletId)) = .ok a)
    (h : assertAggregateIdentity wallet a = .error e) :
    (loadWallet walletId ownerId f).alone db [] = .error e := by
  refine Tx.alone_bind_ok (alone_findOrThrow (p := []) hwallet) ?_
  refine Tx.alone_bind_ok (alone_rehydrateStream (p := []) hgap ha) ?_
  rw [h]
  rfl

/-- Loading a wallet succeeds, or fails as it would alone. -/
lemma wp_loadWallet {Q : LedgerWorld → List Write → Reply → Prop}
    {E : LedgerWorld → LedgerError → Prop} {walletId ownerId : String}
    {f : Wallet → WalletAggregate → LedgerTx Reply}
    (hE : ∀ w' e, Later (ledger setting) (ledgerProtocol setting) i [] w w' → isConflict e = false →
      (loadWallet walletId ownerId f).alone w'.db [] = .error e → E w' e)
    (hf : ∀ w' wallet a, Later (ledger setting) (ledgerProtocol setting) i [] w w' →
      w'.db.walletOf walletId ownerId = some wallet →
      rehydrate walletId (w'.db.stream (uuid walletId)) = .ok a →
      assertAggregateIdentity wallet a = .ok () →
      (f wallet a).wp (ledger setting) (ledgerProtocol setting) i Q E w' []) :
    (loadWallet walletId ownerId f).wp (ledger setting) (ledgerProtocol setting) i Q E w [] := by
  unfold loadWallet
  rw [Tx.wp_bind]
  refine wp_findOrThrow (fun w₁ hw₁ hnone => hE w₁ _ hw₁ rfl (alone_loadWallet_missing hnone))
    fun w₁ wallet hw₁ hwallet => ?_
  rw [Tx.wp_bind]
  have hfound : ∀ {w' : LedgerWorld}, Later (ledger setting) (ledgerProtocol setting) i [] w₁ w' →
      w'.db.walletOf walletId ownerId = some wallet :=
    fun hw' => find?_wallets_grows (ledger_appends.grows hw') hwallet
  refine wp_rehydrateStream (ledger_appends.gapFree _ hw₁.inv)
    (fun w₂ message hw₂ herror => ?_) fun w₂ a hw₂ ha => ?_
  · exact hE w₂ _ (hw₁.trans hw₂) rfl
      (alone_loadWallet_unreplayed hw₂.inv.1.gapFree (hfound hw₂) herror)
  rw [Tx.wp_bind, Tx.wp_ofExcept]
  refine ⟨fun e he => ?_, fun _ hid => hf w₂ wallet a (hw₁.trans hw₂) (hfound hw₂) ha hid⟩
  refine hE w₂ e (hw₁.trans hw₂) ?_
    (alone_loadWallet_foreign hw₂.inv.1.gapFree (hfound hw₂) ha he)
  unfold assertAggregateIdentity at he
  split_ifs at he
  exact Except.error.inj he ▸ rfl

/-- A command that loads its wallet and records an event on it. -/
lemma wp_load_recordEvent {Q : LedgerWorld → List Write → Reply → Prop}
    {E : LedgerWorld → LedgerError → Prop} {body : LedgerTx Reply} {wallet : Wallet}
    {a : WalletAggregate} {event : EventData} {draw : Draw} {R : Reply → Prop}
    (hinv : (ledgerProtocol setting).inv w)
    (hwallet : w.db.walletOf wallet.id wallet.ownerId = some wallet)
    (ha : rehydrate wallet.id (w.db.stream wallet.id) = .ok a)
    (hid : assertAggregateIdentity wallet a = .ok ())
    (hdecides : Decides (job.draw 0) wallet.id wallet.ownerId a event job.command)
    (hbody : ∀ db : Database, GapFree db → db.walletOf wallet.id wallet.ownerId = some wallet →
      rehydrate wallet.id (db.stream wallet.id) = .ok a →
      body.alone db [] = (recordEvent wallet a event draw).alone db [])
    (hR : ∀ view, R (.wallet view))
    (hE : ∀ w' e, Later (ledger setting) (ledgerProtocol setting) i [] w w' → E w' e)
    (hQ : ∀ w' q reply, Later (ledger setting) (ledgerProtocol setting) i [] w w' → R reply →
      (∀ w'', Later (ledger setting) (ledgerProtocol setting) i q w' w'' →
        Effect job.draw job.startDb w''.db job.command q ∧ Serial job.command w''.db body q) →
      Q w' q reply) :
    (recordEvent wallet a event draw).wp (ledger setting) (ledgerProtocol setting) i Q E w [] := by
  refine wp_recordEvent hinv ha (.of_any hE) fun w₁ a' hw₁ hrecords => ?_
  refine hQ w₁ _ _ hw₁ (hR _) fun w₂ hw₂ => ?_
  obtain ⟨hrecord, hstream⟩ := hrecords w₂ hw₂
  have hwallet₂ : w₂.db.walletOf wallet.id wallet.ownerId = some wallet :=
    find?_wallets_grows (ledger_appends.grows (hw₁.trans hw₂.nil)) hwallet
  have ha₂ : rehydrate wallet.id (w₂.db.stream wallet.id) = .ok a := hstream ▸ ha
  refine ⟨.recorded hdecides (hrecord.recorded (walletOf_some hwallet₂).1 ha₂ hid),
    .inr ⟨_, (hbody w₂.db hw₂.inv.1.gapFree hwallet₂ ha₂).trans hrecord.alone⟩⟩

/-- Attempts of deposits and withdrawals. -/
lemma commits_money {walletId ownerId : String} {amount : ℚ} {n : Int} {operation : MoneyOperation}
    (hcommand : job.command = match operation with
      | .deposit => .deposit walletId ownerId amount
      | .withdraw => .withdraw walletId ownerId amount)
    (hn : toMinorUnits "Сума повинна бути додатною" amount = .ok n) (draw : Draw) :
    Commits setting i job (fun _ => True)
      (executeMoneyCommandAttempt walletId ownerId n operation (job.draw 0).eventId
        (job.draw 0).transactionId draw) := by
  intro w hrun Q E hE hQ
  change (loadWallet walletId ownerId fun wallet a =>
    (Tx.ofExcept (decideMoney operation a n (job.draw 0).eventId
      (job.draw 0).transactionId)).bind fun event => recordEvent wallet a event draw).wp _ _ _ _ _ _ _
  refine wp_loadWallet (fun w₁ e hw₁ _ _ => hE w₁ e hw₁) fun w₁ wallet a hw₁ hwallet ha hid => ?_
  obtain ⟨-, hwallet_id, rfl⟩ := walletOf_some hwallet
  rw [Tx.wp_bind, Tx.wp_ofExcept]
  refine ⟨fun e _ => hE _ _ hw₁, fun event hevent => ?_⟩
  by_cases hspelled : uuid walletId = walletId
  swap
  · exact wp_recordEvent_of_spelling hw₁.inv hspelled (hwallet_id ▸ ha)
      fun w' e hw' => hE _ _ (hw₁.trans hw')
  obtain rfl : wallet.id = walletId := hwallet_id.trans hspelled
  rw [hspelled] at ha
  have hdecides : Decides (job.draw 0) wallet.id wallet.ownerId a event job.command := by
    rw [hcommand]
    cases operation with
    | deposit => exact .deposit hn (except_mapError_ok.mp hevent)
    | withdraw => exact .withdraw hn (except_mapError_ok.mp hevent)
  refine wp_load_recordEvent (R := fun _ => True) hw₁.inv hwallet ha hid hdecides
    (fun db hgap hwallet' ha' => ?_) (fun _ => trivial) (fun w' e hw' => hE _ _ (hw₁.trans hw'))
    fun w' q reply hw' hR hcommit => hQ w' q reply (hw₁.trans hw') hR hcommit
  refine (alone_loadWallet hgap hwallet' (by rw [hspelled]; exact ha') hid).trans ?_
  rw [hevent]
  rfl

lemma Command.RunsHold.releases {walletId ownerId holdId : String} {command : Command}
    {amountMinor : Option Int} {allow : Bool}
    (h : command.RunsHold walletId ownerId holdId .release amountMinor allow) :
    command.Releases walletId ownerId holdId allow := by
  cases h
  assumption

lemma Command.Releases.transfer {walletId ownerId holdId : String} {command : Command}
    (h : command.Releases walletId ownerId holdId true) :
    ∃ transferId dto, command = .releaseTransferHold transferId dto := by
  cases h
  exact ⟨_, _, rfl⟩

/-- The states of a hold in which a hold command has nothing left to do. -/
def HoldOperation.IsDone (operation : HoldOperation) (amountMinor : Option Int)
    (allowMissingRelease : Bool) : Option HoldState → Prop
  | none => operation = .release ∧ allowMissingRelease = true
  | some hold =>
    match operation with
    | .place => 0 < hold.amountMinor ∧ amountMinor = some hold.amountMinor
    | .release => hold.status = .released
    | .consume => hold.status = .consumed

/-- A hold command decides on no event exactly when it has nothing left to do. -/
lemma decideHold_none {operation : HoldOperation} {amountMinor : Option Int}
    {allowMissingRelease : Bool} {a : WalletAggregate} {holdId eventId transactionId : String} :
    decideHold operation amountMinor allowMissingRelease a holdId eventId transactionId = .ok none ↔
      operation.IsDone amountMinor allowMissingRelease (a.holds.lookup holdId) := by
  simp only [decideHold]
  rw [except_mapError_ok]
  cases operation with
  | place =>
    cases amountMinor with
    | none =>
      cases h : a.holds.lookup holdId <;> simp [HoldOperation.IsDone]
    | some n =>
      cases h : a.holds.lookup holdId with
      | none =>
        simp only [WalletAggregate.placeHold, h, HoldOperation.IsDone]
        split_ifs <;> simp
      | some hold =>
        simp only [WalletAggregate.placeHold, h, HoldOperation.IsDone, Option.some.injEq]
        split_ifs <;> simp_all <;> omega
  | release =>
    have hmem : holdId ∈ a.holds ↔ (a.holds.lookup holdId).isSome := AList.lookup_isSome.symm
    cases h : a.holds.lookup holdId with
    | none =>
      have hnot : holdId ∉ a.holds := by simp [hmem, h]
      cases allowMissingRelease <;>
        simp [HoldOperation.IsDone, hnot, WalletAggregate.releaseHold, h]
    | some hold =>
      have hin : holdId ∈ a.holds := by simp [hmem, h]
      obtain ⟨n, _ | _ | _⟩ := hold <;>
        simp [HoldOperation.IsDone, hin, WalletAggregate.releaseHold, h]
  | consume =>
    cases h : a.holds.lookup holdId with
    | none => simp [HoldOperation.IsDone, WalletAggregate.consumeHold, h]
    | some hold =>
      obtain ⟨n, _ | _ | _⟩ := hold
      · simp only [WalletAggregate.consumeHold, h, HoldOperation.IsDone, createLedgerTransaction_eq]
        split_ifs <;> simp [bind, Except.bind, pure, Except.pure]
      · simp [WalletAggregate.consumeHold, h, HoldOperation.IsDone]
      · simp [WalletAggregate.consumeHold, h, HoldOperation.IsDone]

/-- A hold command that has nothing left to do is done, on this hold, for good. -/
lemma HoldOperation.IsDone.grows {operation : HoldOperation} {amountMinor : Option Int}
    {allow : Bool} {db db' : Database} {locked : List Lock} {walletId holdId : String}
    (h : operation.IsDone amountMinor allow (db.hold walletId holdId)) (hc : Consistent db)
    (hc' : Consistent db') (hg : db.Grows locked db') :
    operation.IsDone amountMinor allow (db'.hold walletId holdId) ∨
      (operation = .release ∧ allow = true ∧ db.hold walletId holdId = none) := by
  cases hd : db.hold walletId holdId with
  | none =>
    rw [hd] at h
    exact .inr ⟨h.1, h.2, rfl⟩
  | some hold =>
    obtain ⟨hold', hhold', hamount, hclosed⟩ := hc.hold_grows hc' hg hd
    rw [hd] at h
    rw [hhold']
    refine .inl ?_
    cases operation with
    | place => exact ⟨by rw [hamount]; exact h.1, by rw [hamount]; exact h.2⟩
    | release =>
      have : hold.status = .released := h
      rw [hclosed (by simp [this])]
      exact this
    | consume =>
      have : hold.status = .consumed := h
      rw [hclosed (by simp [this])]
      exact this

/-- The event that a hold command decides on. -/
lemma Command.RunsHold.decides {walletId ownerId holdId : String} {command : Command}
    {operation : HoldOperation} {amountMinor : Option Int} {allow : Bool} {draw : Draw}
    {a : WalletAggregate} {event : EventData}
    (h : command.RunsHold walletId ownerId holdId operation amountMinor allow)
    (hevent : decideHold operation amountMinor allow a holdId draw.eventId draw.transactionId =
      .ok (some event)) : Decides draw walletId ownerId a event command := by
  have hdecided := except_mapError_ok.mp hevent
  cases h with
  | place hplaces hn => exact .place hplaces hn hdecided
  | release hreleases =>
    dsimp only at hdecided
    split_ifs at hdecided
    · cases hdecided
    · exact .release hreleases hdecided
  | consume => exact .consume hdecided

/-- A hold command with nothing left to do is done. -/
lemma Command.RunsHold.done {walletId ownerId holdId : String} {command : Command}
    {operation : HoldOperation} {amountMinor : Option Int} {allow : Bool} {startDb db : Database}
    (h : command.RunsHold walletId ownerId holdId operation amountMinor allow)
    (hdone : operation.IsDone amountMinor allow (db.hold walletId holdId))
    (hstart : db.hold walletId holdId = none → startDb.hold walletId holdId = none) :
    Done startDb db command := by
  cases hd : db.hold walletId holdId with
  | none =>
    rw [hd] at hdone
    obtain ⟨rfl, rfl⟩ := hdone
    cases h with
    | release hreleases => exact .released hreleases (.inr ⟨rfl, hstart hd⟩)
  | some hold =>
    rw [hd] at hdone
    obtain ⟨n, status⟩ := hold
    cases h with
    | place hplaces hn =>
      obtain ⟨-, hn'⟩ := hdone
      obtain rfl := Option.some.inj hn'
      exact .placed hplaces hd hn
    | release hreleases =>
      obtain rfl : status = .released := hdone
      exact .released hreleases (.inl ⟨n, hd⟩)
    | consume =>
      obtain rfl : status = .consumed := hdone
      exact .consumed hd

/-- The identity of a wallet in consistent tables. -/
lemma Consistent.identity {db : Database} (h : Consistent db) {wallet : Wallet}
    (hmem : wallet ∈ db.wallets) {a : WalletAggregate}
    (ha : rehydrate wallet.id (db.stream wallet.id) = .ok a) :
    assertAggregateIdentity wallet a = .ok () := by
  obtain ⟨b, hb, ho, hcur, -⟩ := h.aggregate wallet hmem
  rw [ha] at hb
  cases hb
  simp [assertAggregateIdentity, ho, hcur]

/-- A hold command loads its wallet, decides, and records its event if there is one. -/
lemma executeHoldCommandAttempt_eq (walletId ownerId holdId : String) (operation : HoldOperation)
    (amountMinor : Option Int) (allow : Bool) (eventId transactionId : String) (draw : Draw) :
    executeHoldCommandAttempt walletId ownerId holdId operation amountMinor allow eventId
      transactionId draw =
    loadWallet walletId ownerId fun wallet a =>
      (Tx.ofExcept (decideHold operation amountMinor allow a holdId eventId transactionId)).bind
        fun decided =>
          match decided with
          | none => .ret (.wallet (toView wallet (projectionFromAggregate a)))
          | some event => (appendEvent (uuid walletId) a.version event draw.now).bind fun stored =>
              (enqueueWalletEvents wallet draw.carrier [stored]).bind fun _ =>
                (projectApplied a stored).bind fun projection =>
                  .ret (.wallet (toView wallet projection)) :=
  rfl

/-- Attempts of hold commands. -/
lemma commits_hold {walletId ownerId holdId : String} {operation : HoldOperation}
    {amountMinor : Option Int} {allow : Bool}
    (hruns : job.command.RunsHold walletId ownerId holdId operation amountMinor allow)
    (draw : Draw) :
    Commits setting i job (fun _ => True)
      (executeHoldCommandAttempt walletId ownerId holdId operation amountMinor allow
        (job.draw 0).eventId (job.draw 0).transactionId draw) := by
  intro w hrun Q E hE hQ
  rw [executeHoldCommandAttempt_eq] at hQ ⊢
  refine wp_loadWallet (fun w₁ e hw₁ _ _ => hE w₁ e hw₁) fun w₁ wallet a hw₁ hwallet ha hid => ?_
  have hrun₁ := hrun.later hw₁
  obtain ⟨hmem, hwallet_id, rfl⟩ := walletOf_some hwallet
  rw [Tx.wp_bind, Tx.wp_ofExcept]
  refine ⟨fun e _ => hE _ _ hw₁, fun decided hdecided => ?_⟩
  by_cases hspelled : uuid walletId = walletId
  swap
  · cases decided with
    | some event =>
      rw [← hwallet_id] at ha ⊢
      exact wp_recordEvent_of_spelling hw₁.inv hspelled ha fun w' e hw' => hE _ _ (hw₁.trans hw')
    | none =>
      -- without a hold, only the release of a transfer has nothing to do
      have hdone := decideHold_none.mp hdecided
      rw [(hrun₁.consistent.rehydrate_of_spelling hspelled ha).2] at hdone
      obtain ⟨rfl, rfl⟩ : operation = .release ∧ allow = true := hdone
      refine hQ w₁ [] _ hw₁ trivial fun w₂ _ => ?_
      have hstart : job.startDb.hold walletId holdId = none :=
        hrun.start_consistent.hold_of_spelling hspelled
      exact ⟨.noop (.released hruns.releases (.inr ⟨rfl, hstart⟩)),
        .inl ⟨rfl, hruns.releases.transfer⟩⟩
  obtain rfl : wallet.id = walletId := hwallet_id.trans hspelled
  rw [hspelled] at ha
  cases decided with
  | some event =>
    dsimp only
    rw [hspelled]
    refine wp_load_recordEvent (R := fun _ => True) hw₁.inv hwallet ha hid (hruns.decides hdecided)
      (fun db hgap hwallet' ha' => ?_) (fun _ => trivial)
      (fun w' e hw' => hE _ _ (hw₁.trans hw'))
      fun w' q reply hw' hR hcommit => hQ w' q reply (hw₁.trans hw') hR hcommit
    refine (alone_loadWallet hgap hwallet' (by rw [hspelled]; exact ha') hid).trans ?_
    rw [hdecided]
    simp only [hspelled]
    rfl
  | none =>
    have hdone : operation.IsDone amountMinor allow (w₁.db.hold wallet.id holdId) := by
      rw [Database.hold_of_rehydrate ha]
      exact decideHold_none.mp hdecided
    refine hQ w₁ [] _ hw₁ trivial fun w₂ hw₂ => ?_
    have hrun₂ := hrun₁.later hw₂
    have hg := ledger_appends.grows hw₂
    have hgap : GapFree w₂.db := hrun₂.consistent.gapFree
    rcases hdone.grows hrun₁.consistent hrun₂.consistent hg with hdone₂ | ⟨rfl, rfl, hmissing⟩
    · -- the hold still is in a state in which there is nothing to do
      obtain ⟨a₂, ha₂⟩ := hrun₂.consistent.rehydrate_ok wallet.id
      have hwallet₂ : w₂.db.walletOf wallet.id wallet.ownerId = some wallet :=
        find?_wallets_grows hg hwallet
      have hid₂ := hrun₂.consistent.identity (walletOf_some hwallet₂).1 ha₂
      refine ⟨.noop (hruns.done hdone₂ fun hnone => ?_),
        .inr ⟨.wallet (toView wallet (projectionFromAggregate a₂)), ?_⟩⟩
      · exact hrun₂.start_consistent.hold_none hrun₂.consistent hrun₂.start_grows hnone
      · refine (alone_loadWallet hgap hwallet₂ (by rw [hspelled]; exact ha₂) hid₂).trans ?_
        rw [Database.hold_of_rehydrate ha₂] at hdone₂
        rw [decideHold_none.mpr hdone₂]
        rfl
    · have hstart : job.startDb.hold wallet.id holdId = none :=
        hrun₁.start_consistent.hold_none hrun₁.consistent hrun₁.start_grows hmissing
      exact ⟨.noop (.released hruns.releases (.inr ⟨rfl, hstart⟩)),
        .inl ⟨rfl, hruns.releases.transfer⟩⟩

end Ledger

end PeerLedger
