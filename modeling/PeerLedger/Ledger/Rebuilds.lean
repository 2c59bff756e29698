import PeerLedger.Transactions.Snapshot
import PeerLedger.Ledger.WalletReconciliation

/-!
# Rebuilding projections

`rebuildBalanceProjection` of the wallet service and `rebuildAllBalanceProjections` of the maintenance
service replay streams and write the projection rows without appending anything, so that the version
check of the event store does not protect them.  The first runs at READ COMMITTED, the second at
SERIALIZABLE.

`maintained` is the ledger with rebuilds.  `Simulates` removes the rebuilds from a run: what is left is
a run of the ledger with the same tables.
-/

namespace PeerLedger

namespace Ledger

open Transactions WalletAggregate

/-! ### The rebuilds -/

/-- What a rebuild does with the stream that it has read. -/
def projectHistory (walletId : String) (wallet : Wallet) (history : List StoredEvent) :
    LedgerTx Reply := do
  let aggregate ← Tx.ofExcept ((WalletAggregate.rehydrate walletId history).mapError .error)
  Tx.ofExcept (assertAggregateIdentity wallet aggregate)
  let projection ← project aggregate
  return .projection projection

def rebuildBalanceProjection (walletId : String) : LedgerTx Reply := do
  let wallet ← findOrThrow (.notFound "Гаманець не знайдено") fun db => db.walletById walletId
  let history ← Tx.query fun db => db.loadStream walletId
  projectHistory walletId wallet history

/-- The row that the maintenance service writes for a replayed wallet. -/
def rebuiltRow (wallet : Wallet) (a : WalletAggregate) : WalletBalanceProjection :=
  { walletId := wallet.id, balanceMinor := a.balanceMinor, heldMinor := a.heldMinor,
    availableMinor := a.availableMinor, streamVersion := a.version }

/-- The loop of the maintenance service. -/
def rebuildWallets : List Wallet → LedgerTx Unit
  | [] => .ret ()
  | wallet :: wallets => do
    let aggregate ← rehydrateStream wallet.id
    Tx.ofExcept (assertWalletIdentity wallet aggregate)
    Tx.write (saveProjection (rebuiltRow wallet aggregate))
    rebuildWallets wallets

/-- The wallets in the order of their ids. -/
def Database.walletsById (db : Database) : List Wallet :=
  db.wallets.insertionSort fun wallet wallet' => wallet.id ≤ wallet'.id

/-- The body of the transaction of `rebuildAllBalanceProjections`. -/
def rebuildAll : LedgerTx Reply := do
  let wallets ← Tx.query fun db => db.walletsById
  rebuildWallets wallets
  return .rebuilt wallets.length

/-- A row that is written has been changed since the snapshot. -/
def changedSince (seen now : Database) (ws : List Write) : Bool :=
  ws.any fun
    | .saveProjection row => seen.projectionOf row.walletId ≠ now.projectionOf row.walletId
    | _ => false

def rebuildAllBalanceProjections : LedgerTx Reply :=
  Tx.serializable changedSince (.queryFailed "40001") rebuildAll

/-- The programs of the rebuilds. -/
inductive IsRebuild : LedgerProg Reply → Prop
  | one (walletId : String) : IsRebuild (Prog.run (rebuildBalanceProjection walletId))
  | all : IsRebuild (Prog.run rebuildAllBalanceProjections)

/-- The ledger with rebuilds. -/
def maintained (setting : Setting) :
    Service Nat LedgerWorld Database Write LedgerError Reply Empty Empty Unit Reply :=
  { ledger setting with
    admits := fun _ _ _ => True
    starts := fun w i program w' =>
      (ledger setting).starts w i program w' ∨ (IsRebuild program ∧ w' = w) }

/-- Every projection row is that of the replayed stream. -/
def Projected (db : Database) : Prop :=
  ∀ row ∈ db.projections, ∃ a, rehydrate row.walletId (db.stream row.walletId) = .ok a ∧
    row = projectionFromAggregate a

/-- In this step no event is committed to a wallet for which `rebuildBalanceProjection` has read the
stream and has not yet written the row. -/
def Undisturbed (s s' : LedgerSys) : Prop :=
  ∀ i walletId wallet history pending k,
    s.threads i = .inTx (rebuildBalanceProjection walletId)
      (projectHistory walletId wallet history) pending k →
    s'.world.db.stream walletId = s.world.db.stream walletId

/-- A step of the ledger with rebuilds that disturbs no rebuild. -/
def UndisturbedStep (setting : Setting) (s s' : LedgerSys) : Prop :=
  Step (maintained setting) s s' ∧ Undisturbed s s'

/-! ### A rebuild by itself -/

section Alone

variable {db : Database}

/-- Saved rows leave the streams alone. -/
lemma loadStream_saves {p : List Write} (hp : ∀ x ∈ p, ∃ row, x = .saveProjection row)
    (walletId : String) : (view db p).loadStream walletId = db.loadStream walletId := by
  have hnone : insertedEvents p = [] := by
    refine List.filterMap_eq_nil_iff.mpr fun x hx => ?_
    obtain ⟨row, rfl⟩ := hp x hx
    rfl
  simp [Database.loadStream, Database.stream, hnone]

/-- Saving a row changes the row of its wallet and no other. -/
lemma find?_saveRow (row : WalletBalanceProjection) (rows : List WalletBalanceProjection)
    (walletId : String) :
    (saveRow row rows).find? (fun other => other.walletId = walletId) =
      if row.walletId = walletId then some row
      else rows.find? fun other => other.walletId = walletId := by
  unfold saveRow
  by_cases hany : rows.any (fun other => other.walletId = row.walletId) = true
  · rw [if_pos hany, List.find?_map]
    have hkey : ((fun other : WalletBalanceProjection => decide (other.walletId = walletId)) ∘
        fun other => if other.walletId = row.walletId then row else other) =
        fun other => decide (other.walletId = walletId) := by
      funext other
      by_cases h : other.walletId = row.walletId <;> simp [h]
    rw [hkey]
    split_ifs with hrow
    · subst hrow
      obtain ⟨other, hother⟩ : ∃ other, rows.find? (fun other => other.walletId = row.walletId) =
          some other := Option.isSome_iff_exists.mp (by simpa [List.find?_isSome] using hany)
      rw [hother, Option.map_some, if_pos (by simpa using List.find?_some hother)]
    · cases hfind : rows.find? (fun other => other.walletId = walletId) with
      | none => rfl
      | some other =>
        have hid : other.walletId = walletId := by simpa using List.find?_some hfind
        rw [Option.map_some, if_neg (by rw [hid]; exact Ne.symm hrow)]
  · rw [if_neg hany, List.find?_append]
    split_ifs with hrow
    · subst hrow
      have hnone : rows.find? (fun other => other.walletId = row.walletId) = none :=
        List.find?_eq_none.mpr fun other hother hkey =>
          hany (List.any_eq_true.mpr ⟨other, hother, hkey⟩)
      simp [hnone]
    · simp [hrow]

/-- The row of a wallet that pending writes do not save is what it was. -/
lemma projectionOf_view {db : Database} {walletId : String} {p : List Write}
    (hp : ∀ row, .saveProjection row ∈ p → row.walletId ≠ walletId) :
    (view db p).projectionOf walletId = db.projectionOf walletId := by
  induction p generalizing db with
  | nil => rfl
  | cons x p ih =>
    rw [view_cons, ih fun row hrow => hp row (List.mem_cons_of_mem _ hrow)]
    cases x with
    | saveProjection row =>
      exact (find?_saveRow row db.projections walletId).trans
        (if_neg (hp row List.mem_cons_self))
    | _ => rfl

/-- The row of a wallet after pending writes that save one row for it. -/
lemma projectionOf_view_saved {db : Database} {row : WalletBalanceProjection} {p : List Write}
    (hmem : .saveProjection row ∈ p)
    (hp : ∀ row', .saveProjection row' ∈ p → row'.walletId = row.walletId → row' = row) :
    (view db p).projectionOf row.walletId = some row := by
  induction p using List.reverseRecOn with
  | nil => cases hmem
  | append_singleton p x ih =>
    rw [view_append]
    by_cases hx : ∃ row', x = .saveProjection row' ∧ row'.walletId = row.walletId
    · obtain ⟨row', rfl, hid⟩ := hx
      obtain rfl := hp row' (by simp) hid
      exact (find?_saveRow row' _ _).trans (if_pos rfl)
    · have hrest : .saveProjection row ∈ p := by
        rcases List.mem_append.mp hmem with h | h
        · exact h
        · exact absurd ⟨row, (List.mem_singleton.mp h).symm, rfl⟩ hx
      rw [projectionOf_view fun row' hrow' hid => hx ⟨row', (List.mem_singleton.mp hrow').symm, hid⟩]
      exact ih hrest fun row' hrow' => hp row' (List.mem_append_left _ hrow')

/-- A row that is saved alone. -/
lemma alone_saveProjection {row : WalletBalanceProjection} {p q : List Write}
    (h : (Tx.write (saveProjection row)).alone db p = .ok ((), q)) :
    q = p ++ [.saveProjection row] := by
  rw [Tx.alone_write] at h
  cases hsave : saveProjection row (view db p) with
  | error e =>
    rw [hsave] at h
    cases h
  | ok ws =>
    rw [hsave] at h
    obtain ⟨rfl, -⟩ := saveProjection_ok.mp hsave
    cases h
    rfl

/-- A wallet that is replayed alone. -/
lemma alone_rehydrateStream_eq_ok {walletId : String} {a : WalletAggregate} {p q : List Write}
    (h : (rehydrateStream walletId).alone db p = .ok (a, q)) :
    rehydrate walletId ((view db p).loadStream walletId) = .ok a ∧ q = p := by
  obtain ⟨history, p', hquery, hrest⟩ := Tx.alone_bind_eq_ok h
  rw [Tx.alone_query] at hquery
  cases hquery
  obtain ⟨hreplay, rfl⟩ := Tx.alone_ofExcept_eq_ok hrest
  exact ⟨except_mapError_ok.mp hreplay, rfl⟩

/-- What is done alone with the stream that was read. -/
lemma alone_projectHistory {walletId : String} {wallet : Wallet} {history : List StoredEvent}
    {p ws : List Write} {reply : Reply}
    (h : (projectHistory walletId wallet history).alone db p = .ok (reply, ws)) :
    ∃ a, rehydrate walletId history = .ok a ∧
      ws = p ++ [.saveProjection (projectionFromAggregate a)] := by
  obtain ⟨a, p₁, hreplay, hrest⟩ := Tx.alone_bind_eq_ok h
  obtain ⟨ha, rfl⟩ := Tx.alone_ofExcept_eq_ok hreplay
  obtain ⟨⟨⟩, p₂, hid, hwrite⟩ := Tx.alone_bind_eq_ok hrest
  obtain ⟨-, rfl⟩ := Tx.alone_ofExcept_eq_ok hid
  obtain ⟨row, p₃, hproject, hret⟩ := Tx.alone_bind_eq_ok hwrite
  obtain ⟨⟨⟩, p₄, hsave, hrow⟩ := Tx.alone_bind_eq_ok hproject
  cases hrow
  cases hret
  exact ⟨a, except_mapError_ok.mp ha, alone_saveProjection hsave⟩

/-- A rebuild of one wallet, alone, makes its row that of the replayed stream. -/
lemma alone_rebuildBalanceProjection {walletId : String} {reply : Reply} {ws : List Write}
    (h : (rebuildBalanceProjection walletId).alone db [] = .ok (reply, ws)) :
    ∃ a, rehydrate walletId (db.loadStream walletId) = .ok a ∧
      (view db ws).projectionOf walletId = some (projectionFromAggregate a) := by
  obtain ⟨wallet, p, hfind, h⟩ := Tx.alone_bind_eq_ok h
  have hp : p = [] := by
    obtain ⟨found, p', hquery, hfound⟩ := Tx.alone_bind_eq_ok hfind
    rw [Tx.alone_query] at hquery
    cases hquery
    cases hw : (view db ([] : List Write)).walletById walletId with
    | none =>
      rw [hw] at hfound
      cases hfound
    | some found =>
      rw [hw] at hfound
      cases hfound
      rfl
  subst hp
  obtain ⟨history, p, hquery, h⟩ := Tx.alone_bind_eq_ok h
  rw [Tx.alone_query] at hquery
  cases hquery
  obtain ⟨a, ha, rfl⟩ := alone_projectHistory h
  have hid : (projectionFromAggregate a).walletId = walletId := (rehydrate_replayed ha).id
  refine ⟨a, ha, ?_⟩
  rw [← hid]
  exact projectionOf_view_saved (by simp) fun row' hrow' _ => by simpa using hrow'

/-- The row that is saved for a wallet in a rebuild of all of them. -/
def RebuiltAs (db : Database) (wallet : Wallet) (x : Write) : Prop :=
  ∃ a, rehydrate wallet.id (db.loadStream wallet.id) = .ok a ∧
    x = .saveProjection (rebuiltRow wallet a)

/-- The rows that are saved are those of the wallets. -/
structure Rebuilds (db : Database) (wallets : List Wallet) (saves : List Write) : Prop where
  covered : ∀ wallet ∈ wallets, ∃ x ∈ saves, RebuiltAs db wallet x
  saved : ∀ x ∈ saves, ∃ wallet ∈ wallets, RebuiltAs db wallet x

/-- The loop, alone, saves the row of each wallet. -/
lemma alone_rebuildWallets {wallets : List Wallet} {p q : List Write}
    (hp : ∀ x ∈ p, ∃ row, x = .saveProjection row)
    (h : (rebuildWallets wallets).alone db p = .ok ((), q)) :
    ∃ saves, q = p ++ saves ∧ Rebuilds db wallets saves := by
  induction wallets generalizing p with
  | nil =>
    cases h
    exact ⟨[], by simp, by simp, by simp⟩
  | cons wallet wallets ih =>
    obtain ⟨a, p₁, hreplay, hrest⟩ := Tx.alone_bind_eq_ok h
    obtain ⟨ha, rfl⟩ := alone_rehydrateStream_eq_ok hreplay
    rw [loadStream_saves hp] at ha
    obtain ⟨⟨⟩, p₂, hid, hwrite⟩ := Tx.alone_bind_eq_ok hrest
    obtain ⟨-, rfl⟩ := Tx.alone_ofExcept_eq_ok hid
    obtain ⟨⟨⟩, p₃, hsave, hloop⟩ := Tx.alone_bind_eq_ok hwrite
    obtain rfl := alone_saveProjection hsave
    have hp' : ∀ x ∈ p₂ ++ [Write.saveProjection (rebuiltRow wallet a)],
        ∃ row, x = .saveProjection row := by
      intro x hx
      rcases List.mem_append.mp hx with hx | hx
      · exact hp x hx
      · exact ⟨_, List.mem_singleton.mp hx⟩
    have hthis : RebuiltAs db wallet (.saveProjection (rebuiltRow wallet a)) := ⟨a, ha, rfl⟩
    obtain ⟨saves, rfl, hcovered, hsaved⟩ := ih hp' hloop
    refine ⟨.saveProjection (rebuiltRow wallet a) :: saves, by simp, ?_, ?_⟩
    · simpa using ⟨.inl hthis, fun other hother => .inr (hcovered other hother)⟩
    · simpa using ⟨.inl hthis, fun x hx => .inr (hsaved x hx)⟩

lemma changedSince_self (db : Database) (ws : List Write) : changedSince db db ws = false := by
  refine List.any_eq_false.mpr fun x _ => ?_
  cases x <;> simp

/-- The writes of a rebuild of all wallets, alone. -/
lemma alone_rebuildAll {reply : Reply} {ws : List Write}
    (h : rebuildAll.alone db [] = .ok (reply, ws)) : Rebuilds db db.walletsById ws := by
  obtain ⟨wallets, p, hquery, h⟩ := Tx.alone_bind_eq_ok h
  rw [Tx.alone_query] at hquery
  cases hquery
  obtain ⟨⟨⟩, q, hloop, h⟩ := Tx.alone_bind_eq_ok h
  cases h
  obtain ⟨saves, rfl, hsaves⟩ := alone_rebuildWallets (by simp) hloop
  exact hsaves

/-- The row of the maintenance service is the projection of the aggregate. -/
lemma rebuiltRow_eq {wallet : Wallet} {events : List StoredEvent} {a : WalletAggregate}
    (ha : rehydrate wallet.id events = .ok a) : rebuiltRow wallet a = projectionFromAggregate a := by
  simp [rebuiltRow, projectionFromAggregate, (rehydrate_replayed ha).id]

/-- A rebuild of all wallets, alone, makes every row that of the replayed stream. -/
lemma alone_rebuildAllBalanceProjections {reply : Reply} {ws : List Write}
    (h : rebuildAllBalanceProjections.alone db [] = .ok (reply, ws)) {wallet : Wallet}
    (hwallet : wallet ∈ db.wallets) :
    ∃ a, rehydrate wallet.id (db.loadStream wallet.id) = .ok a ∧
      (view db ws).projectionOf wallet.id = some (projectionFromAggregate a) := by
  unfold rebuildAllBalanceProjections at h
  rw [Tx.alone_serializable changedSince_self] at h
  obtain ⟨hcovered, hsaved⟩ := alone_rebuildAll h
  obtain ⟨x, hx, a, ha, rfl⟩ := hcovered wallet ((List.mem_insertionSort _).mpr hwallet)
  refine ⟨a, ha, ?_⟩
  rw [← rebuiltRow_eq ha]
  refine projectionOf_view_saved hx fun row hrow hid => ?_
  obtain ⟨other, -, b, hb, heq⟩ := hsaved _ hrow
  obtain rfl := Write.saveProjection.inj heq
  have hother : other.id = wallet.id := hid
  rw [hother] at hb
  obtain rfl := Except.ok.inj (hb.symm.trans ha)
  simp [rebuiltRow, hother]

end Alone

/-! ### Rebuilds beside the commands -/

/-- The pending writes save rows that are already there. -/
def KeepsRows (db : Database) (p : List Write) : Prop :=
  ∀ x ∈ p, ∃ row, x = .saveProjection row ∧ db.projectionOf row.walletId = some row

/-- The rows that are saved are those of the snapshot, and have not been changed since. -/
def SameRows (snap db : Database) (p : List Write) : Prop :=
  ∀ row, .saveProjection row ∈ p → db.projectionOf row.walletId = snap.projectionOf row.walletId

/-- What is known of a thread that runs a rebuild. -/
inductive Rebuilding (db : Database) :
    Thread Database Write LedgerError Reply Empty Empty Unit Reply → Prop
  | crashed : Rebuilding db .dead
  | fresh {program} : IsRebuild program → Rebuilding db (.run program)
  | ended {r} : Rebuilding db (.run (.done r))
  /-- The wallet has not been read. -/
  | looking {walletId} : Rebuilding db
      (.inTx (rebuildBalanceProjection walletId) (rebuildBalanceProjection walletId) [] .done)
  /-- The stream has not been read. -/
  | reading {walletId wallet} : Rebuilding db (.inTx (rebuildBalanceProjection walletId)
      ((Tx.query fun db => db.loadStream walletId).bind (projectHistory walletId wallet)) [] .done)
  /-- The stream has been read, and has not changed since. -/
  | writing {walletId wallet history} : history = db.loadStream walletId →
      Rebuilding db (.inTx (rebuildBalanceProjection walletId)
        (projectHistory walletId wallet history) [] .done)
  /-- Nothing is left to do but to commit. -/
  | written {body reply p} : KeepsRows db p → Rebuilding db (.inTx body (.ret reply) p .done)
  /-- Nothing is left to do but to roll back. -/
  | failing {body e p} : Rebuilding db (.inTx body (.abort e) p .done)
  /-- The snapshot has not been taken. -/
  | starting {body} : Rebuilding db (.inTx body rebuildAllBalanceProjections [] .done)
  /-- The loop reads the snapshot. -/
  | looping {body snap p} {rest : LedgerTx Reply} : Consistent snap →
      rest.alone snap p = rebuildAll.alone snap [] → SameRows snap db p →
      Rebuilding db (.inTx body (rest.atSnapshot changedSince (.queryFailed "40001") snap p) p .done)

section Tables

variable {db : Database}

/-- Saving a row that is there changes nothing. -/
lemma saveRow_self {row : WalletBalanceProjection} {rows : List WalletBalanceProjection}
    (hnodup : (rows.map (·.walletId)).Nodup)
    (hrow : rows.find? (fun other => other.walletId = row.walletId) = some row) :
    saveRow row rows = rows := by
  have hmem := List.mem_of_find?_eq_some hrow
  unfold saveRow
  rw [if_pos (List.any_eq_true.mpr ⟨row, hmem, by simp⟩)]
  refine (List.map_congr_left fun other hother => ?_).trans (List.map_id rows)
  split_ifs with hid
  · exact List.inj_on_of_nodup_map hnodup hmem hother hid.symm
  · rfl

/-- A commit of rows that are there changes nothing. -/
lemma KeepsRows.view_eq {p : List Write} (h : KeepsRows db p)
    (hnodup : (db.projections.map (·.walletId)).Nodup) : view db p = db := by
  induction p with
  | nil => rfl
  | cons x p ih =>
    obtain ⟨row, rfl, hrow⟩ := h x List.mem_cons_self
    have hself : db.apply (.saveProjection row) = db := by
      simp only [Database.apply, saveRow_self hnodup hrow]
    rw [view_cons]
    change view (db.apply (.saveProjection row)) p = db
    rw [hself]
    exact ih fun x hx => h x (List.mem_cons_of_mem _ hx)

/-- Commits of others leave the rows alone that a transaction has saved. -/
lemma projectionOf_disjoint {p ws : List Write}
    (hdisj : List.Disjoint (locksOf (σ := Database) p) (locksOf (σ := Database) ws))
    {row : WalletBalanceProjection} (hrow : .saveProjection row ∈ p) :
    (view db ws).projectionOf row.walletId = db.projectionOf row.walletId := by
  refine projectionOf_view fun other hother hid => ?_
  have hlock : Lock.projection row.walletId ∈ locksOf (σ := Database) p :=
    List.mem_flatMap.mpr ⟨_, hrow, List.mem_singleton.mpr rfl⟩
  refine hdisj hlock (List.mem_flatMap.mpr ⟨_, hother, ?_⟩)
  exact List.mem_singleton.mpr (congrArg Lock.projection hid.symm)

/-- A commit of another thread keeps what is known of a rebuild, when it does not add to a stream that
the rebuild has read. -/
lemma Rebuilding.commit {t : Thread Database Write LedgerError Reply Empty Empty Unit Reply}
    {ws : List Write} (h : Rebuilding db t)
    (hdisj : List.Disjoint (locksOf (σ := Database) t.pending) (locksOf (σ := Database) ws))
    (hstream : ∀ walletId wallet history p k,
      t = .inTx (rebuildBalanceProjection walletId) (projectHistory walletId wallet history) p k →
      (view db ws).stream walletId = db.stream walletId) : Rebuilding (view db ws) t := by
  cases h with
  | crashed => exact .crashed
  | fresh hprogram => exact .fresh hprogram
  | ended => exact .ended
  | looking => exact .looking
  | reading => exact .reading
  | writing hhistory =>
    refine .writing (hhistory.trans ?_)
    rw [Database.loadStream, Database.loadStream, hstream _ _ _ _ _ rfl]
  | written hkeeps =>
    refine .written fun x hx => ?_
    obtain ⟨row, rfl, hrow⟩ := hkeeps x hx
    exact ⟨row, rfl, (projectionOf_disjoint hdisj hx).trans hrow⟩
  | failing => exact .failing
  | starting => exact .starting
  | looping hsnap halone hsame =>
    refine .looping hsnap halone fun row hrow => ?_
    exact (projectionOf_disjoint hdisj hrow).trans (hsame row hrow)

/-- The statements of `rebuildBalanceProjection`. -/
lemma rebuildBalanceProjection_eq (walletId : String) : rebuildBalanceProjection walletId =
    .stmt (fun _ => .ok []) fun db =>
      (db.walletById walletId).elim (.abort (.notFound "Гаманець не знайдено")) fun wallet =>
        (Tx.query fun db => db.loadStream walletId).bind (projectHistory walletId wallet) := by
  refine congrArg (Tx.stmt fun _ => .ok []) (funext fun db => ?_)
  simp only [Tx.ret_bind]
  cases db.walletById walletId <;> rfl

/-- What a rebuild does with a stream that fits the wallet. -/
lemma projectHistory_eq {walletId : String} {wallet : Wallet} {history : List StoredEvent}
    {a : WalletAggregate} (ha : rehydrate walletId history = .ok a)
    (hid : assertAggregateIdentity wallet a = .ok ()) : projectHistory walletId wallet history =
      .stmt (saveProjection (projectionFromAggregate a)) fun _ =>
        .ret (.projection (projectionFromAggregate a)) := by
  unfold projectHistory
  simp [ha, hid, Except.mapError]
  rfl

/-- What a rebuild does with the stream that it has read: it rolls back, or it saves the row. -/
lemma projectHistory_cases (walletId : String) (wallet : Wallet) (history : List StoredEvent) :
    (∃ e, projectHistory walletId wallet history = .abort e) ∨
    ∃ a, rehydrate walletId history = .ok a ∧ projectHistory walletId wallet history =
      .stmt (saveProjection (projectionFromAggregate a)) fun _ =>
        .ret (.projection (projectionFromAggregate a)) := by
  cases ha : rehydrate walletId history with
  | error e =>
    unfold projectHistory
    rw [ha]
    exact .inl ⟨_, rfl⟩
  | ok a =>
    cases hid : assertAggregateIdentity wallet a with
    | error e =>
      unfold projectHistory
      exact .inl ⟨e, by simp [ha, hid, Except.mapError]⟩
    | ok u => exact .inr ⟨a, rfl, projectHistory_eq ha hid⟩

/-- In consistent tables the projection of a replayed stream is there. -/
lemma Consistent.keepsRows (h : Consistent db) {walletId : String} {a : WalletAggregate}
    (ha : rehydrate walletId (db.loadStream walletId) = .ok a)
    (hwallet : ∃ wallet ∈ db.wallets, wallet.id = walletId) :
    KeepsRows db [.saveProjection (projectionFromAggregate a)] := by
  obtain ⟨wallet, hmem, rfl⟩ := hwallet
  have hid : (projectionFromAggregate a).walletId = wallet.id := (rehydrate_replayed ha).id
  rw [h.gapFree.loadStream] at ha
  intro x hx
  refine ⟨_, List.mem_singleton.mp hx, ?_⟩
  rw [hid]
  exact h.projectionOf hmem ha

/-- Rows that a snapshot agrees on with what is committed go on to do so. -/
lemma SameRows.append {snap : Database} {p ws : List Write} (h : SameRows snap db p)
    (hunchanged : changedSince (view snap p) (view db p) ws = false) :
    SameRows snap db (p ++ ws) := by
  intro row hrow
  rcases List.mem_append.mp hrow with hrow | hrow
  · exact h row hrow
  by_cases hsaved : ∃ other, .saveProjection other ∈ p ∧ other.walletId = row.walletId
  · obtain ⟨other, hother, hid⟩ := hsaved
    rw [← hid]
    exact h other hother
  · have hnone : ∀ other, .saveProjection other ∈ p → other.walletId ≠ row.walletId :=
      fun other hother hid => hsaved ⟨other, hother, hid⟩
    have hsame := List.any_eq_false.mp hunchanged _ hrow
    simp only [decide_not, Bool.not_eq_true', decide_eq_false_iff_not, not_not] at hsame
    rw [projectionOf_view hnone, projectionOf_view hnone] at hsame
    exact hsame.symm

/-- A statement of a rebuild. -/
lemma Rebuilding.stmt (hc : Consistent db) {body : LedgerTx Reply} {p ws : List Write}
    {run : Database → Except LedgerError (List Write)} {next : Database → LedgerTx Reply}
    {k : Except LedgerError Reply → LedgerProg Reply}
    (h : Rebuilding db (.inTx body (.stmt run next) p k)) (hrun : run (view db p) = .ok ws) :
    Rebuilding db (.inTx body (next (view db p)) (p ++ ws) k) := by
  generalize hrest : Tx.stmt run next = rest at h
  cases h with
  | @looking walletId =>
    rw [rebuildBalanceProjection_eq] at hrest
    obtain ⟨rfl, rfl⟩ := Tx.stmt.inj hrest
    cases hrun
    change Rebuilding db
      (.inTx (rebuildBalanceProjection walletId) ((db.walletById walletId).elim _ _) [] .done)
    cases db.walletById walletId with
    | none => exact .failing
    | some wallet => exact .reading
  | reading =>
    obtain ⟨rfl, rfl⟩ := Tx.stmt.inj hrest
    cases hrun
    exact .writing rfl
  | @writing walletId wallet history hhistory =>
    rcases projectHistory_cases walletId wallet history with ⟨e, he⟩ | ⟨a, ha, he⟩
    · rw [he] at hrest
      cases hrest
    · rw [he] at hrest
      obtain ⟨rfl, rfl⟩ := Tx.stmt.inj hrest
      obtain ⟨rfl, -, wallet', hwallet', hid⟩ := saveProjection_ok.mp hrun
      rw [hhistory] at ha
      refine .written (hc.keepsRows ha ⟨wallet', hwallet', hid.trans ?_⟩)
      exact (rehydrate_replayed ha).id
  | written => cases hrest
  | failing => cases hrest
  | starting =>
    obtain ⟨rfl, rfl⟩ := Tx.stmt.inj hrest
    cases hrun
    exact .looping hc rfl fun row hrow => by cases hrow
  | looping hsnap halone hsame =>
    obtain ⟨hconflict, rest', hnext, halone'⟩ := Tx.atSnapshot_stmt hrest.symm hrun
    rw [hnext]
    exact .looping hsnap (halone'.trans halone) (hsame.append hconflict)

/-- A rebuild that commits saves rows that are there. -/
lemma Rebuilding.keepsRows {body : LedgerTx Reply} {p : List Write} {reply : Reply}
    {k : Except LedgerError Reply → LedgerProg Reply}
    (h : Rebuilding db (.inTx body (.ret reply) p k)) : KeepsRows db p := by
  generalize hrest : Tx.ret reply = rest at h
  cases h with
  | looking => cases hrest
  | reading => cases hrest
  | @writing walletId wallet history =>
    rcases projectHistory_cases walletId wallet history with ⟨e, he⟩ | ⟨a, -, he⟩
    · rw [he] at hrest
      cases hrest
    · rw [he] at hrest
      cases hrest
  | written hkeeps => exact hkeeps
  | failing => cases hrest
  | starting => cases hrest
  | @looping _ snap _ rest' hsnap halone hsame =>
    obtain rfl := Tx.atSnapshot_ret hrest.symm
    have hsaved := (alone_rebuildAll halone.symm).saved
    intro x hx
    obtain ⟨wallet, hwallet, a, ha, rfl⟩ := hsaved x hx
    have hmem : wallet ∈ snap.wallets := (List.mem_insertionSort _).mp hwallet
    rw [hsnap.gapFree.loadStream] at ha
    refine ⟨_, rfl, (hsame _ hx).trans ?_⟩
    rw [rebuiltRow_eq ha, show (projectionFromAggregate a).walletId = wallet.id from
      (rehydrate_replayed ha).id]
    exact hsnap.projectionOf hmem ha

end Tables

/-! ### Runs without their rebuilds -/

/-- The setting without a restriction on commits. -/
def Setting.unrestricted (setting : Setting) : Setting :=
  { setting with admits := fun _ _ => True }

/-- `t` is the state `s` of the ledger with rebuilds, without the rebuilds. -/
structure Simulates (s t : LedgerSys) : Prop where
  db : t.world.db = s.world.db
  jobs : t.world.jobs = s.world.jobs
  threads : ∀ i, t.threads i = s.threads i ∨
    (t.threads i = .idle ∧ Rebuilding s.world.db (s.threads i))

section Simulation

variable {setting : Setting} {s s' t : LedgerSys} {i : Nat}

lemma Simulates.refl (s : LedgerSys) : Simulates s s := ⟨rfl, rfl, fun _ => .inl rfl⟩

/-- A thread of the ledger moves in both. -/
lemma Simulates.command (h : Simulates s t)
    {th : Thread Database Write LedgerError Reply Empty Empty Unit Reply} {w v : LedgerWorld}
    (hdb : v.db = w.db) (hjobs : v.jobs = w.jobs)
    (hothers : ∀ j, j ≠ i → Rebuilding s.world.db (s.threads j) →
      Rebuilding w.db (s.threads j)) : Simulates (s.set i th w) (t.set i th v) where
  db := hdb
  jobs := hjobs
  threads j := by
    by_cases hj : j = i
    · subst hj
      exact .inl (by simp)
    · rw [Sys.set_threads_ne s hj, Sys.set_threads_ne t hj]
      exact (h.threads j).imp id fun hr => ⟨hr.1, hothers j hj hr.2⟩

/-- A rebuild moves and leaves the tables alone. -/
lemma Simulates.rebuild (h : Simulates s t)
    {th : Thread Database Write LedgerError Reply Empty Empty Unit Reply} {w : LedgerWorld}
    (hi : t.threads i = .idle) (hdb : w.db = s.world.db) (hjobs : w.jobs = s.world.jobs)
    (hth : Rebuilding s.world.db th) : Simulates (s.set i th w) t where
  db := h.db.trans hdb.symm
  jobs := h.jobs.trans hjobs.symm
  threads j := by
    rw [Sys.set_world, hdb]
    by_cases hj : j = i
    · subst hj
      rw [Sys.set_threads_self]
      exact .inr ⟨hi, hth⟩
    · rw [Sys.set_threads_ne s hj]
      exact h.threads j

/-- Without the rebuilds less is occupied. -/
lemma Simulates.free (h : Simulates s t) {ws : List Write} (hfree : s.Free i ws) : t.Free i ws := by
  intro j hj
  rcases h.threads j with heq | ⟨hidle, -⟩
  · rw [heq]
    exact hfree j hj
  · rw [hidle]
    exact List.disjoint_nil_left _

/-- A fresh rebuild begins its transaction. -/
lemma Rebuilding.begin {db : Database} {body : LedgerTx Reply}
    {k : Except LedgerError Reply → LedgerProg Reply}
    (h : Rebuilding db (.run (.transaction body k))) : Rebuilding db (.inTx body body [] k) := by
  generalize hprogram : Prog.transaction body k = program at h
  cases h with
  | fresh hrebuild =>
    cases hrebuild with
    | one walletId =>
      obtain ⟨rfl, rfl⟩ := Prog.transaction.inj hprogram
      exact .looking
    | all =>
      obtain ⟨rfl, rfl⟩ := Prog.transaction.inj hprogram
      exact .starting
  | ended => cases hprogram

/-- The transaction of a rebuild is its whole program. -/
lemma Rebuilding.ends {db : Database} {body rest : LedgerTx Reply} {p : List Write}
    {k : Except LedgerError Reply → LedgerProg Reply} (h : Rebuilding db (.inTx body rest p k))
    (r : Except LedgerError Reply) : Rebuilding db (.run (k r)) := by
  cases h <;> exact .ended

/-- A rebuild reads nothing outside its transaction. -/
lemma Rebuilding.no_query {db : Database} {k : Except LedgerError Database → LedgerProg Reply} :
    ¬ Rebuilding db (.run (.query k)) := by
  intro h
  generalize hprogram : Prog.query k = program at h
  cases h with
  | fresh hrebuild => cases hrebuild <;> cases hprogram
  | ended => cases hprogram

/-- A step of the ledger with rebuilds that disturbs no rebuild is a step of the ledger, or a step of
a rebuild that leaves the tables alone. -/
lemma Simulates.step (h : Simulates s t) (hc : Consistent s.world.db) (hapart : s.Apart)
    (hundisturbed : Undisturbed s s') (hs : Step (maintained setting) s s') :
    ∃ t', Reaches (ledger setting.unrestricted) t t' ∧ Simulates s' t' := by
  cases hs with
  | @start i program w' hi hstart =>
    rcases h.threads i with heq | ⟨hidle, hr⟩
    · rcases hstart with ⟨hnone, command, draw, huuid, rfl, rfl⟩ | ⟨hrebuild, rfl⟩
      · refine ⟨_, .single (.start (heq.trans hi) ⟨h.jobs ▸ hnone, command, draw, huuid, rfl, rfl⟩),
          h.command h.db ?_ fun _ _ hr => hr⟩
        simp [LedgerWorld.start, h.jobs, h.db]
      · exact ⟨t, .refl, h.rebuild (heq.trans hi) rfl rfl (.fresh hrebuild)⟩
    · rw [hi] at hr
      cases hr
  | @query i k hi =>
    rcases h.threads i with heq | ⟨hidle, hr⟩
    · refine ⟨_, .single (.query (heq.trans hi)), ?_⟩
      change Simulates _ (t.set i (.run (k (.ok t.world.db))) t.world)
      rw [h.db]
      exact h.command h.db h.jobs fun _ _ hr => hr
    · rw [hi] at hr
      exact hr.no_query.elim
  | @queryFail i k e hi he =>
    rcases h.threads i with heq | ⟨hidle, hr⟩
    · exact ⟨_, .single (.queryFail (heq.trans hi) he), h.command h.db h.jobs fun _ _ hr => hr⟩
    · rw [hi] at hr
      exact hr.no_query.elim
  | @begin i body k hi =>
    rcases h.threads i with heq | ⟨hidle, hr⟩
    · exact ⟨_, .single (.begin (heq.trans hi)), h.command h.db h.jobs fun _ _ hr => hr⟩
    · rw [hi] at hr
      exact ⟨t, .refl, h.rebuild hidle rfl rfl hr.begin⟩
  | @stmt i body run next p k ws hi hrun hfree =>
    rcases h.threads i with heq | ⟨hidle, hr⟩
    · have hrun' : run (view ((ledger setting.unrestricted).db t.world) p) = .ok ws := by
        change run (view t.world.db p) = .ok ws
        rw [h.db]
        exact hrun
      refine ⟨_, .single (.stmt (heq.trans hi) hrun' (h.free hfree)), ?_⟩
      change Simulates _ (t.set i (.inTx body (next (view t.world.db p)) _ k) t.world)
      rw [h.db]
      exact h.command h.db h.jobs fun _ _ hr => hr
    · rw [hi] at hr
      exact ⟨t, .refl, h.rebuild hidle rfl rfl (hr.stmt hc hrun)⟩
  | @stmtFail i body run next p k e hi hrun =>
    rcases h.threads i with heq | ⟨hidle, hr⟩
    · have hrun' : run (view ((ledger setting.unrestricted).db t.world) p) = .error e := by
        change run (view t.world.db p) = .error e
        rw [h.db]
        exact hrun
      exact ⟨_, .single (.stmtFail (heq.trans hi) hrun'), h.command h.db h.jobs fun _ _ hr => hr⟩
    · rw [hi] at hr
      exact ⟨t, .refl, h.rebuild hidle rfl rfl (hr.ends _)⟩
  | @abort i body e p k hi =>
    rcases h.threads i with heq | ⟨hidle, hr⟩
    · exact ⟨_, .single (.abort (heq.trans hi)), h.command h.db h.jobs fun _ _ hr => hr⟩
    · rw [hi] at hr
      exact ⟨t, .refl, h.rebuild hidle rfl rfl (hr.ends _)⟩
  | @fail i body rest p k e hi he =>
    rcases h.threads i with heq | ⟨hidle, hr⟩
    · exact ⟨_, .single (.fail (heq.trans hi) he), h.command h.db h.jobs fun _ _ hr => hr⟩
    · rw [hi] at hr
      exact ⟨t, .refl, h.rebuild hidle rfl rfl (hr.ends _)⟩
  | @commit i body r p k hi ha =>
    rcases h.threads i with heq | ⟨hidle, hr⟩
    · refine ⟨_, .single (.commit (heq.trans hi) trivial), h.command ?_ h.jobs fun j hj hr => ?_⟩
      · change view t.world.db p = view s.world.db p
        rw [h.db]
      · have hdisj := hapart j i hj
        rw [hi] at hdisj
        exact hr.commit hdisj fun walletId wallet history p' k' hj' =>
          hundisturbed j walletId wallet history p' k' hj'
    · rw [hi] at hr
      have hnodup : (s.world.db.projections.map (·.walletId)).Nodup := hc.projected ▸ hc.walletIds
      exact ⟨t, .refl, h.rebuild hidle (hr.keepsRows.view_eq hnodup) rfl (hr.ends _)⟩
  | @issue i q => cases q
  | @answer i q => cases q
  | @crash i =>
    rcases h.threads i with heq | ⟨hidle, hr⟩
    · exact ⟨_, .single .crash, h.command h.db h.jobs fun _ _ hr => hr⟩
    · exact ⟨t, .refl, h.rebuild hidle rfl rfl .crashed⟩
  | env he => exact he.elim

end Simulation

/-! ### No update is lost -/

/-- In consistent tables every row is that of the replayed stream. -/
lemma Consistent.projected_rows {db : Database} (h : Consistent db) : Projected db := by
  intro row hrow
  obtain ⟨wallet, hwallet, hid⟩ : ∃ wallet ∈ db.wallets, wallet.id = row.walletId :=
    List.mem_map.mp (h.projected ▸ List.mem_map_of_mem hrow)
  obtain ⟨a, ha, -, -, hmem⟩ := h.aggregate wallet hwallet
  rw [hid] at ha
  have hnodup : (db.projections.map (·.walletId)).Nodup := h.projected ▸ h.walletIds
  exact ⟨a, ha, List.inj_on_of_nodup_map hnodup hrow hmem (rehydrate_replayed ha).id.symm⟩

/-- In a run that disturbs no rebuild the tables stay consistent. -/
lemma consistent_of_undisturbed {setting : Setting} {db : Database} (hdb : Consistent db)
    {s : LedgerSys} (hs : Relation.ReflTransGen (UndisturbedStep setting)
      (Sys.init ⟨db, [], fun _ => none⟩) s) : Consistent s.world.db := by
  have hinit : (Sys.init ⟨db, [], fun _ => none⟩ : LedgerSys).Ok (ledger setting.unrestricted)
      (ledgerProtocol setting.unrestricted) :=
    Sys.Ok.init ⟨hdb, by simp, by simp⟩
  suffices h : s.Apart ∧ ∃ t, Reaches (ledger setting.unrestricted)
      (Sys.init ⟨db, [], fun _ => none⟩) t ∧ Simulates s t by
    obtain ⟨-, t, ht, hsim⟩ := h
    rw [← hsim.db]
    exact (hinit.reaches (ledger_sound _) ht).inv.1
  induction hs with
  | refl => exact ⟨hinit.disjoint, _, .refl, .refl _⟩
  | @tail b c _ hstep ih =>
    obtain ⟨hapart, t, ht, hsim⟩ := ih
    have hc : Consistent b.world.db := hsim.db ▸ (hinit.reaches (ledger_sound _) ht).inv.1
    obtain ⟨t', ht', hsim'⟩ := hsim.step hc hapart hstep.2 hstep.1
    exact ⟨hapart.step hstep.1, t', ht.trans ht', hsim'⟩

/-- In every run of commands and rebuilds in which no event is committed to a wallet between the
moments at which `rebuildBalanceProjection` reads its stream and writes its row, from tables that
agree with each other, every projection row always is that of its wallet's replayed stream; for
`rebuildAllBalanceProjections` nothing is asked.  And a rebuild that runs by itself makes every row
that it covers the one of the replayed stream, whatever the tables contain. -/
theorem rebuilds_keep_projections (setting : Setting) :
    (∀ (db : Database) (s : LedgerSys), Consistent db →
      Relation.ReflTransGen (UndisturbedStep setting) (Sys.init ⟨db, [], fun _ => none⟩) s →
      Projected s.world.db) ∧
    (∀ (db : Database) (walletId : String) (reply : Reply) (ws : List Write),
      (rebuildBalanceProjection walletId).alone db [] = .ok (reply, ws) →
      ∃ a, rehydrate walletId (db.loadStream walletId) = .ok a ∧
        (view db ws).projectionOf walletId = some (projectionFromAggregate a)) ∧
    (∀ (db : Database) (reply : Reply) (ws : List Write),
      rebuildAllBalanceProjections.alone db [] = .ok (reply, ws) → ∀ wallet ∈ db.wallets,
      ∃ a, rehydrate wallet.id (db.loadStream wallet.id) = .ok a ∧
        (view db ws).projectionOf wallet.id = some (projectionFromAggregate a)) :=
  ⟨fun _ _ hdb hs => (consistent_of_undisturbed hdb hs).projected_rows,
    fun _ _ _ _ h => alone_rebuildBalanceProjection h,
    fun _ _ _ h _ hwallet => alone_rebuildAllBalanceProjections h hwallet⟩

/-! ### The order that loses an update -/

section Run

variable {setting : Setting} {s : LedgerSys} {i : Nat} {walletId : String} {wallet : Wallet}

lemma undisturbed_of_events {s s' : LedgerSys}
    (h : s'.world.db.events = s.world.db.events) : Undisturbed s s' := by
  intro _ _ _ _ _ _ _
  rw [Database.stream, Database.stream, h]

/-- A transaction begins. -/
lemma undisturbed_begin (body : LedgerTx Reply) (k : Except LedgerError Reply → LedgerProg Reply) :
    UndisturbedStep setting (s.set i (.run (.transaction body k)) s.world)
      (s.set i (.inTx body body [] k) s.world) := by
  have hstep : Step (maintained setting) _ _ :=
    .begin (Sys.set_threads_self s i (.run (.transaction body k)) s.world)
  rw [Sys.set_set] at hstep
  exact ⟨hstep, undisturbed_of_events rfl⟩

/-- A transaction that has written nothing reads. -/
lemma undisturbed_read (body : LedgerTx Reply) (next : Database → LedgerTx Reply)
    (k : Except LedgerError Reply → LedgerProg Reply) :
    UndisturbedStep setting (s.set i (.inTx body (.stmt (fun _ => .ok []) next) [] k) s.world)
      (s.set i (.inTx body (next s.world.db) [] k) s.world) := by
  have hstep : Step (maintained setting) _ _ :=
    .stmt (Sys.set_threads_self s i (.inTx body (.stmt (fun _ => .ok []) next) [] k) s.world) rfl
      fun _ _ => by simp [locksOf]
  rw [Sys.set_set] at hstep
  exact ⟨hstep, undisturbed_of_events rfl⟩

/-- A rebuild starts and reads the stream. -/
lemma rebuild_reads (hi : s.threads i = .idle)
    (hwallet : s.world.db.walletById walletId = some wallet) :
    Relation.ReflTransGen (UndisturbedStep setting) s
      (s.set i (.inTx (rebuildBalanceProjection walletId)
        (projectHistory walletId wallet (s.world.db.loadStream walletId)) [] .done) s.world) := by
  have hstart : UndisturbedStep setting s
      (s.set i (.run (Prog.run (rebuildBalanceProjection walletId))) s.world) :=
    ⟨.start hi (.inr ⟨.one walletId, rfl⟩), undisturbed_of_events rfl⟩
  have hlook := @undisturbed_read setting s i (rebuildBalanceProjection walletId)
    (fun db => (db.walletById walletId).elim (.abort (.notFound "Гаманець не знайдено"))
      fun wallet => (Tx.query fun db => db.loadStream walletId).bind (projectHistory walletId wallet))
    .done
  rw [← rebuildBalanceProjection_eq, hwallet] at hlook
  exact .head hstart (.head (undisturbed_begin _ _) (.head hlook (.single (undisturbed_read _ _ _))))

/-- A rebuild writes the row of the stream that it has read, and commits. -/
lemma rebuild_writes {body : LedgerTx Reply} {history : List StoredEvent} {a : WalletAggregate}
    (hi : s.threads i = .inTx body (projectHistory walletId wallet history) [] .done)
    (ha : rehydrate walletId history = .ok a) (hid : assertAggregateIdentity wallet a = .ok ())
    (hsave : saveProjection (projectionFromAggregate a) s.world.db =
      .ok [.saveProjection (projectionFromAggregate a)])
    (hquiet : ∀ j, j ≠ i → (s.threads j).pending = []) :
    Relation.ReflTransGen (UndisturbedStep setting) s
      (s.set i (.run (.done (.ok (.projection (projectionFromAggregate a)))))
        ((maintained setting).commit s.world ⟨i, body, [.saveProjection (projectionFromAggregate a)],
          .projection (projectionFromAggregate a)⟩)) := by
  rw [projectHistory_eq ha hid] at hi
  have hwrite : Step (maintained setting) _ _ := .stmt hi hsave fun j hj => by
    rw [hquiet j hj]
    exact List.disjoint_nil_left _
  have hcommit : Step (maintained setting) _ _ :=
    .commit (Sys.set_threads_self s i (.inTx body (.ret (.projection (projectionFromAggregate a)))
      [.saveProjection (projectionFromAggregate a)] .done) s.world) trivial
  rw [Sys.set_set] at hcommit
  refine .head ⟨hwrite, undisturbed_of_events rfl⟩ (.single ⟨hcommit, undisturbed_of_events ?_⟩)
  exact (events_view _ _).trans (List.append_nil _)

/-- A step of the ledger is one of the ledger with rebuilds. -/
lemma Step.maintained {s s' : LedgerSys} (h : Step (ledger setting) s s') :
    Step (Ledger.maintained setting) s s' := by
  cases h with
  | start hi hs => exact .start hi (.inl hs)
  | query hi => exact .query hi
  | queryFail hi he => exact .queryFail hi he
  | begin hi => exact .begin hi
  | stmt hi hrun hfree => exact .stmt hi hrun hfree
  | stmtFail hi hrun => exact .stmtFail hi hrun
  | abort hi => exact .abort hi
  | fail hi he => exact .fail hi he
  | commit hi ha => exact .commit hi trivial
  | @issue _ q => exact nomatch q
  | @answer _ q => exact nomatch q
  | crash => exact .crash
  | env he => exact he.elim

end Run

/-- Ann's wallet, and what its row shows after `annPaysIn`. -/
def annWallet : Wallet := ⟨"open-wallet", "ann", "USD"⟩

def annRow : WalletBalanceProjection := ⟨"open-wallet", 1000, 0, 1000, 2⟩

/-- The stream of Ann's wallet after `annPaysIn` leads to its row. -/
lemma annPaysIn_replayed : ∃ a,
    rehydrate annWallet.id (annPaysIn.world.db.loadStream annWallet.id) = .ok a ∧
    assertAggregateIdentity annWallet a = .ok () ∧ projectionFromAggregate a = annRow := by
  have hc : Consistent annPaysIn.world.db := (reaches_ok reaches_annPaysIn).inv.1
  have hwallet : annWallet ∈ annPaysIn.world.db.wallets := by decide +kernel
  obtain ⟨a, ha, -⟩ := hc.aggregate annWallet hwallet
  have hrow := hc.projectionOf hwallet ha
  have hshown : annPaysIn.world.db.projectionOf annWallet.id = some annRow := by decide +kernel
  refine ⟨a, hc.gapFree.loadStream ▸ ha, hc.identity hwallet ha, ?_⟩
  exact Option.some.inj (hrow.symm.trans hshown)

/-- Ann's row can be saved where her wallet is. -/
lemma saveProjection_annRow {db : Database} (h : annWallet ∈ db.wallets) :
    saveProjection annRow db = .ok [.saveProjection annRow] :=
  saveProjection_ok.mpr ⟨rfl, by unfold WalletBalanceProjection.Valid; decide, annWallet, h, rfl⟩

/-- A rebuild of Ann's wallet that nobody disturbs. -/
theorem rebuilds_keep_projections_annPaysIn :
    ∃ s : LedgerSys, s.threads 0 = .run (.done (.ok (.projection annRow))) ∧
      Projected s.world.db := by
  obtain ⟨a, ha, hid, hrow⟩ := annPaysIn_replayed
  have hc : Consistent annPaysIn.world.db := (reaches_ok reaches_annPaysIn).inv.1
  have hwallet : annWallet ∈ annPaysIn.world.db.wallets := by decide +kernel
  have hreads := @rebuild_reads (openLedger fun _ => True)
    (Sys.init ⟨annPaysIn.world.db, [], fun _ => none⟩) 0 _ _ rfl (hc.walletById hwallet)
  refine ⟨_, ?_, (rebuilds_keep_projections (openLedger fun _ => True)).1 annPaysIn.world.db _ hc
    (hreads.trans (rebuild_writes (Sys.set_threads_self _ 0 _ _) ha hid ?_ ?_))⟩
  · rw [Sys.set_threads_self, hrow]
  · rw [hrow]
    exact saveProjection_annRow hwallet
  · intro j hj
    rw [Sys.set_threads_ne _ hj]
    rfl

/-- A rebuild has read the stream of Ann's wallet. -/
def annRebuilds : LedgerSys :=
  annPaysIn.set 2 (.inTx (rebuildBalanceProjection annWallet.id) (projectHistory annWallet.id annWallet
    (annPaysIn.world.db.loadStream annWallet.id)) [] .done) annPaysIn.world

/-- Then Ann deposits 5. -/
def annOvertakes : LedgerSys :=
  annRebuilds.serve (maintained (openLedger fun _ => True)) 60 3
    ((Command.deposit "open-wallet" "ann" 5).program (drawFor "pay-in-again"))
    (annRebuilds.world.start 3 (.deposit "open-wallet" "ann" 5) (drawFor "pay-in-again"))

lemma reaches_annOvertakes : Reaches (maintained (openLedger fun _ => True))
    (Sys.init (.initial [⟨"ann", "ann@example.com"⟩])) annOvertakes ∧ annOvertakes.Quiet := by
  obtain ⟨hcommands, hquiet, hidle⟩ := @reaches_serveAll (openLedger fun _ => True)
    [(.getOrCreateForUser "ann" "USD", drawFor "open"),
      (.deposit "open-wallet" "ann" 10, drawFor "pay-in")] _ _
    (fun _ _ _ => trivial) (fun _ _ _ _ _ _ _ => trivial)
    (.init (.initial [⟨"ann", "ann@example.com"⟩])) fun _ _ => ⟨rfl, rfl⟩
  have hc : Consistent annPaysIn.world.db := (reaches_ok reaches_annPaysIn).inv.1
  have hmem : annWallet ∈ annPaysIn.world.db.wallets := by decide +kernel
  have hreads := @rebuild_reads (openLedger fun _ => True) annPaysIn 2 _ _
    (hidle 2 le_rfl).1 (hc.walletById hmem)
  have hrebuilds : annRebuilds.Quiet := Sys.Quiet.set hquiet rfl _
  have hserved := hrebuilds.serve (maintained (openLedger fun _ => True)) 60 3
    ((Command.deposit "open-wallet" "ann" 5).program (drawFor "pay-in-again"))
    (annRebuilds.world.start 3 (.deposit "open-wallet" "ann" 5) (drawFor "pay-in-again"))
    (Prog.admitted_of_invariant (I := fun _ => True) (fun _ _ _ _ => trivial)
      (fun _ _ _ _ => trivial) 60 trivial _)
    ((Sys.set_threads_ne _ (by decide) _ _).trans (hidle 3 (by decide)).1)
    (.inl ⟨(hidle 3 (by decide)).2, _, _, fun _ => trivial, rfl, rfl⟩)
  have hcommands' : Reaches (maintained (openLedger fun _ => True)) _ _ :=
    hcommands.lift (fun s => s) fun _ _ h => Step.maintained h
  have hreads' : Reaches (maintained (openLedger fun _ => True)) _ _ :=
    hreads.lift (fun s => s) fun _ _ h => h.1
  exact ⟨(hcommands'.trans hreads').trans hserved.1, hserved.2⟩

/-- A rebuild reads the stream of Ann's wallet, a deposit is committed, and the rebuild writes the row
as it was before: it shows version 2, while the stream has three events. -/
theorem rebuild_loses_update :
    ¬ ∀ (setting : Setting) (users : List User) (s : LedgerSys),
      Reaches (maintained setting) (Sys.init (.initial users)) s → Projected s.world.db := by
  intro h
  obtain ⟨a, ha, hid, hrow⟩ := annPaysIn_replayed
  obtain ⟨hreaches, hquiet⟩ := reaches_annOvertakes
  have hwallet : annWallet ∈ annOvertakes.world.db.wallets := by decide +kernel
  have hrebuild : annOvertakes.threads 2 = .inTx (rebuildBalanceProjection annWallet.id)
      (projectHistory annWallet.id annWallet (annPaysIn.world.db.loadStream annWallet.id)) [] .done :=
    (Sys.set_threads_ne _ (by decide) _ _).trans (Sys.set_threads_self _ _ _ _)
  have hwrites := @rebuild_writes (openLedger fun _ => True) _ _ _ _ _ _ _ hrebuild ha hid
    (by rw [hrow]; exact saveProjection_annRow hwallet) fun j _ => hquiet j
  rw [hrow] at hwrites
  have hprojected := h _ _ _ (hreaches.trans (hwrites.lift (fun s => s) fun _ _ h => h.1))
  have hsaved : annRow ∈ (view annOvertakes.world.db [Write.saveProjection annRow]).projections :=
    mem_saveRow.mpr (.inl rfl)
  obtain ⟨b, hb, hshown⟩ := hprojected annRow hsaved
  have hversion : (2 : Int) = b.version := congrArg WalletBalanceProjection.streamVersion hshown
  have hlength : ((view annOvertakes.world.db [Write.saveProjection annRow]).stream
      annRow.walletId).length = 3 := by decide +kernel
  have hreplayed := (rehydrate_replayed hb).version
  change b.version = (((view annOvertakes.world.db [Write.saveProjection annRow]).stream
      annRow.walletId).length : Int) at hreplayed
  rw [hlength, ← hversion] at hreplayed
  exact absurd hreplayed (by decide)

end Ledger

end PeerLedger
