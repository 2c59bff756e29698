import PeerLedger.Ledger.Rebuilds

/-!
# Reconciliation of a quiet wallet

While nobody commits, `reconcileWallet` finds every corruption of a projection row and reports no
other, whatever the row contains.  `rebuildBalanceProjection` repairs the row, unless the replayed
balance does not fit its column.
-/

namespace PeerLedger

namespace Ledger

open Transactions WalletAggregate

/-- A wallet that is found by its id, whose stream is replayed and names its owner and currency. -/
structure ReplayedAs (db : Database) (wallet : Wallet) (a : WalletAggregate) : Prop where
  found : db.walletById wallet.id = some wallet
  replayed : rehydrate wallet.id (db.loadStream wallet.id) = .ok a
  owner : a.ownerId = some wallet.ownerId
  currency : a.currency = some wallet.currency

variable {db : Database} {wallet : Wallet} {a : WalletAggregate}

/-! ### The row of a replayed wallet -/

lemma ReplayedAs.identity (h : ReplayedAs db wallet a) : assertAggregateIdentity wallet a = .ok () := by
  rw [assertAggregateIdentity, if_neg]
  rw [not_or, not_not, not_not]
  exact ⟨h.owner, h.currency⟩

lemma ReplayedAs.mem_wallets (h : ReplayedAs db wallet a) : wallet ∈ db.wallets :=
  List.mem_of_find?_eq_some h.found

lemma ReplayedAs.id (h : ReplayedAs db wallet a) : a.id = wallet.id := (rehydrate_replayed h.replayed).id

/-- Only an event can have named the owner. -/
lemma ReplayedAs.version_pos (h : ReplayedAs db wallet a) : 0 < a.version := by
  rw [(rehydrate_replayed h.replayed).version, Int.natCast_pos, List.length_pos_iff]
  intro hnil
  have hreplayed := h.replayed
  rw [hnil] at hreplayed
  obtain rfl := Except.ok.inj hreplayed
  exact absurd h.owner (by simp [empty])

/-- The row of a replayed wallet passes the checks of its table exactly when the balance fits. -/
lemma ReplayedAs.valid_iff (h : ReplayedAs db wallet a) :
    (projectionFromAggregate a).Valid ↔ fitsBigint a.balanceMinor := by
  have hr := rehydrate_replayed h.replayed
  have hheld : 0 ≤ a.heldMinor := heldMinor_nonneg a hr.holds_pos
  have hle : a.heldMinor ≤ a.balanceMinor := hr.held_le
  refine ⟨fun hvalid => hvalid.1.1, fun hfits => ?_⟩
  have hlarge := hfits.2
  have hnonneg : ∀ n : Int, 0 ≤ n → n ≤ a.balanceMinor → fitsBigint n := fun n h0 hn =>
    ⟨by omega, by omega⟩
  have hfree : 0 ≤ a.availableMinor := Int.sub_nonneg.mpr hle
  have hspend : a.availableMinor ≤ a.balanceMinor := Int.sub_le_self _ hheld
  exact ⟨⟨hfits, hnonneg _ hheld hle, hnonneg _ hfree hspend⟩, hheld.trans hle, hheld, hfree,
    h.version_pos, rfl⟩

/-! ### Programs that run alone -/

/-- What `reconcileWallet` reports when nobody commits. -/
lemma ReplayedAs.alone_reconcileWallet (h : ReplayedAs db wallet a) :
    (reconcileWallet wallet.id).alone db =
      (.ok (walletReport wallet.id a (db.projectionOf wallet.id)), db) := by
  have hid : assertWalletIdentity wallet a = .ok () := h.identity
  have hget : (getWallet wallet.id).alone db = (.ok wallet, db) := by
    unfold getWallet
    rw [Prog.bind_eq, Prog.alone_bind_read, h.found]
    rfl
  unfold reconcileWallet
  rw [Prog.bind_eq, Prog.alone_bind_ok hget, Prog.bind_eq, Prog.alone_bind_read, h.replayed]
  change ((Prog.done (assertWalletIdentity wallet a)).bind _).alone db = _
  rw [hid]
  rfl

/-- The save of the row of a replayed wallet. -/
lemma ReplayedAs.save_row (h : ReplayedAs db wallet a) :
    saveProjection (projectionFromAggregate a) db =
      if fitsBigint a.balanceMinor then .ok [.saveProjection (projectionFromAggregate a)]
      else .error (.queryFailed "22003") := by
  split_ifs with hfits
  · exact saveProjection_ok.mpr ⟨rfl, h.valid_iff.mpr hfits, wallet, h.mem_wallets, h.id.symm⟩
  · exact if_pos fun hall => hfits hall.1

/-- What a rebuild does when nobody else commits. -/
lemma ReplayedAs.alone_rebuild (h : ReplayedAs db wallet a) :
    (Prog.run (rebuildBalanceProjection wallet.id) : LedgerProg Reply).alone db =
      if fitsBigint a.balanceMinor then
        (.ok (.projection (projectionFromAggregate a)),
          view db [Write.saveProjection (projectionFromAggregate a)])
      else (.error (.queryFailed "22003"), db) := by
  have hfind : (findOrThrow (.notFound "Гаманець не знайдено") fun db =>
      db.walletById wallet.id).alone db [] = .ok (wallet, []) := alone_findOrThrow h.found
  have hbody : (rebuildBalanceProjection wallet.id).alone db [] =
      (saveProjection (projectionFromAggregate a) db).map fun ws =>
        (.projection (projectionFromAggregate a), ws) := by
    refine Tx.alone_bind_ok hfind (Tx.alone_bind_ok (Tx.alone_query _ _ _) ?_)
    rw [view_nil, projectHistory, h.replayed]
    refine Tx.alone_bind_ok (Tx.alone_ofExcept _ _ _) ?_
    rw [h.identity]
    refine Tx.alone_bind_ok (Tx.alone_ofExcept _ _ _) ?_
    change (((Tx.write _).bind _).bind _).alone db [] = _
    rw [Tx.alone_bind, Tx.alone_bind, Tx.alone_write, view_nil]
    cases saveProjection (projectionFromAggregate a) db <;> rfl
  rw [h.save_row] at hbody
  split_ifs at hbody ⊢ with hfits
  · exact Prog.alone_transaction hbody _
  · simp only [Prog.run, Prog.alone, hbody, Except.map]

/-- Saved rows leave the wallet and its stream as they were. -/
lemma ReplayedAs.saved (h : ReplayedAs db wallet a) {ws : List Write}
    (hws : ∀ x ∈ ws, ∃ row, x = .saveProjection row) : ReplayedAs (view db ws) wallet a where
  found := by
    have hnone : insertedWallets ws = [] := by
      refine List.filterMap_eq_nil_iff.mpr fun x hx => ?_
      obtain ⟨row, rfl⟩ := hws x hx
      rfl
    rw [Database.walletById, wallets_view, hnone, List.append_nil]
    exact h.found
  replayed := by
    rw [loadStream_saves hws]
    exact h.replayed
  owner := h.owner
  currency := h.currency

/-- A wallet whose row is that of its replay is reported as consistent. -/
lemma ReplayedAs.consistent (h : ReplayedAs db wallet a)
    (hrow : db.projectionOf wallet.id = some (projectionFromAggregate a)) :
    ∃ r, (reconcileWallet wallet.id).alone db = (.ok r, db) ∧ r.consistent = true := by
  refine ⟨_, h.alone_reconcileWallet, ?_⟩
  rw [hrow]
  exact walletReport_consistent.mpr ⟨_, rfl, rfl, rfl, rfl, rfl⟩

/-! ### Sound and complete -/

/-- For a wallet whose stream is replayed for its owner and currency, and while nobody else commits,
`reconcileWallet` reports, and the report is `consistent` exactly when there is a projection row with
the numbers of the replay.  A rebuild returns when the replayed balance fits its column, and then the
report is `consistent`; otherwise it changes nothing. -/
theorem reconciliation_quiescent (h : ReplayedAs db wallet a) :
    (∃ r, (reconcileWallet wallet.id).alone db = (.ok r, db) ∧
      (r.consistent = true ↔ ∃ row, db.projectionOf wallet.id = some row ∧
        row.balanceMinor = a.balanceMinor ∧ row.heldMinor = a.heldMinor ∧
        row.availableMinor = a.availableMinor ∧ row.streamVersion = a.version)) ∧
    (∀ reply db', (Prog.run (rebuildBalanceProjection wallet.id) : LedgerProg Reply).alone db =
        (.ok reply, db') →
      ∃ r, (reconcileWallet wallet.id).alone db' = (.ok r, db') ∧ r.consistent = true) ∧
    (fitsBigint a.balanceMinor → ∃ reply db',
      (Prog.run (rebuildBalanceProjection wallet.id) : LedgerProg Reply).alone db =
        (.ok reply, db')) ∧
    (¬ fitsBigint a.balanceMinor →
      (Prog.run (rebuildBalanceProjection wallet.id) : LedgerProg Reply).alone db =
        (.error (.queryFailed "22003"), db)) := by
  refine ⟨⟨_, h.alone_reconcileWallet, walletReport_consistent⟩, fun reply db' hrebuild => ?_,
    fun hfits => ?_, fun hlarge => ?_⟩
  · rw [h.alone_rebuild] at hrebuild
    split_ifs at hrebuild with hfits
    · obtain ⟨-, rfl⟩ := Prod.mk.inj hrebuild
      refine (h.saved fun x hx => ⟨_, List.mem_singleton.mp hx⟩).consistent ?_
      rw [← h.id]
      exact projectionOf_view_saved (List.mem_singleton_self _) fun row hrow _ =>
        Write.saveProjection.inj (List.mem_singleton.mp hrow)
    · cases (Prod.mk.inj hrebuild).1
  · exact ⟨_, _, h.alone_rebuild.trans (if_pos hfits)⟩
  · exact h.alone_rebuild.trans (if_neg hlarge)

/-- The tables of `annPaysIn` with another projection row, or none. -/
def annCorrupted (rows : List WalletBalanceProjection) : Database :=
  { annPaysIn.world.db with projections := rows }

/-- Ann's row shows less than one unit, and a negative amount. -/
theorem reconciliation_quiescent_annCorrupted :
    ∃ r, (reconcileWallet "open-wallet").alone (annCorrupted [⟨"open-wallet", -7, 0, -7, 2⟩]) =
      (.ok r, annCorrupted [⟨"open-wallet", -7, 0, -7, 2⟩]) ∧ r.consistent = false := by
  obtain ⟨a, ha, hid, hrow⟩ := annPaysIn_replayed
  have hidentity : a.ownerId = some annWallet.ownerId ∧ a.currency = some annWallet.currency := by
    by_contra hne
    rw [not_and_or] at hne
    rw [assertAggregateIdentity, if_pos hne] at hid
    cases hid
  have hfound : annPaysIn.world.db.walletById annWallet.id = some annWallet := by decide +kernel
  have hreplays : ReplayedAs (annCorrupted [⟨"open-wallet", -7, 0, -7, 2⟩]) annWallet a :=
    ⟨hfound, ha, hidentity.1, hidentity.2⟩
  obtain ⟨⟨r, hr, hiff⟩, -⟩ := reconciliation_quiescent hreplays
  refine ⟨r, hr, Bool.eq_false_iff.mpr fun hconsistent => ?_⟩
  obtain ⟨row, hfind, hbalance, -⟩ := hiff.mp hconsistent
  have hshown : row.balanceMinor = -7 := by
    have hcorrupt : (annCorrupted [⟨"open-wallet", -7, 0, -7, 2⟩]).projectionOf annWallet.id =
        some ⟨"open-wallet", -7, 0, -7, 2⟩ := rfl
    rw [hcorrupt] at hfind
    obtain rfl := Option.some.inj hfind
    rfl
  have hreal : a.balanceMinor = 1000 := congrArg WalletBalanceProjection.balanceMinor hrow
  rw [hshown, hreal] at hbalance
  exact absurd hbalance (by decide)

end Ledger

end PeerLedger
