import PeerLedger.Formats.JsonText
import PeerLedger.Ledger.Reconciliation

/-!
# Reconciliation of one wallet

`reconcileWallet` of `ledger-maintenance.service.ts` compares the replay of a wallet's stream with
its projection row.  What it compares is JSON text in which the amounts are shown as decimals;
`walletReport_consistent` says that this is a comparison of numbers.  The two are read by separate
statements, and commands may commit in between: `wallet_reconciliation` says when the report is right
nevertheless.
-/

namespace PeerLedger

namespace Ledger

open Formats Transactions WalletAggregate

/-! ### The report -/

/-- A balance as the report shows it. -/
structure WalletState where
  total : String
  held : String
  available : String
  streamVersion : Int
deriving DecidableEq

/-- `JSON.stringify` of a balance that the report shows; both objects list their properties in this
order. -/
def WalletState.stringify (state : WalletState) : List Char :=
  JsonText.stringify (.object [("total".toList, .string state.total.toList),
    ("held".toList, .string state.held.toList),
    ("available".toList, .string state.available.toList),
    ("streamVersion".toList, .number (toString state.streamVersion).toList)])

/-- The report on one wallet. -/
structure WalletReconciliation where
  walletId : String
  consistent : Bool
  eventDerived : WalletState
  projection : Option WalletState

/-- `state` of a replayed wallet. -/
def WalletAggregate.state (a : WalletAggregate) : WalletState :=
  { total := formatMinorUnits a.balanceMinor, held := formatMinorUnits a.heldMinor,
    available := formatMinorUnits a.availableMinor, streamVersion := a.version }

/-- The state that a projection row shows. -/
def WalletBalanceProjection.materialized (row : WalletBalanceProjection) : WalletState :=
  { total := formatMinorUnits row.balanceMinor, held := formatMinorUnits row.heldMinor,
    available := formatMinorUnits row.availableMinor, streamVersion := row.streamVersion }

def getWallet (walletId : String) : LedgerProg Wallet := do
  match ← Prog.read fun db => db.walletById walletId with
  | some wallet => return wallet
  | none => throw (.notFound "Гаманець не знайдено")

/-- `assertWalletIdentity` of the maintenance service, which is the check of the wallet service. -/
def assertWalletIdentity (wallet : Wallet) (a : WalletAggregate) : Except LedgerError Unit :=
  assertAggregateIdentity wallet a

/-- The report on a replayed wallet and its projection row. -/
def walletReport (walletId : String) (a : WalletAggregate)
    (projection : Option WalletBalanceProjection) : WalletReconciliation :=
  let derived := a.state
  let materialized := projection.map WalletBalanceProjection.materialized
  { walletId
    consistent := materialized.any fun state => derived.stringify = state.stringify
    eventDerived := derived
    projection := materialized }

def reconcileWallet (walletId : String) : LedgerProg WalletReconciliation := do
  let wallet ← getWallet walletId
  let history ← Prog.read fun db => db.loadStream walletId
  let aggregate ← Prog.done ((WalletAggregate.rehydrate walletId history).mapError .error)
  Prog.done (assertWalletIdentity wallet aggregate)
  let projection ← Prog.read fun db => db.projectionOf walletId
  return walletReport walletId aggregate projection

/-! ### The comparison -/

/-- The text of a shown balance determines it. -/
lemma WalletState.stringify_inj {s t : WalletState} : s.stringify = t.stringify ↔ s = t := by
  refine ⟨fun h => ?_, congrArg WalletState.stringify⟩
  obtain ⟨total, held, available, version⟩ := s
  obtain ⟨total', held', available', version'⟩ := t
  simp only [WalletState.stringify, JsonText.stringify, JsonText.stringifyMembers, List.cons_append,
    List.append_assoc, List.cons.injEq, true_and, JsonText.quote_append_inj, String.toList_inj,
    List.append_cancel_right_eq] at h
  obtain ⟨rfl, rfl, rfl, hversion⟩ := h
  have hparse := parseMinorUnits_toString version
  rw [hversion, parseMinorUnits_toString] at hparse
  rw [Except.ok.inj hparse]

/-- The report is `consistent` exactly when there is a row with the numbers of the replay. -/
lemma walletReport_consistent {walletId : String} {a : WalletAggregate}
    {projection : Option WalletBalanceProjection} :
    (walletReport walletId a projection).consistent = true ↔
      ∃ row, projection = some row ∧ row.balanceMinor = a.balanceMinor ∧
        row.heldMinor = a.heldMinor ∧ row.availableMinor = a.availableMinor ∧
        row.streamVersion = a.version := by
  simp only [walletReport, Option.any_eq_true, decide_eq_true_eq, WalletState.stringify_inj,
    Option.map_eq_some_iff, exists_exists_and_eq_and, WalletAggregate.state,
    WalletBalanceProjection.materialized, WalletState.mk.injEq, formatMinorUnits_inj]
  exact exists_congr fun row => and_congr_right fun _ =>
    and_congr eq_comm (and_congr eq_comm (and_congr eq_comm eq_comm))

/-! ### The reads -/

/-- Reading a wallet that is there. -/
lemma getWallet_along {α : Type} {db : Database} {contents : List Database} {wallet : Wallet}
    (hwallet : db.walletById wallet.id = some wallet) (f : Wallet → LedgerProg α) :
    ((getWallet wallet.id).bind f).along (db :: contents) = (f wallet).along contents := by
  unfold getWallet
  simp [Prog.bind, Prog.attempt, Prog.read, Prog.along, Except.map, hwallet]

/-- The reads of a wallet that is there, each at a moment of its own. -/
lemma reconcileWallet_along {db₁ db₂ db₃ : Database} {wallet : Wallet} {a : WalletAggregate}
    (hwallet : db₁.walletById wallet.id = some wallet)
    (ha : WalletAggregate.rehydrate wallet.id (db₂.loadStream wallet.id) = .ok a)
    (hid : assertWalletIdentity wallet a = .ok ()) :
    (reconcileWallet wallet.id).along [db₁, db₂, db₃] =
      .done (.ok (walletReport wallet.id a (db₃.projectionOf wallet.id))) := by
  unfold reconcileWallet
  rw [Prog.bind_eq, getWallet_along hwallet, Prog.bind_eq, Prog.along_bind_read, ha, Prog.bind_eq]
  change ((Prog.done (assertWalletIdentity wallet a)).bind _).along [db₃] = _
  rw [hid]
  rfl

/-- The row that is found is the only one with its key. -/
lemma find?_key {α β : Type} [DecidableEq β] {f : α → β} {rows : List α} {row : α}
    (hnodup : (rows.map f).Nodup) (hrow : row ∈ rows) :
    rows.find? (fun other => f other = f row) = some row := by
  rw [← List.head?_filter, filter_key_eq_singleton hnodup hrow]
  rfl

/-- The wallet that is found by its id. -/
lemma Consistent.walletById {db : Database} (h : Consistent db) {wallet : Wallet}
    (hwallet : wallet ∈ db.wallets) : db.walletById wallet.id = some wallet :=
  find?_key h.walletIds hwallet

/-- The row of a wallet is the projection of its replayed stream. -/
lemma Consistent.projectionOf {db : Database} (h : Consistent db) {wallet : Wallet}
    (hwallet : wallet ∈ db.wallets) {a : WalletAggregate}
    (ha : rehydrate wallet.id (db.stream wallet.id) = .ok a) :
    db.projectionOf wallet.id = some (projectionFromAggregate a) := by
  obtain ⟨b, hb, -, -, hmem⟩ := h.aggregate wallet hwallet
  obtain rfl := Except.ok.inj (hb.symm.trans ha)
  have hid : (projectionFromAggregate b).walletId = wallet.id := (rehydrate_replayed ha).id
  rw [← hid]
  exact find?_key (h.projected ▸ h.walletIds) hmem

/-- The report on a wallet whose reads see three moments at which the tables are consistent, is right
exactly when no event was committed between the last two. -/
lemma reconcileWallet_consistent {db₁ db₂ db₃ : Database} {wallet : Wallet} {locked : List Lock}
    (h₁ : Consistent db₁) (h₂ : Consistent db₂) (h₃ : Consistent db₃)
    (hwallet : wallet ∈ db₁.wallets) (h₁₂ : db₁.Grows locked db₂) (h₂₃ : db₂.Grows locked db₃) :
    ∃ r, (reconcileWallet wallet.id).along [db₁, db₂, db₃] = .done (.ok r) ∧
      (r.consistent = true ↔ db₃.stream wallet.id = db₂.stream wallet.id) := by
  have hwallet₂ := h₁₂.mem_wallets hwallet
  have hwallet₃ := h₂₃.mem_wallets hwallet₂
  obtain ⟨a, ha, howner, hcurrency, -⟩ := h₂.aggregate wallet hwallet₂
  obtain ⟨b, hb, -, -, -⟩ := h₃.aggregate wallet hwallet₃
  have hid : assertWalletIdentity wallet a = .ok () := h₂.identity hwallet₂ ha
  have hload : WalletAggregate.rehydrate wallet.id (db₂.loadStream wallet.id) = .ok a := by
    rw [h₂.gapFree.loadStream]
    exact ha
  refine ⟨_, reconcileWallet_along (h₁.walletById hwallet) hload hid, ?_⟩
  rw [h₃.projectionOf hwallet₃ hb, walletReport_consistent]
  constructor
  · rintro ⟨row, hrow, -, -, -, hversion⟩
    obtain rfl := Option.some.inj hrow
    change (b.version : Int) = a.version at hversion
    rw [(rehydrate_replayed hb).version, (rehydrate_replayed ha).version] at hversion
    exact ((h₂₃.stream wallet.id).eq_of_length (by omega)).symm
  · intro hstream
    rw [hstream] at hb
    obtain rfl := Except.ok.inj (hb.symm.trans ha)
    exact ⟨projectionFromAggregate b, rfl, rfl, rfl, rfl, rfl⟩

/-! ### No false alarm -/

/-- Whatever is committed between the reads of `reconcileWallet`, in every run from the start it reports
on every wallet, and the report is `consistent` exactly when no event of the wallet is committed
between the statement that reads its stream and the one that reads its projection row. -/
theorem wallet_reconciliation (setting : Setting) (users : List User) (s₁ s₂ s₃ : LedgerSys)
    (hs₁ : Reaches (ledger setting) (Sys.init (.initial users)) s₁)
    (hs₂ : Reaches (ledger setting) s₁ s₂) (hs₃ : Reaches (ledger setting) s₂ s₃) (wallet : Wallet)
    (hwallet : wallet ∈ s₁.world.db.wallets) :
    ∃ r, (reconcileWallet wallet.id).along [s₁.world.db, s₂.world.db, s₃.world.db] = .done (.ok r) ∧
      (r.consistent = true ↔
        s₃.world.db.stream wallet.id = s₂.world.db.stream wallet.id) := by
  have hok₁ := reaches_ok hs₁
  have hok₂ := hok₁.reaches (ledger_sound setting) hs₂
  have hok₃ := hok₂.reaches (ledger_sound setting) hs₃
  exact reconcileWallet_consistent hok₁.inv.1 hok₂.inv.1 hok₃.inv.1 hwallet
    (reaches_grows hok₁ hs₂) (reaches_grows hok₂ hs₃)

/-- Ann opens a wallet and deposits 10. -/
def annPaysIn : LedgerSys :=
  servedBy (openLedger fun _ => True) [⟨"ann", "ann@example.com"⟩]
    [(.getOrCreateForUser "ann" "USD", drawFor "open"),
      (.deposit "open-wallet" "ann" 10, drawFor "pay-in")]

/-- Ann then deposits 5 more. -/
def annPaysInAgain : LedgerSys :=
  serveAll (openLedger fun _ => True) annPaysIn 2
    [(.deposit "open-wallet" "ann" 5, drawFor "pay-in-again")]

lemma reaches_annPaysIn : Reaches (ledger (openLedger fun _ => True))
    (Sys.init (.initial [⟨"ann", "ann@example.com"⟩])) annPaysIn :=
  reaches_servedBy (fun _ _ _ => trivial) fun _ _ _ _ _ _ _ => trivial

lemma reaches_annPaysInAgain :
    Reaches (ledger (openLedger fun _ => True)) annPaysIn annPaysInAgain := by
  obtain ⟨-, hquiet, hidle⟩ := @reaches_serveAll (openLedger fun _ => True)
    [(.getOrCreateForUser "ann" "USD", drawFor "open"),
      (.deposit "open-wallet" "ann" 10, drawFor "pay-in")] _ _
    (fun _ _ _ => trivial) (fun _ _ _ _ _ _ _ => trivial)
    (.init (.initial [⟨"ann", "ann@example.com"⟩])) fun _ _ => ⟨rfl, rfl⟩
  exact (reaches_serveAll (fun _ _ _ => trivial) (fun _ _ _ _ _ _ _ => trivial) hquiet hidle).1

/-- When nothing happens between the reads, the report on Ann's wallet is right. -/
theorem wallet_reconciliation_annPaysIn :
    ∃ r, (reconcileWallet "open-wallet").along
        [annPaysIn.world.db, annPaysIn.world.db, annPaysIn.world.db] = .done (.ok r) ∧
      (r.consistent = true ↔
        annPaysIn.world.db.stream "open-wallet" = annPaysIn.world.db.stream "open-wallet") :=
  wallet_reconciliation (openLedger fun _ => True) [⟨"ann", "ann@example.com"⟩] annPaysIn annPaysIn
    annPaysIn reaches_annPaysIn .refl .refl ⟨"open-wallet", "ann", "USD"⟩ (by decide +kernel)

/-- The second deposit is committed between the reads of stream and projection: the report on a wallet
whose projection always is that of its stream is not `consistent`. -/
theorem reconciliation_false_alarm :
    ¬ ∀ (setting : Setting) (users : List User) (wallet : Wallet),
      (∀ s, Reaches (ledger setting) (Sys.init (.initial users)) s → wallet ∈ s.world.db.wallets →
        ∃ a, rehydrate wallet.id (s.world.db.stream wallet.id) = .ok a ∧
          s.world.db.projectionOf wallet.id = some (projectionFromAggregate a)) →
      ∀ s₁ s₂ s₃, Reaches (ledger setting) (Sys.init (.initial users)) s₁ →
        Reaches (ledger setting) s₁ s₂ → Reaches (ledger setting) s₂ s₃ →
        wallet ∈ s₁.world.db.wallets →
        ∃ r, (reconcileWallet wallet.id).along [s₁.world.db, s₂.world.db, s₃.world.db] =
          .done (.ok r) ∧ r.consistent = true := by
  intro h
  have hok := reaches_ok reaches_annPaysIn
  have hwallet : (⟨"open-wallet", "ann", "USD"⟩ : Wallet) ∈ annPaysIn.world.db.wallets := by
    decide +kernel
  obtain ⟨r, hr, hconsistent⟩ := h (openLedger fun _ => True) [⟨"ann", "ann@example.com"⟩]
    ⟨"open-wallet", "ann", "USD"⟩
    (fun s hs hmem => by
      have hc := (reaches_ok hs).inv.1
      obtain ⟨a, ha, -⟩ := hc.aggregate _ hmem
      exact ⟨a, ha, hc.projectionOf hmem ha⟩)
    annPaysIn annPaysIn annPaysInAgain reaches_annPaysIn .refl reaches_annPaysInAgain hwallet
  obtain ⟨r', hr', hiff⟩ := reconcileWallet_consistent hok.inv.1 hok.inv.1
    (hok.reaches (ledger_sound _) reaches_annPaysInAgain).inv.1 hwallet (.refl [] _)
    (reaches_grows hok reaches_annPaysInAgain)
  obtain rfl := Except.ok.inj (Prog.done.inj (hr.symm.trans hr'))
  have hlength := congrArg List.length (hiff.mp hconsistent)
  revert hlength
  decide +kernel

end Ledger

end PeerLedger
