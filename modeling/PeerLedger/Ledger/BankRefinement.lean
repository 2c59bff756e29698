import PeerLedger.Accounts.Bank
import PeerLedger.Ledger.Provenance
import PeerLedger.Ledger.Settlements
import Mathlib.Data.List.ReduceOption

/-!
# The ledger is a bank

What the ledger is for does not speak of events, streams, versions or projections: it is a bank with
atomic operations.  `bankOf` forgets everything else, and `ledger_refines_bank` says that the commits
of any number of concurrent commands, in the order of the log, are operations of this bank, and those
that their commands ask for.
-/

namespace PeerLedger

namespace Ledger

open Transactions WalletAggregate Accounts

/-! ### Wallets as accounts -/

/-- What a change does to the account. -/
def Change.movement : Change → Movement String ℤ
  | deposited n _ => .deposit n
  | withdrawn n _ => .withdraw n
  | held holdId n => .reserve holdId n
  | released holdId n => .release holdId n
  | consumed holdId n _ => .collect holdId n

/-- The amount of a change. -/
def Change.amountMinor : Change → Int
  | deposited n _ => n
  | withdrawn n _ => n
  | held _ n => n
  | released _ n => n
  | consumed _ n _ => n

namespace WalletAggregate

variable {a : WalletAggregate} {c : Change} {holdId : String}

/-- What is held under the active holds. -/
noncomputable def reserved (a : WalletAggregate) : String →₀ ℤ :=
  Finsupp.onFinset a.holds.keys.toFinset a.heldUnder fun holdId hne => by
    rw [List.mem_toFinset, ← AList.mem_keys]
    by_contra hnot
    rw [heldUnder, AList.lookup_eq_none.mpr hnot] at hne
    exact hne rfl

/-- The account of a wallet. -/
noncomputable def account (a : WalletAggregate) : Account String ℤ :=
  { balance := a.balanceMinor, reserved := a.reserved, used := {holdId | holdId ∈ a.holds} }

@[simp]
lemma reserved_apply (a : WalletAggregate) (holdId : String) :
    a.account.reserved holdId = a.heldUnder holdId := rfl

lemma account_held (a : WalletAggregate) : a.account.held = a.heldMinor := by
  have hsum : a.account.held = (a.holds.keys.map a.heldUnder).sum := by
    rw [Account.held, account, reserved, Finsupp.onFinset_sum _ fun _ => rfl,
      List.sum_toFinset _ a.holds.keys_nodup]
  rw [hsum, heldMinor, AList.keys, List.keys, List.map_map]
  congr 1
  refine List.map_congr_left fun entry hentry => ?_
  have hlookup : a.holds.lookup entry.1 = some entry.2 :=
    AList.mem_lookup_iff.mpr hentry
  simp [heldUnder, hlookup]

lemma account_available (a : WalletAggregate) : a.account.available = a.availableMinor := by
  rw [Account.available, account_held, availableMinor, account]

lemma heldUnder_active {n : Int} (h : a.holds.lookup holdId = some ⟨n, .active⟩) :
    a.heldUnder holdId = n := by
  rw [heldUnder, h]
  rfl

/-- Setting a hold. -/
lemma account_setHold {balance : Int} {hold : HoldState} :
    (account { a with balanceMinor := balance, holds := a.holds.insert holdId hold }) =
      { balance, reserved := a.reserved.update holdId hold.heldMinor,
        used := insert holdId a.account.used } := by
  ext other
  · rfl
  · change ((a.holds.insert holdId hold).lookup other).elim 0 HoldState.heldMinor =
      a.reserved.update holdId hold.heldMinor other
    rw [Finsupp.update_apply]
    by_cases heq : other = holdId
    · subst heq
      rw [AList.lookup_insert, if_pos rfl]
      rfl
    · rw [AList.lookup_insert_ne heq, if_neg heq]
      rfl
  · simp [account, AList.mem_insert]

/-- An allowed change moves the account. -/
lemma account_result (hallowed : c.Allowed a) :
    (c.result a).account = a.account.after c.movement := by
  have hbalance : ∀ c : Change, (c.result a).balanceMinor = (a.account.after c.movement).balance := by
    intro c
    rw [Account.after_balance]
    cases c <;> simp [Change.result, Change.balanceMinor, Change.postings, Change.movement,
      Movement.credit, account]
  have hused : ∀ {holdId hold}, a.holds.lookup holdId = some hold →
      insert holdId a.account.used = a.account.used := fun hlookup =>
    Set.insert_eq_self.mpr (AList.lookup_isSome.mp (by rw [hlookup]; rfl))
  cases c with
  | deposited n t => exact Account.ext (hbalance _) rfl rfl
  | withdrawn n t => exact Account.ext (hbalance _) rfl rfl
  | held holdId n => exact account_setHold.trans (Account.ext (hbalance _) rfl rfl)
  | released holdId n =>
    exact account_setHold.trans (Account.ext (hbalance _) rfl (hused hallowed))
  | consumed holdId n t =>
    exact account_setHold.trans (Account.ext (hbalance _) rfl (hused hallowed))

/-- A change of a positive amount that is allowed can be made to the account. -/
lemma account_allows (hallowed : c.Allowed a) (hpos : 0 < c.amountMinor) :
    a.account.Allows c.movement := by
  cases c with
  | deposited n t => exact hpos
  | withdrawn n t => exact ⟨hpos, a.account_available.symm ▸ hallowed⟩
  | held holdId n =>
    exact ⟨hpos, a.account_available.symm ▸ hallowed.2, AList.lookup_eq_none.mp hallowed.1⟩
  | released holdId n => exact ⟨hpos, heldUnder_active hallowed⟩
  | consumed holdId n t => exact ⟨hpos, heldUnder_active hallowed⟩

end WalletAggregate

/-! ### The tables as a bank -/

/-- The bank of the wallets, with the accounts that their streams say. -/
noncomputable def bankOf (db : Database) : Bank String String ℤ := fun walletId =>
  if walletId ∈ db.wallets.map (·.id) then
    (rehydrate walletId (db.stream walletId)).toOption.map account
  else none

section Bank

variable {db : Database} {wallet : Wallet} {a a' : WalletAggregate} {e : StoredEvent}
variable {carrier : TraceCarrier}

lemma bankOf_mem (hwallet : wallet ∈ db.wallets)
    (h : rehydrate wallet.id (db.stream wallet.id) = .ok a) :
    bankOf db wallet.id = some a.account := by
  rw [bankOf, if_pos (List.mem_map_of_mem hwallet), h]
  rfl

lemma bankOf_notMem {walletId : String} (h : ∀ row ∈ db.wallets, row.id ≠ walletId) :
    bankOf db walletId = none := by
  refine if_neg fun hmem => ?_
  obtain ⟨row, hrow, hid⟩ := List.mem_map.mp hmem
  exact h row hrow hid

/-- A recorded event changes the account of its wallet. -/
lemma Recorded.bankOf_view (h : Recorded db wallet a e a') :
    bankOf (view db (records wallet e a' carrier)) =
      Function.update (bankOf db) wallet.id (some a'.account) := by
  funext walletId
  by_cases hid : walletId = wallet.id
  · subst hid
    rw [Function.update_self]
    refine bankOf_mem h.wallet_mem ?_
    rw [stream_records h.streamId, if_pos rfl]
    exact h.rehydrated_concat
  · rw [Function.update_of_ne hid]
    simp only [bankOf]
    rw [stream_records h.streamId, if_neg hid]
    rfl

/-- A change of a positive amount is a movement of the bank. -/
lemma Makes.moves {c : Change} {eventId : String} {now : Int} (h : Makes db wallet a c eventId now)
    (hpos : 0 < c.amountMinor) (carrier : TraceCarrier) :
    Bank.Moves (bankOf db) (wallet.id, c.movement)
      (bankOf (view db (records wallet (nextEvent wallet.id a.version (c.event wallet.id eventId) now)
        (c.result a) carrier))) := by
  rw [h.recorded.bankOf_view, account_result h.allowed]
  exact .mk (bankOf_mem h.recorded.wallet_mem h.recorded.rehydrated) (account_allows h.allowed hpos)

lemma account_created (wallet : Wallet) :
    account { empty wallet.id with
      version := 1, ownerId := some wallet.ownerId, currency := some wallet.currency } = .fresh := by
  ext holdId
  · rfl
  · rfl
  · exact iff_of_false (AList.notMem_empty holdId) id

/-- A new wallet is a new account. -/
lemma bankOf_created {eventId : String} {now : Int} (hempty : db.stream wallet.id = []) :
    bankOf (view db (creationWrites wallet eventId now carrier)) =
      Function.update (bankOf db) wallet.id (some .fresh) := by
  have hstream : ∀ walletId, (view db (creationWrites wallet eventId now carrier)).stream walletId =
      if walletId = wallet.id then [nextEvent wallet.id 0
        (createdEvent eventId wallet.ownerId wallet.currency) now] else db.stream walletId := by
    intro walletId
    rw [creationWrites, view_cons, stream_records rfl]
    change (if walletId = wallet.id then db.stream wallet.id ++ _ else db.stream walletId) = _
    rw [hempty, List.nil_append]
  have hwallets : (view db (creationWrites wallet eventId now carrier)).wallets =
      db.wallets ++ [wallet] := rfl
  funext walletId
  by_cases hid : walletId = wallet.id
  · subst hid
    rw [Function.update_self]
    refine (bankOf_mem (by rw [hwallets]; simp) ?_).trans (congrArg some (account_created wallet))
    rw [hstream, if_pos rfl]
    exact rehydrate_created wallet eventId now
  · rw [Function.update_of_ne hid]
    simp only [bankOf]
    rw [hstream, if_neg hid, hwallets]
    simp [hid]

end Bank

/-! ### Commits as operations -/

/-- What a commit has done to the bank, if anything; its command asks for that. -/
inductive Performs (job : Job) (c : LedgerCommit) : Option (Op String String ℤ) → Prop
  | nothing : c.writes = [] → Performs job c none
  | opened {walletId} : job.command.Creates → Performs job c (some (.opened walletId))
  | moved {wallet : Wallet} {change : Change} :
      change.MadeBy (job.draw 0) wallet.id wallet.ownerId job.command →
      Performs job c (some (.moved wallet.id change.movement))
  | paid {transferId dto n d} : job.command = .settleTransfer transferId dto →
      toPositiveMinorUnits dto.amount = .ok n →
      toPositiveMinorUnits (dto.destinationAmount.getD dto.amount) = .ok d →
      Performs job c (some (.paid dto.senderWalletId transferId n dto.receiverWalletId d))

/-- The amount of a change that is made is positive. -/
lemma Makes.amountMinor_pos {db : Database} {wallet : Wallet} {a : WalletAggregate} {c : Change}
    {eventId : String} {now : Int} {draw : Draw} {command : Command}
    (h : Makes db wallet a c eventId now) (hmade : c.MadeBy draw wallet.id wallet.ownerId command) :
    0 < c.amountMinor := by
  have hholds := (rehydrate_replayed h.recorded.rehydrated).holds_pos
  have hallowed := h.allowed
  cases hmade with
  | deposited hn => exact toMinorUnits_pos hn
  | withdrawn hn => exact toMinorUnits_pos hn
  | held _ hn => exact toMinorUnits_pos hn
  | released => exact hholds _ _ hallowed
  | consumed => exact hholds _ _ hallowed

/-- A settlement pays. -/
lemma Settles.pays {db : Database} {transferId : String} {dto : SettleInternalTransferDto}
    {receipt : LedgerTransferSettlement} {sender receiver : Wallet} {s s' r r' : WalletAggregate}
    {debit credit : StoredEvent} {carrier : TraceCarrier}
    (h : Settles db transferId dto receipt sender receiver s s' r r' debit credit) :
    Bank.Step (bankOf db) (.paid dto.senderWalletId transferId receipt.amountMinor
        dto.receiverWalletId receipt.destinationAmountMinor)
      (bankOf (view db (settlementWrites sender receiver debit credit s' r' carrier receipt))) := by
  obtain ⟨hsender, hreceiver, hn, -, hd, -⟩ := h.dto_matches
  obtain ⟨_, _, rfl, rfl, hdebit⟩ := h.debit_makes
  obtain ⟨_, _, rfl, rfl, hcredit⟩ := h.credit_makes
  have hframe := hcredit.frame hdebit.recorded.streamId h.distinct.symm
    ((Change.consumed transferId receipt.amountMinor transferId).result s) carrier
  rw [← hsender, ← hreceiver, ← h.sender_id, ← h.receiver_id]
  exact .paid h.distinct (hdebit.moves (toMinorUnits_pos hn) carrier)
    (hframe.moves (toMinorUnits_pos hd) carrier)

/-- Every commit is an operation of the bank, or leaves it alone. -/
lemma Effect.performs {db : Database} {job : Job} {c : LedgerCommit}
    (h : Effect job.draw job.startDb db job.command c.writes) :
    ∃ op, Performs job c op ∧ Bank.Run (bankOf db) op.toList (bankOf (view db c.writes)) := by
  obtain ⟨thread, body, ws, reply⟩ := c
  generalize hcommand : job.command = command at h
  dsimp only at h ⊢
  cases h with
  | noop _ => exact ⟨none, .nothing rfl, .nil⟩
  | @created _ wallet eventId now carrier hcreates _ hfresh hempty =>
    refine ⟨some (.opened wallet.id), .opened (hcommand ▸ hcreates), .snoc .nil ?_⟩
    rw [bankOf_created hempty]
    exact .opened (bankOf_notMem hfresh)
  | @recorded _ wallet _ _ _ _ carrier hdecides hrecorded =>
    obtain ⟨change, hmade, rfl, rfl, hmakes⟩ := hdecides.makes hrecorded
    exact ⟨some (.moved wallet.id change.movement), .moved (hcommand ▸ hmade),
      .snoc .nil (.moved (hmakes.moves (hmakes.amountMinor_pos hmade) carrier))⟩
  | @settled transferId dto receipt _ _ _ _ _ _ _ _ _ hsettles =>
    obtain ⟨-, -, hn, -, hd, -⟩ := hsettles.dto_matches
    exact ⟨some (.paid dto.senderWalletId transferId receipt.amountMinor dto.receiverWalletId
      receipt.destinationAmountMinor), .paid hcommand hn hd, .snoc .nil hsettles.pays⟩

/-! ### Runs -/

/-- The tables after a run of the bank with the operations of `history`. -/
structure KeepsBank (db : Database) (history : List (Option (Op String String ℤ))) : Prop where
  /-- The accounts are those that the operations lead to. -/
  run : Bank.Run Bank.empty history.reduceOption (bankOf db)
  /-- Every wallet has an account, and the ledger shows its balance and its funds. -/
  shown : ∀ wallet ∈ db.wallets, ∃ account, bankOf db wallet.id = some account ∧
    ∃ projection ∈ db.projections, projection.walletId = wallet.id ∧
      projection.balanceMinor = account.balance ∧ projection.heldMinor = account.held ∧
      projection.availableMinor = account.available
  /-- What is held is covered. -/
  covered : (bankOf db).Covered
  /-- A balance is what the operations have credited. -/
  balances : ∀ walletId, (bankOf db).balance walletId =
    ((Bank.movements history.reduceOption).map (Bank.credit walletId)).sum
  /-- A hold is reserved once, and released or collected once. -/
  holds : ∀ walletId holdId, Bank.Life (bankOf db walletId) holdId
    (Bank.ofHold walletId holdId (Bank.movements history.reduceOption))

/-- A run of the bank, and what follows for the tables. -/
lemma Consistent.keepsBank {db : Database} (h : Consistent db)
    {history : List (Option (Op String String ℤ))}
    (hrun : Bank.Run Bank.empty history.reduceOption (bankOf db)) : KeepsBank db history := by
  constructor
  case run => exact hrun
  case shown =>
    intro wallet hwallet
    obtain ⟨a, ha, -, -, hprojection⟩ := h.aggregate wallet hwallet
    exact ⟨a.account, bankOf_mem hwallet ha, projectionFromAggregate a, hprojection,
      (rehydrate_replayed ha).id, rfl, a.account_held.symm, a.account_available.symm⟩
  case covered => exact hrun.covered
  case balances => exact hrun.balance_eq
  case holds => exact hrun.life

/-- The operations of the commits so far. -/
def BankHistory (w : LedgerWorld) : Prop :=
  ∃ history, List.Forall₂ (fun c op => ∃ job, w.jobs c.thread = some job ∧ Performs job c op)
    w.log history ∧ Bank.Run Bank.empty history.reduceOption (bankOf w.db)

lemma BankHistory.commit {w : LedgerWorld} {c : LedgerCommit} {job : Job} (h : BankHistory w)
    (hjob : w.jobs c.thread = some job)
    (heffect : Effect job.draw job.startDb w.db job.command c.writes) : BankHistory (w.commit c) := by
  obtain ⟨history, hperforms, hrun⟩ := h
  obtain ⟨op, hop, hstep⟩ := heffect.performs
  refine ⟨history ++ [op], List.rel_append hperforms (.cons ⟨job, hjob, hop⟩ .nil), ?_⟩
  rw [List.reduceOption_append]
  refine hrun.append ?_
  cases op <;> exact hstep

/-- In every reachable state of the concurrent ledger: its commits, in the order of the log, are
operations of a bank that does one thing at a time, and those that their commands ask for; and the
ledger shows the accounts of this bank. -/
theorem ledger_refines_bank (setting : Setting) (users : List User) {s : LedgerSys}
    (hs : Reaches (ledger setting) (Sys.init (.initial users)) s) :
    ∃ history, List.Forall₂ (fun c op => ∃ job, s.world.jobs c.thread = some job ∧ Performs job c op)
      s.world.log history ∧ KeepsBank s.world.db history := by
  have hhistory : BankHistory s.world := by
    refine reaches_invariant (P := BankHistory) (reaches_ok .refl) ⟨[], .nil, ?_⟩
      (fun w c job _ hw _ hjob _ _ heffect _ => hw.commit hjob heffect)
      (fun w i command draw hinv hw hnone _ => ?_) hs
    · exact .nil
    · obtain ⟨history, hperforms, hrun⟩ := hw
      refine ⟨history, ?_, hrun⟩
      have hmem := (List.forall₂_and_left (p := (· ∈ w.log)) _ _).mpr ⟨fun _ hc => hc, hperforms⟩
      refine hmem.imp fun c op hop => ?_
      obtain ⟨hc, job, hjob, hop⟩ := hop
      exact ⟨job, (jobs_start hinv hnone hc).trans hjob, hop⟩
  obtain ⟨history, hperforms, hrun⟩ := hhistory
  exact ⟨history, hperforms, (reaches_ok hs).inv.1.keepsBank hrun⟩

/-- The accounts of Ann and Bob after `t` was settled. -/
theorem ledger_refines_bank_t :
    (servedBy freshLedger annAndBob settledRequests).world.db.settlements ≠ [] ∧
    ∃ history, List.Forall₂ (fun c op => ∃ job,
        (servedBy freshLedger annAndBob settledRequests).world.jobs c.thread = some job ∧
          Performs job c op)
      (servedBy freshLedger annAndBob settledRequests).world.log history ∧
      KeepsBank (servedBy freshLedger annAndBob settledRequests).world.db history := by
  have huuid : ∀ request ∈ settledRequests, ∀ n, freshLedger.uuid (request.2 n).transactionId := by
    simp [settledRequests, heldRequests, drawFor, freshLedger, openLedger]
  exact ⟨by decide +kernel, ledger_refines_bank freshLedger annAndBob
    (reaches_servedBy huuid fun _ _ _ _ _ _ _ => trivial)⟩

end Ledger

end PeerLedger
