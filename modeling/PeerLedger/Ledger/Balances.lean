import PeerLedger.Ledger.TransferHolds

/-!
# Where the balances come from

The balance of every wallet is what owners have deposited, less what they have withdrawn and what they
have consumed of its holds, plus the credits and less the debits of the receipts (`Booked`).  Summed
up over the wallets of one currency, this is the account of the whole currency
(`Booked.total_eq`): the wallets of a receipt have its currencies.

Movements of owners are counted by the commands that committed, not by the events that they wrote.
-/

namespace PeerLedger

namespace Ledger

open Transactions WalletAggregate

/-! ### Balances and movements -/

namespace Database

/-- The balance of a wallet according to its stream. -/
def balanceMinor (db : Database) (walletId : String) : Int :=
  match rehydrate walletId (db.stream walletId) with
  | .ok a => a.balanceMinor
  | .error _ => 0

/-- The amount of a hold. -/
def holdMinor (db : Database) (walletId holdId : String) : Int :=
  ((db.hold walletId holdId).map (·.amountMinor)).getD 0

end Database

/-- What receipts credit to a wallet. -/
def creditsMinor (receipts : List LedgerTransferSettlement) (walletId : String) : Int :=
  ((receipts.filter fun receipt => receipt.receiverWalletId = walletId).map
    (·.destinationAmountMinor)).sum

/-- What receipts debit from a wallet. -/
def debitsMinor (receipts : List LedgerTransferSettlement) (walletId : String) : Int :=
  ((receipts.filter fun receipt => receipt.senderWalletId = walletId).map (·.amountMinor)).sum

lemma creditsMinor_append (receipts receipts' : List LedgerTransferSettlement) (walletId : String) :
    creditsMinor (receipts ++ receipts') walletId =
      creditsMinor receipts walletId + creditsMinor receipts' walletId := by
  simp [creditsMinor]

lemma debitsMinor_append (receipts receipts' : List LedgerTransferSettlement) (walletId : String) :
    debitsMinor (receipts ++ receipts') walletId =
      debitsMinor receipts walletId + debitsMinor receipts' walletId := by
  simp [debitsMinor]

namespace Command

/-- What a command deposits in a wallet. -/
def deposited (walletId : String) : Command → Int
  | .deposit walletId' _ amount => if walletId' = walletId then mathRound (amount * 100) else 0
  | _ => 0

/-- What a command withdraws from a wallet. -/
def withdrawn (walletId : String) : Command → Int
  | .withdraw walletId' _ amount => if walletId' = walletId then mathRound (amount * 100) else 0
  | _ => 0

/-- What a command of an owner consumes of the holds of a wallet. -/
def consumed (db : Database) (walletId : String) : Command → Int
  | .consumeHold walletId' _ holdId => if walletId' = walletId then db.holdMinor walletId holdId else 0
  | _ => 0

end Command

/-- What a commit has moved, by the command that its thread executes; a commit without writes has
moved nothing. -/
def LedgerWorld.movement (w : LedgerWorld) (f : Command → Int) (c : LedgerCommit) : Int :=
  if c.writes.isEmpty then 0 else ((w.jobs c.thread).map fun job => f job.command).getD 0

/-- What all commits have moved. -/
def LedgerWorld.moved (w : LedgerWorld) (f : Command → Int) : Int := (w.log.map (w.movement f)).sum

/-- The books of the ledger. -/
structure Booked (w : LedgerWorld) : Prop where
  /-- The holds that owners have consumed. -/
  consumed : ∀ c ∈ w.log, c.writes ≠ [] → ∀ job walletId ownerId holdId,
    w.jobs c.thread = some job → job.command = .consumeHold walletId ownerId holdId →
    ∃ n, w.db.hold walletId holdId = some ⟨n, .consumed⟩
  /-- The wallets of a receipt have its currencies. -/
  currencies : ∀ receipt ∈ w.db.settlements,
    (∃ wallet ∈ w.db.wallets, wallet.id = receipt.senderWalletId ∧
      wallet.currency = receipt.currency) ∧
    ∃ wallet ∈ w.db.wallets, wallet.id = receipt.receiverWalletId ∧
      wallet.currency = receipt.destinationCurrency
  balances : ∀ walletId, w.db.balanceMinor walletId =
    w.moved (Command.deposited walletId) - w.moved (Command.withdrawn walletId) -
      w.moved (Command.consumed w.db walletId) + creditsMinor w.db.settlements walletId -
      debitsMinor w.db.settlements walletId

/-! ### What a commit does to one balance -/

section Effect

variable {db : Database} {walletId : String}

lemma toMinorUnits_eq {message : String} {amount : ℚ} {n : Int}
    (h : toMinorUnits message amount = .ok n) : mathRound (amount * 100) = n := by
  rw [toMinorUnits, amountToMinorUnits] at h
  by_cases hsafe : -MAX_SAFE_INTEGER ≤ mathRound (amount * 100) ∧
      mathRound (amount * 100) ≤ MAX_SAFE_INTEGER
  · rw [if_pos hsafe] at h
    dsimp only at h
    split at h
    · cases h
    · exact Except.ok.inj h
  · rw [if_neg hsafe] at h
    cases h

lemma Database.balanceMinor_of_rehydrate {a : WalletAggregate}
    (h : rehydrate walletId (db.stream walletId) = .ok a) : db.balanceMinor walletId = a.balanceMinor := by
  simp [Database.balanceMinor, h]

/-- A change changes the balance of its own wallet only. -/
lemma Makes.balance_view {wallet : Wallet} {a : WalletAggregate} {c : Change} {eventId : String}
    {now : Int} (h : Makes db wallet a c eventId now) (carrier : TraceCarrier) (walletId : String) :
    (view db (records wallet (nextEvent wallet.id a.version (c.event wallet.id eventId) now)
        (c.result a) carrier)).balanceMinor walletId =
      db.balanceMinor walletId + if walletId = wallet.id then c.balanceMinor else 0 := by
  by_cases hid : walletId = wallet.id
  · subst hid
    rw [if_pos rfl, Database.balanceMinor_of_rehydrate h.recorded.rehydrated]
    refine (Database.balanceMinor_of_rehydrate (a := c.result a) ?_).trans rfl
    rw [stream_records h.recorded.streamId, if_pos rfl]
    exact h.recorded.rehydrated_concat
  · rw [if_neg hid, add_zero, Database.balanceMinor, stream_records h.recorded.streamId, if_neg hid]
    rfl

/-- A new wallet has no balance. -/
lemma balance_created {wallet : Wallet} {eventId : String} {now : Int} {carrier : TraceCarrier}
    (hempty : db.stream wallet.id = []) (walletId : String) :
    (view db (creationWrites wallet eventId now carrier)).balanceMinor walletId =
      db.balanceMinor walletId := by
  have hstream : (view db (creationWrites wallet eventId now carrier)).stream walletId =
      if walletId = wallet.id then [nextEvent wallet.id 0
        (createdEvent eventId wallet.ownerId wallet.currency) now] else db.stream walletId := by
    rw [creationWrites, view_cons, stream_records rfl]
    change (if walletId = wallet.id then db.stream wallet.id ++ _ else db.stream walletId) = _
    rw [hempty, List.nil_append]
  rw [Database.balanceMinor, Database.balanceMinor, hstream]
  split_ifs with hid
  · subst hid
    rw [rehydrate_created, hempty]
    rfl
  · rfl

/-- The movement of a command of an owner is that of its change. -/
lemma Change.MadeBy.movement {draw : Draw} {id ownerId : String} {a : WalletAggregate} {c : Change}
    {command : Command} (h : c.MadeBy draw id ownerId command) (hallowed : c.Allowed a)
    (ha : rehydrate id (db.stream id) = .ok a) (walletId : String) :
    command.deposited walletId - command.withdrawn walletId - command.consumed db walletId =
      if walletId = id then c.balanceMinor else 0 := by
  have hid : (id = walletId) = (walletId = id) := propext eq_comm
  cases h with
  | deposited hn =>
    simp [Command.deposited, Command.withdrawn, Command.consumed, Change.balanceMinor,
      Change.postings, toMinorUnits_eq hn, hid]
  | withdrawn hn =>
    by_cases hwallet : walletId = id <;>
      simp [Command.deposited, Command.withdrawn, Command.consumed, Change.balanceMinor,
        Change.postings, toMinorUnits_eq hn, hid, hwallet]
  | held hplaces hn =>
    cases hplaces <;>
      simp [Command.deposited, Command.withdrawn, Command.consumed, Change.balanceMinor,
        Change.postings]
  | released hreleases =>
    cases hreleases <;>
      simp [Command.deposited, Command.withdrawn, Command.consumed, Change.balanceMinor,
        Change.postings]
  | @consumed holdId n =>
    have hhold : db.hold id holdId = some ⟨n, .active⟩ :=
      (Database.hold_of_rehydrate ha).trans hallowed
    by_cases hwallet : walletId = id
    · subst hwallet
      simp [Command.deposited, Command.withdrawn, Command.consumed, Change.balanceMinor,
        Change.postings, Database.holdMinor, hhold]
    · simp [Command.deposited, Command.withdrawn, Command.consumed, hid, hwallet]

/-- What a settlement does to one balance. -/
lemma Settles.balance {transferId : String} {dto : SettleInternalTransferDto}
    {receipt : LedgerTransferSettlement} {sender receiver : Wallet} {s s' r r' : WalletAggregate}
    {debit credit : StoredEvent}
    (h : Settles db transferId dto receipt sender receiver s s' r r' debit credit)
    (carrier : TraceCarrier) (walletId : String) :
    (view db (settlementWrites sender receiver debit credit s' r' carrier receipt)).balanceMinor
        walletId =
      db.balanceMinor walletId + creditsMinor [receipt] walletId - debitsMinor [receipt] walletId := by
  obtain ⟨_, _, rfl, rfl, hdebit⟩ := h.debit_makes
  obtain ⟨_, _, rfl, rfl, hcredit⟩ := h.credit_makes
  -- the credit is recorded on the contents after the debit
  have hframe := hcredit.frame hdebit.recorded.streamId h.distinct.symm
    ((Change.consumed transferId receipt.amountMinor transferId).result s) carrier
  refine (hframe.balance_view carrier walletId).trans ?_
  rw [hdebit.balance_view carrier walletId, h.sender_id, h.receiver_id]
  simp only [creditsMinor, debitsMinor, List.filter_cons, List.filter_nil, decide_eq_true_eq,
    Change.balanceMinor, Change.postings, List.sum_cons, List.sum_nil, add_zero,
    eq_comm (a := walletId)]
  split_ifs <;> simp <;> ring

/-- What a commit of a command does to one balance. -/
lemma Effect.balance {draw : Nat → Draw} {startDb : Database} {command : Command} {ws : List Write}
    (h : Effect draw startDb db command ws) (hne : ws ≠ []) (walletId : String) :
    (view db ws).balanceMinor walletId = db.balanceMinor walletId +
      (command.deposited walletId - command.withdrawn walletId - command.consumed db walletId) +
      (creditsMinor (insertedSettlements ws) walletId -
        debitsMinor (insertedSettlements ws) walletId) := by
  have hnone : ∀ ws : List Write, insertedSettlements ws = [] →
      creditsMinor (insertedSettlements ws) walletId -
        debitsMinor (insertedSettlements ws) walletId = 0 := by
    intro ws hws
    rw [hws]
    rfl
  cases h with
  | noop _ => exact absurd rfl hne
  | created hcreates _ _ hempty =>
    rw [balance_created hempty, hnone (creationWrites _ _ _ _) rfl]
    cases hcreates <;> simp [Command.deposited, Command.withdrawn, Command.consumed]
  | recorded hdecides hrecorded =>
    obtain ⟨c, hmade, rfl, rfl, hmakes⟩ := hdecides.makes hrecorded
    rw [hmakes.balance_view, hnone (records _ _ _ _) rfl,
      hmade.movement hmakes.allowed hmakes.recorded.rehydrated, add_zero]
  | settled h =>
    rw [h.balance]
    change _ = _ + (0 - 0 - 0) + (creditsMinor [_] walletId - debitsMinor [_] walletId)
    ring

/-- An owner consumes an active hold. -/
lemma Effect.consumeHold {draw : Nat → Draw} {startDb : Database} {command : Command}
    {ws : List Write} {ownerId holdId : String} (h : Effect draw startDb db command ws)
    (hcommand : command = .consumeHold walletId ownerId holdId) (hne : ws ≠ []) :
    ∃ n, db.hold walletId holdId = some ⟨n, .active⟩ ∧
      (view db ws).hold walletId holdId = some ⟨n, .consumed⟩ := by
  cases h with
  | noop _ => exact absurd rfl hne
  | created hcreates =>
    subst hcommand
    cases hcreates
  | @recorded _ wallet a a' event now carrier hdecides hrecorded =>
    obtain ⟨c, hmade, rfl, rfl, hmakes⟩ := hdecides.makes hrecorded
    have hafter := hmakes.hold_cases carrier walletId holdId
    have hallowed := hmakes.allowed
    have hbefore : db.hold wallet.id holdId = a.holds.lookup holdId :=
      Database.hold_of_rehydrate hmakes.recorded.rehydrated
    cases hmade with
    | deposited => cases hcommand
    | withdrawn => cases hcommand
    | held hplaces =>
      subst hcommand
      cases hplaces
    | released hreleases =>
      subst hcommand
      cases hreleases
    | consumed =>
      obtain ⟨hid, -, rfl⟩ := Command.consumeHold.inj hcommand
      rw [hid] at hbefore
      exact ⟨_, hbefore.trans hallowed, hafter.trans (if_pos ⟨hid.symm, rfl⟩)⟩
  | settled => cases hcommand

end Effect

/-! ### The books stay right -/

section Booked

variable {setting : Setting} {w : LedgerWorld} {c : LedgerCommit} {job : Job}

/-- The movements of the log and that of the commit. -/
lemma moved_commit (f : Command → Int) :
    (w.commit c).moved f = w.moved f + w.movement f c := by
  have hsame : (w.commit c).movement f = w.movement f := rfl
  rw [LedgerWorld.moved, hsame, LedgerWorld.moved]
  simp [LedgerWorld.commit]

/-- Movements that agree on the commands of all commits with writes. -/
lemma moved_congr {f g : Command → Int} (h : ∀ c ∈ w.log, c.writes ≠ [] → ∀ job,
    w.jobs c.thread = some job → f job.command = g job.command) : w.moved f = w.moved g := by
  rw [LedgerWorld.moved, LedgerWorld.moved]
  refine congrArg List.sum (List.map_congr_left fun c hc => ?_)
  rw [LedgerWorld.movement, LedgerWorld.movement]
  by_cases hws : c.writes = []
  · simp [hws]
  · cases hjob : w.jobs c.thread with
    | none => rfl
    | some job => simp [h c hc hws job hjob]

/-- Holds that were consumed keep their amounts, and so does the one that a commit consumes. -/
lemma Booked.moved_consumed (h : Booked w) (hjob : w.jobs c.thread = some job)
    (heffect : Effect job.draw job.startDb w.db job.command c.writes) (walletId : String) :
    (w.commit c).moved (Command.consumed (w.commit c).db walletId) =
      w.moved (Command.consumed w.db walletId) +
        w.movement (Command.consumed w.db walletId) c := by
  rw [← moved_commit]
  refine moved_congr fun c' hc' hws job' hjob' => ?_
  cases hcommand : job'.command with
  | consumeHold walletId' ownerId holdId =>
    have hholds : ∃ n status, w.db.hold walletId' holdId = some ⟨n, status⟩ ∧
        (w.commit c).db.hold walletId' holdId = some ⟨n, .consumed⟩ := by
      rcases List.mem_append.mp hc' with hold | hlast
      · obtain ⟨n, hhold⟩ := h.consumed c' hold hws job' walletId' ownerId holdId hjob' hcommand
        exact ⟨n, _, hhold, heffect.hold_consumed hhold⟩
      · obtain rfl := List.mem_singleton.mp hlast
        obtain rfl := Option.some.inj (hjob'.symm.trans hjob)
        obtain ⟨n, hbefore, hafter⟩ := heffect.consumeHold hcommand hws
        exact ⟨n, _, hbefore, hafter⟩
    obtain ⟨n, status, hbefore, hafter⟩ := hholds
    by_cases hid : walletId' = walletId
    · subst hid
      simp [Command.consumed, Database.holdMinor, hbefore, hafter]
    · simp [Command.consumed, hid]
  | _ => rfl

/-- Every commit keeps the books. -/
lemma Booked.commit (h : Booked w) (hjob : w.jobs c.thread = some job)
    (heffect : Effect job.draw job.startDb w.db job.command c.writes) : Booked (w.commit c) := by
  constructor
  case consumed =>
    intro c' hc' hws job' walletId ownerId holdId hjob' hcommand
    rcases List.mem_append.mp hc' with hold | hlast
    · obtain ⟨n, hhold⟩ := h.consumed c' hold hws job' walletId ownerId holdId hjob' hcommand
      exact ⟨n, heffect.hold_consumed hhold⟩
    · obtain rfl := List.mem_singleton.mp hlast
      obtain rfl := Option.some.inj (hjob'.symm.trans hjob)
      obtain ⟨n, -, hafter⟩ := heffect.consumeHold hcommand hws
      exact ⟨n, hafter⟩
  case currencies =>
    intro receipt hmem
    have hgrows : w.db.wallets ⊆ (view w.db c.writes).wallets := by
      rw [wallets_view]
      exact List.subset_append_left _ _
    change receipt ∈ (view w.db c.writes).settlements at hmem
    change (∃ wallet ∈ (view w.db c.writes).wallets, _) ∧
      ∃ wallet ∈ (view w.db c.writes).wallets, _
    rw [settlements_view] at hmem
    rcases List.mem_append.mp hmem with hmem | hmem
    · obtain ⟨⟨sender, hs, hsender⟩, receiver, hr, hreceiver⟩ := h.currencies receipt hmem
      exact ⟨⟨sender, hgrows hs, hsender⟩, receiver, hgrows hr, hreceiver⟩
    · generalize c.writes = ws at heffect hmem hgrows
      generalize job.command = command at heffect
      cases heffect with
      | noop => cases hmem
      | created => cases hmem
      | recorded => cases hmem
      | @settled _ _ row sender receiver _ _ _ _ _ _ _ hsettles =>
        obtain rfl : receipt = row := List.mem_singleton.mp hmem
        exact ⟨⟨sender, hgrows hsettles.debit_recorded.wallet_mem, hsettles.sender_id,
          hsettles.sender_currency⟩, receiver, hgrows hsettles.credit_recorded.wallet_mem,
          hsettles.receiver_id, hsettles.receiver_currency⟩
  case balances =>
    intro walletId
    have hbefore := h.balances walletId
    rw [h.moved_consumed hjob heffect, moved_commit, moved_commit]
    change (view w.db c.writes).balanceMinor walletId = _ +
      creditsMinor (view w.db c.writes).settlements _ - debitsMinor (view w.db c.writes).settlements _
    rw [settlements_view, creditsMinor_append, debitsMinor_append]
    by_cases hws : c.writes = []
    · simp only [hws, LedgerWorld.movement, List.isEmpty_nil, if_true]
      change w.db.balanceMinor walletId = _ + (_ + 0) - (_ + 0)
      linarith
    · have hmovement : ∀ f, w.movement f c = f job.command := fun f => by
        simp [LedgerWorld.movement, hws, hjob]
      rw [heffect.balance hws, hmovement, hmovement, hmovement]
      linarith

/-- Starting a command changes nothing in the books. -/
lemma Booked.start {i : Nat} {command : Command} {draw : Nat → Draw} (h : Booked w)
    (hinv : (ledgerProtocol setting).inv w) (hnone : w.jobs i = none) :
    Booked (w.start i command draw) := by
  have hjobs : ∀ c ∈ w.log, (w.start i command draw).jobs c.thread = w.jobs c.thread :=
    fun c hc => jobs_start hinv hnone hc
  have hmoved : ∀ f, (w.start i command draw).moved f = w.moved f := by
    intro f
    refine congrArg List.sum (List.map_congr_left fun c hc => ?_)
    rw [LedgerWorld.movement, LedgerWorld.movement, hjobs c hc]
  constructor
  case consumed =>
    intro c hc hws job walletId ownerId holdId hjob
    rw [hjobs c hc] at hjob
    exact h.consumed c hc hws job walletId ownerId holdId hjob
  case currencies => exact h.currencies
  case balances =>
    intro walletId
    rw [hmoved, hmoved, hmoved]
    exact h.balances walletId

lemma Booked.initial (users : List User) : Booked (.initial users) where
  consumed _ h := nomatch h
  currencies _ h := nomatch h
  balances _ := rfl

end Booked

/-! ### Totals of a currency -/

namespace Database

/-- The wallets of a currency. -/
def walletsIn (db : Database) (currency : String) : List Wallet :=
  db.wallets.filter fun wallet => wallet.currency = currency

/-- The sum of the balances of a currency. -/
def totalMinor (db : Database) (currency : String) : Int :=
  ((db.walletsIn currency).map fun wallet => db.balanceMinor wallet.id).sum

end Database

namespace LedgerWorld

/-- All deposits of a currency. -/
def depositsMinor (w : LedgerWorld) (currency : String) : Int :=
  ((w.db.walletsIn currency).map fun wallet => w.moved (Command.deposited wallet.id)).sum

/-- All withdrawals of a currency. -/
def withdrawalsMinor (w : LedgerWorld) (currency : String) : Int :=
  ((w.db.walletsIn currency).map fun wallet => w.moved (Command.withdrawn wallet.id)).sum

/-- All holds of a currency that owners have consumed. -/
def consumedMinor (w : LedgerWorld) (currency : String) : Int :=
  ((w.db.walletsIn currency).map fun wallet => w.moved (Command.consumed w.db wallet.id)).sum

end LedgerWorld

lemma sum_map_sub {α : Type} (xs : List α) (f g : α → Int) :
    (xs.map fun x => f x - g x).sum = (xs.map f).sum - (xs.map g).sum := by
  induction xs with
  | nil => rfl
  | cons x xs ih =>
    simp only [List.map_cons, List.sum_cons, ih]
    ring

/-- One amount for one of the wallets counts in the currency of this wallet. -/
lemma sum_one_wallet {wallets : List Wallet} (hids : (wallets.map (·.id)).Nodup) {wallet : Wallet}
    (hmem : wallet ∈ wallets) (currency : String) (n : Int) :
    ((wallets.filter fun other => other.currency = currency).map fun other =>
      if wallet.id = other.id then n else 0).sum = if wallet.currency = currency then n else 0 := by
  induction wallets with
  | nil => cases hmem
  | cons first rest ih =>
    rw [List.map_cons, List.nodup_cons] at hids
    have hcons : (((first :: rest).filter fun other => other.currency = currency).map fun other =>
        if wallet.id = other.id then n else 0).sum =
        (if first.currency = currency then if wallet.id = first.id then n else 0 else 0) +
        ((rest.filter fun other => other.currency = currency).map fun other =>
          if wallet.id = other.id then n else 0).sum := by
      by_cases hcurrency : first.currency = currency <;> simp [hcurrency]
    rw [hcons]
    rcases List.mem_cons.mp hmem with rfl | hmem
    · -- none of the other wallets has its id
      have hzero : ((rest.filter fun other => other.currency = currency).map fun other =>
          if wallet.id = other.id then n else 0).sum = 0 := by
        refine List.sum_eq_zero fun x hx => ?_
        obtain ⟨other, hother, rfl⟩ := List.mem_map.mp hx
        refine if_neg fun heq => hids.1 ?_
        rw [heq]
        exact List.mem_map_of_mem (List.mem_of_mem_filter hother)
      rw [hzero, if_pos rfl, add_zero]
    · have hne : wallet.id ≠ first.id := fun heq => hids.1 (heq ▸ List.mem_map_of_mem hmem)
      rw [ih hids.2 hmem, if_neg hne, ite_self, zero_add]

/-- Amounts for wallets, summed up over the wallets of one currency. -/
lemma sum_wallets {α : Type} {wallets : List Wallet} (hids : (wallets.map (·.id)).Nodup)
    (receipts : List α) (walletId currencyOf : α → String) (minor : α → Int)
    (h : ∀ receipt ∈ receipts, ∃ wallet ∈ wallets, wallet.id = walletId receipt ∧
      wallet.currency = currencyOf receipt) (currency : String) :
    ((wallets.filter fun wallet => wallet.currency = currency).map fun wallet =>
      ((receipts.filter fun receipt => walletId receipt = wallet.id).map minor).sum).sum =
      ((receipts.filter fun receipt => currencyOf receipt = currency).map minor).sum := by
  induction receipts with
  | nil => simp
  | cons receipt receipts ih =>
    have hcons : ∀ p : α → Prop, [DecidablePred p] →
        (((receipt :: receipts).filter fun receipt => p receipt).map minor).sum =
          (if p receipt then minor receipt else 0) +
            ((receipts.filter fun receipt => p receipt).map minor).sum := by
      intro p _
      by_cases hp : p receipt <;> simp [hp]
    obtain ⟨wallet, hmem, hid, hcurrency⟩ := h receipt List.mem_cons_self
    rw [hcons, ← ih fun other hother => h other (List.mem_cons_of_mem _ hother), ← hcurrency,
      ← sum_one_wallet hids hmem, ← List.sum_map_add]
    refine congrArg List.sum (List.map_congr_left fun other _ => ?_)
    rw [hcons, hid]

/-- What a settlement does to the total of a currency. -/
lemma Settles.total {db : Database} {transferId : String} {dto : SettleInternalTransferDto}
    {receipt : LedgerTransferSettlement} {sender receiver : Wallet} {s s' r r' : WalletAggregate}
    {debit credit : StoredEvent}
    (h : Settles db transferId dto receipt sender receiver s s' r r' debit credit)
    (carrier : TraceCarrier) (hids : (db.wallets.map (·.id)).Nodup) (currency : String) :
    (view db (settlementWrites sender receiver debit credit s' r' carrier receipt)).totalMinor
        currency = db.totalMinor currency +
      (if receipt.destinationCurrency = currency then receipt.destinationAmountMinor else 0) -
      if receipt.currency = currency then receipt.amountMinor else 0 := by
  have hcredit := sum_wallets hids [receipt] (·.receiverWalletId) (·.destinationCurrency)
    (·.destinationAmountMinor) (by
      rintro _ ⟨⟩
      · exact ⟨receiver, h.credit_recorded.wallet_mem, h.receiver_id, h.receiver_currency⟩
      · contradiction) currency
  have hdebit := sum_wallets hids [receipt] (·.senderWalletId) (·.currency) (·.amountMinor) (by
      rintro _ ⟨⟩
      · exact ⟨sender, h.debit_recorded.wallet_mem, h.sender_id, h.sender_currency⟩
      · contradiction) currency
  have hone : ∀ (p : LedgerTransferSettlement → Prop) [DecidablePred p]
      (f : LedgerTransferSettlement → Int),
      (([receipt].filter fun row => p row).map f).sum = if p receipt then f receipt else 0 := by
    intro p _ f
    by_cases hp : p receipt <;> simp [hp]
  rw [← hone (·.destinationCurrency = currency) (·.destinationAmountMinor),
    ← hone (·.currency = currency) (·.amountMinor), ← hcredit, ← hdebit]
  change ((db.walletsIn currency).map fun wallet => (view db _).balanceMinor wallet.id).sum = _
  simp only [h.balance]
  rw [sum_map_sub, List.sum_map_add]
  rfl

/-- What the commit of a receipt does to the total of a currency. -/
lemma Effect.total {draw : Nat → Draw} {startDb db : Database} {command : Command}
    {ws : List Write} {receipt : LedgerTransferSettlement} (h : Effect draw startDb db command ws)
    (hids : (db.wallets.map (·.id)).Nodup) (hreceipt : insertedSettlements ws = [receipt])
    (currency : String) :
    (view db ws).totalMinor currency = db.totalMinor currency +
      (if receipt.destinationCurrency = currency then receipt.destinationAmountMinor else 0) -
      if receipt.currency = currency then receipt.amountMinor else 0 := by
  cases h with
  | noop => cases hreceipt
  | created => cases hreceipt
  | recorded => cases hreceipt
  | settled hsettles =>
    obtain rfl := List.singleton_inj.mp hreceipt
    exact hsettles.total _ hids currency

/-- The projection of a wallet shows its balance. -/
lemma Consistent.shows_balance {db : Database} (h : Consistent db) {wallet : Wallet}
    (hwallet : wallet ∈ db.wallets) :
    ∃ projection ∈ db.projections, projection.walletId = wallet.id ∧
      projection.balanceMinor = db.balanceMinor wallet.id := by
  obtain ⟨a, ha, -, -, hprojection⟩ := h.aggregate wallet hwallet
  exact ⟨_, hprojection, (rehydrate_replayed ha).id, (Database.balanceMinor_of_rehydrate ha).symm⟩

/-- The account of a whole currency. -/
lemma Booked.total_eq {w : LedgerWorld} (h : Booked w) (hids : (w.db.wallets.map (·.id)).Nodup)
    (currency : String) :
    w.db.totalMinor currency =
      w.depositsMinor currency - w.withdrawalsMinor currency - w.consumedMinor currency +
      ((w.db.settlements.filter fun receipt => receipt.destinationCurrency = currency).map
        (·.destinationAmountMinor)).sum -
      ((w.db.settlements.filter fun receipt => receipt.currency = currency).map
        (·.amountMinor)).sum := by
  rw [← sum_wallets hids w.db.settlements _ _ _ fun receipt hmem => (h.currencies receipt hmem).2,
    ← sum_wallets hids w.db.settlements _ _ _ fun receipt hmem => (h.currencies receipt hmem).1]
  simp only [Database.totalMinor, LedgerWorld.depositsMinor, LedgerWorld.withdrawalsMinor,
    LedgerWorld.consumedMinor, h.balances]
  rw [sum_map_sub, List.sum_map_add, sum_map_sub, sum_map_sub]
  rfl

end Ledger

end PeerLedger
