import PeerLedger.Ledger.Serializability

/-!
# Conflicts between commands

A command loses an attempt against another command that appends to one of its streams, or that
settles its transfer, between the attempt's reads and its writes.  `conflicts` counts the commits of
the others that can do this.

`Fails` says how an attempt fails: against such a commit (`conflicts` has grown), because a drawn id is
taken, or with an error that the transaction would have thrown alone on something that was committed
meanwhile.  The rules of the statements already tell these cases apart.
-/

namespace PeerLedger

namespace Ledger

open Transactions WalletAggregate

/-! ### Counting conflicts -/

/-- The wallet of the owner on which a deposit, a withdrawal or a hold command works. -/
def Command.walletId : Command → Option String
  | .deposit walletId _ _ => some walletId
  | .withdraw walletId _ _ => some walletId
  | .placeHold walletId _ _ _ => some walletId
  | .releaseHold walletId _ _ => some walletId
  | .consumeHold walletId _ _ => some walletId
  | .placeTransferHold _ dto => some dto.senderWalletId
  | .releaseTransferHold _ dto => some dto.senderWalletId
  | .getOrCreateForUser _ _ => none
  | .validateTransfer _ => none
  | .settleTransfer _ _ => none

/-- The command names its wallet in another spelling than the database prints. -/
def Command.Misspells (command : Command) : Prop :=
  ∃ walletId, command.walletId = some walletId ∧ uuid walletId ≠ walletId

/-- The streams to which a command appends. -/
def Command.streams : Command → List String
  | .settleTransfer _ dto => [dto.senderWalletId, dto.receiverWalletId]
  | command => (command.walletId.map uuid).toList

/-- A command appends to the stream of the wallet that it names. -/
lemma Command.mem_streams {command : Command} {walletId : String}
    (h : command.walletId = some walletId) : uuid walletId ∈ command.streams := by
  cases command <;> simp_all [Command.walletId, Command.streams]

/-- The transfer whose receipt a command inserts. -/
def Command.settles : Command → Option String
  | .settleTransfer transferId _ => some transferId
  | _ => none

/-- The write appends to a stream of the command, or is the receipt of its transfer. -/
def Command.conflictsWith (command : Command) : Write → Bool
  | .insertEvent event => event.streamId ∈ command.streams
  | .insertSettlement receipt => command.settles = some receipt.transferId
  | _ => false

/-- The commits of threads other than `i` that are in conflict with the command. -/
def conflicts (command : Command) (i : Nat) (log : List LedgerCommit) : Nat :=
  log.countP fun c => c.thread ≠ i && c.writes.any command.conflictsWith

variable {setting : Setting} {i : Nat} {p : List Write} {w w' : LedgerWorld} {job : Job}

lemma conflicts_append (command : Command) (i : Nat) (log log' : List LedgerCommit) :
    conflicts command i (log ++ log') = conflicts command i log + conflicts command i log' :=
  List.countP_append

/-- Writes that are in no conflict with a command leave its streams alone. -/
lemma stream_of_no_conflict {command : Command} {ws : List Write} (db : Database)
    (h : ws.any command.conflictsWith = false) {streamId : String}
    (hid : streamId ∈ command.streams) : (view db ws).stream streamId = db.stream streamId := by
  rw [stream_view, List.filter_eq_nil_iff.mpr, List.append_nil]
  intro event hevent hstream
  have hconflict := List.any_eq_false.mp h _ (mem_insertedEvents.mp hevent)
  have hstream : event.streamId = streamId := by simpa using hstream
  exact hconflict (by simpa [Command.conflictsWith, hstream] using hid)

/-- Writes that are in no conflict with a settlement insert no receipt of its transfer. -/
lemma settlements_of_no_conflict {command : Command} {ws : List Write} {transferId : String}
    (h : ws.any command.conflictsWith = false) (hsettles : command.settles = some transferId)
    {receipt : LedgerTransferSettlement} (hmem : receipt ∈ insertedSettlements ws) :
    receipt.transferId ≠ transferId := by
  rintro rfl
  have hconflict := List.any_eq_false.mp h _ (mem_insertedSettlements.mp hmem)
  exact hconflict (by simpa [Command.conflictsWith] using hsettles)

/-- The transfer of the command has got no receipt. -/
def Command.Unsettled (command : Command) (db db' : Database) : Prop :=
  ∀ transferId, command.settles = some transferId → ∀ receipt ∈ db'.settlements,
    receipt.transferId = transferId → receipt ∈ db.settlements

/-- What a command works on is as it was. -/
def Command.Unmoved (command : Command) (db db' : Database) : Prop :=
  (∀ streamId ∈ command.streams, db'.stream streamId = db.stream streamId) ∧
    command.Unsettled db db'

/-- The conflicts add up, and without a further one what the command works on is as it was. -/
lemma later_conflicts (command : Command)
    (h : Later (ledger setting) (ledgerProtocol setting) i p w w') :
    conflicts command i w.log ≤ conflicts command i w'.log ∧
      (conflicts command i w'.log = conflicts command i w.log → command.Unmoved w.db w'.db) := by
  refine Later.rel (R := fun w w' : LedgerWorld =>
    conflicts command i w.log ≤ conflicts command i w'.log ∧
      (conflicts command i w'.log = conflicts command i w.log → command.Unmoved w.db w'.db))
    (fun w => ⟨le_rfl, fun _ => ⟨fun _ _ => rfl, fun _ _ _ hmem _ => hmem⟩⟩) (fun a b c hab hbc => ?_)
    (fun a b hab => ?_) h
  · refine ⟨hab.1.trans hbc.1, fun heq => ?_⟩
    have hfirst := hab.2 (le_antisymm (hbc.1.trans heq.le) hab.1)
    have hsecond := hbc.2 (le_antisymm (heq.le.trans hab.1) hbc.1)
    exact ⟨fun streamId hid => (hsecond.1 streamId hid).trans (hfirst.1 streamId hid),
      fun t ht receipt hmem hr => hfirst.2 t ht receipt (hsecond.2 t ht receipt hmem hr) hr⟩
  cases hab with
  | env _ he => exact he.elim
  | @commit c _ _ hne _ _ _ _ =>
    change conflicts command i a.log ≤ conflicts command i (a.log ++ [c]) ∧
      (conflicts command i (a.log ++ [c]) = conflicts command i a.log →
        command.Unmoved a.db (view a.db c.writes))
    rw [conflicts_append]
    refine ⟨Nat.le_add_right _ _, fun heq => ?_⟩
    have hzero : conflicts command i [c] = 0 := by omega
    have hno : c.writes.any command.conflictsWith = false := by
      have hc := List.countP_eq_zero.mp hzero c (List.mem_singleton_self c)
      simpa [hne] using hc
    refine ⟨fun streamId hid => stream_of_no_conflict a.db hno hid, fun t ht receipt hmem hr => ?_⟩
    rw [settlements_view] at hmem
    exact (List.mem_append.mp hmem).resolve_right fun hmem =>
      settlements_of_no_conflict hno ht hmem hr
  | @issue _ _ _ q => exact nomatch q
  | start _ _ hs =>
    obtain ⟨-, command', draw, -, -, rfl⟩ := hs
    exact ⟨le_rfl, fun _ => ⟨fun _ _ => rfl, fun _ _ _ hmem _ => hmem⟩⟩

/-- A stream of the command has moved: there was a conflict. -/
lemma conflict_of_stream {command : Command}
    (h : Later (ledger setting) (ledgerProtocol setting) i p w w') {streamId : String}
    (hid : streamId ∈ command.streams) (hmoved : w'.db.stream streamId ≠ w.db.stream streamId) :
    conflicts command i w.log < conflicts command i w'.log := by
  obtain ⟨hle, hsame⟩ := later_conflicts command h
  exact lt_of_le_of_ne hle fun heq => hmoved ((hsame heq.symm).1 streamId hid)

/-- The transfer of the command was settled: there was a conflict. -/
lemma conflict_of_receipt {command : Command}
    (h : Later (ledger setting) (ledgerProtocol setting) i p w w') {transferId : String}
    (hsettles : command.settles = some transferId) {receipt : LedgerTransferSettlement}
    (hreceipt : receipt.transferId = transferId) (hmem : receipt ∈ w'.db.settlements)
    (hnew : receipt ∉ w.db.settlements) :
    conflicts command i w.log < conflicts command i w'.log := by
  obtain ⟨hle, hsame⟩ := later_conflicts command h
  exact lt_of_le_of_ne hle fun heq => hnew ((hsame heq.symm).2 _ hsettles _ hmem hreceipt)

/-! ### Attempts that fail -/

/-- The ids that a command draws for its events are new: no event has one of them, and the two of a
settlement differ. -/
def NewIds (draw : Nat → Draw) (events : List StoredEvent) : Prop :=
  ∀ n, (draw n).eventId ≠ (draw n).creditEventId ∧
    ∀ e ∈ events, e.eventId ≠ (draw n).eventId ∧ e.eventId ≠ (draw n).creditEventId

/-- The errors that a command may throw for what it has read: those that are no conflict and, when it
names its wallet in another spelling than the database prints, the unique violation of a projection. -/
def Command.Throws (command : Command) (e : LedgerError) : Prop :=
  isConflict e = false ∨ (command.Misspells ∧ isExpectedStreamVersionError e = false)

/-- How an attempt that began in `w` has failed in `w'`: with an error after which it is made again,
and there was a conflict; or with one of its own, which the transaction throws alone on what was
committed at some moment in between. -/
def Lost (setting : Setting) (i : Nat) (again : LedgerError → Bool) (job : Job)
    (body : LedgerTx Reply) (w w' : LedgerWorld) (e : LedgerError) : Prop :=
  (again e = true ∧ conflicts job.command i w.log < conflicts job.command i w'.log) ∨
  (job.command.Throws e ∧ (NewIds job.draw w'.db.events →
    (∀ transferId, job.command.settles = some transferId → w'.db.settlementOf transferId = none) →
    ∃ w₁, Later (ledger setting) (ledgerProtocol setting) i [] w w₁ ∧
      Later (ledger setting) (ledgerProtocol setting) i [] w₁ w' ∧
      body.alone w₁.db [] = .error e))

/-- Whatever the others do, an attempt fails in one of these ways. -/
def Fails (setting : Setting) (i : Nat) (again : LedgerError → Bool) (job : Job)
    (body : LedgerTx Reply) : Prop :=
  ∀ w, Running setting w i job → body.wp (ledger setting) (ledgerProtocol setting) i
    (fun _ _ _ => True) (fun w' e => Lost setting i again job body w w' e) w []

section Attempts

variable {again : LedgerError → Bool} {body : LedgerTx Reply} {e : LedgerError} {w₁ w₂ : LedgerWorld}

/-- An attempt that fails as it would alone on something that was committed meanwhile. -/
lemma Lost.decided (hno : job.command.Throws e)
    (hw₁ : Later (ledger setting) (ledgerProtocol setting) i [] w w₁)
    (hw₂ : Later (ledger setting) (ledgerProtocol setting) i [] w₁ w₂)
    (halone : body.alone w₁.db [] = .error e) : Lost setting i again job body w w₂ e :=
  .inr ⟨hno, fun _ _ => ⟨w₁, hw₁, hw₂, halone⟩⟩

/-- An attempt that fails because a drawn id is taken. -/
lemma Lost.taken {id : Option String} {eventId : String}
    (htaken : ∃ row ∈ w₁.db.events, row.eventId = eventId)
    (hdrawn : ∃ n, eventId = (job.draw n).eventId ∨ eventId = (job.draw n).creditEventId) :
    Lost setting i again job body w w₁ (.duplicateEventId id) := by
  refine .inr ⟨.inl rfl, fun hnew _ => ?_⟩
  obtain ⟨row, hrow, rfl⟩ := htaken
  obtain ⟨n, hid⟩ := hdrawn
  obtain ⟨hdebit, hcredit⟩ := (hnew n).2 row hrow
  exact (hid.elim hdebit hcredit).elim

/-- An attempt that fails because a stream has moved since it was read. -/
lemma Lost.moved (hagain : again e = true)
    (hw₁ : Later (ledger setting) (ledgerProtocol setting) i [] w w₁)
    (hw₂ : Later (ledger setting) (ledgerProtocol setting) i p w₁ w₂) {streamId : String}
    (hid : streamId ∈ job.command.streams)
    (hmoved : w₂.db.stream streamId ≠ w₁.db.stream streamId) :
    Lost setting i again job body w w₂ e :=
  .inl ⟨hagain, lt_of_le_of_lt (later_conflicts job.command hw₁).1
    (conflict_of_stream hw₂ hid hmoved)⟩

/-- A command draws the id of the event that it decides on. -/
lemma Decides.eventId {draw : Draw} {walletId ownerId : String} {a : WalletAggregate}
    {event : EventData} {command : Command} (h : Decides draw walletId ownerId a event command) :
    event.eventId = draw.eventId := by
  cases h with
  | deposit _ h =>
    rw [deposit_ok h]
    rfl
  | withdraw _ h =>
    rw [(withdraw_ok h).2]
    rfl
  | place _ _ h =>
    rw [(placeHold_some h).2]
    rfl
  | release _ h =>
    obtain ⟨n, -, rfl⟩ := releaseHold_some h
    rfl
  | consume h =>
    obtain ⟨n, -, rfl⟩ := consumeHold_some h
    rfl

/-- So does a deposit or a withdrawal. -/
lemma decideMoney_eventId {operation : MoneyOperation} {a : WalletAggregate} {n : Int}
    {eventId transactionId : String} {event : EventData}
    (h : decideMoney operation a n eventId transactionId = .ok event) : event.eventId = eventId := by
  have hdecided := except_mapError_ok.mp h
  cases operation with
  | deposit =>
    rw [deposit_ok hdecided]
    rfl
  | withdraw =>
    rw [(withdraw_ok hdecided).2]
    rfl

/-- The part of an attempt that records its event, after it has loaded its wallet. -/
lemma lost_recordEvent {walletId ownerId : String} {wallet : Wallet} {a : WalletAggregate}
    {event : EventData} {draw : Draw}
    (hw₁ : Later (ledger setting) (ledgerProtocol setting) i [] w w₁)
    (hwallet : w₁.db.walletOf walletId ownerId = some wallet)
    (ha : rehydrate walletId (w₁.db.stream (uuid walletId)) = .ok a)
    (hnamed : job.command.walletId = some walletId) (hevent : event.eventId = (job.draw 0).eventId)
    (hbody : ∀ db : Database, GapFree db → db.walletOf walletId ownerId = some wallet →
      rehydrate walletId (db.stream (uuid walletId)) = .ok a →
      body.alone db [] = (recordEvent wallet a event draw).alone db [])
    (hagain : ∀ e, isExpectedStreamVersionError e = true → again e = true) :
    (recordEvent wallet a event draw).wp (ledger setting) (ledgerProtocol setting) i
      (fun _ _ _ => True) (fun w' e => Lost setting i again job body w w' e) w₁ [] := by
  obtain ⟨hmem, hid, -⟩ := walletOf_some hwallet
  rw [← hid] at ha hbody
  refine wp_recordEvent hw₁.inv ha ⟨fun w₂ w₃ e hw₂ hw₃ hsame hno halone => ?_,
    fun w₂ id _ htaken => Lost.taken htaken ⟨0, .inl hevent⟩,
    fun w₂ e hw₂ hmoved he => Lost.moved (hagain e he) hw₁ hw₂ ?_ hmoved⟩ fun _ _ _ _ => trivial
  · have hwallet₂ := find?_wallets_grows (ledger_appends.grows hw₂) hwallet
    refine Lost.decided (hno.imp_right fun h => ⟨⟨walletId, hnamed, fun hspelled => ?_⟩, h.1⟩)
      (hw₁.trans hw₂) hw₃ ((hbody w₂.db hw₂.inv.1.gapFree hwallet₂ ?_).trans halone)
    · exact h.2 wallet (walletOf_some hwallet₂).1 (hid.trans hspelled)
    · rw [hsame]
      exact ha
  · rw [hid]
    exact Command.mem_streams hnamed

/-- Attempts of deposits and withdrawals. -/
lemma fails_money {walletId ownerId : String} {amount : ℚ} {n : Int} {operation : MoneyOperation}
    (hcommand : job.command = match operation with
      | .deposit => .deposit walletId ownerId amount
      | .withdraw => .withdraw walletId ownerId amount) (draw : Draw) :
    Fails setting i isExpectedStreamVersionError job
      (executeMoneyCommandAttempt walletId ownerId n operation (job.draw 0).eventId
        (job.draw 0).transactionId draw) := by
  intro w hrun
  have hbody : executeMoneyCommandAttempt walletId ownerId n operation (job.draw 0).eventId
      (job.draw 0).transactionId draw = loadWallet walletId ownerId fun wallet a =>
        (Tx.ofExcept (decideMoney operation a n (job.draw 0).eventId
          (job.draw 0).transactionId)).bind fun event => recordEvent wallet a event draw := rfl
  rw [hbody]
  have hnamed : job.command.walletId = some walletId := by
    rw [hcommand]
    cases operation <;> rfl
  refine wp_loadWallet (fun w₁ e hw₁ hno halone => ?_) fun w₁ wallet a hw₁ hwallet ha hid => ?_
  · exact Lost.decided (.inl hno) hw₁ (.refl hw₁.inv) halone
  rw [Tx.wp_bind, Tx.wp_ofExcept]
  refine ⟨fun e he => ?_, fun event hevent => ?_⟩
  · refine Lost.decided (.inl ?_) hw₁ (.refl hw₁.inv)
      ((alone_loadWallet hw₁.inv.1.gapFree hwallet ha hid).trans (by rw [he]; rfl))
    obtain ⟨message, -, rfl⟩ := mapError_eq_error he
    split_ifs <;> rfl
  refine lost_recordEvent hw₁ hwallet ha hnamed (decideMoney_eventId hevent)
    (fun db hgap hwallet' ha' => ?_) fun _ he => he
  refine (alone_loadWallet hgap hwallet' ha' hid).trans ?_
  rw [hevent]
  rfl

/-- A hold command names its wallet. -/
lemma Command.RunsHold.walletId_eq {walletId ownerId holdId : String} {command : Command}
    {operation : HoldOperation} {amountMinor : Option Int} {allow : Bool}
    (h : command.RunsHold walletId ownerId holdId operation amountMinor allow) :
    command.walletId = some walletId := by
  cases h with
  | place hplaces _ => cases hplaces <;> rfl
  | release hreleases => cases hreleases <;> rfl
  | consume => rfl

/-- Attempts of hold commands. -/
lemma fails_hold {walletId ownerId holdId : String} {operation : HoldOperation}
    {amountMinor : Option Int} {allow : Bool}
    (hruns : job.command.RunsHold walletId ownerId holdId operation amountMinor allow)
    (draw : Draw) :
    Fails setting i isExpectedStreamVersionError job
      (executeHoldCommandAttempt walletId ownerId holdId operation amountMinor allow
        (job.draw 0).eventId (job.draw 0).transactionId draw) := by
  intro w hrun
  rw [executeHoldCommandAttempt_eq]
  refine wp_loadWallet (fun w₁ e hw₁ hno halone => ?_) fun w₁ wallet a hw₁ hwallet ha hid => ?_
  · exact Lost.decided (.inl hno) hw₁ (.refl hw₁.inv) halone
  rw [Tx.wp_bind, Tx.wp_ofExcept]
  refine ⟨fun e he => ?_, fun decided hdecided => ?_⟩
  · refine Lost.decided (.inl ?_) hw₁ (.refl hw₁.inv)
      ((alone_loadWallet hw₁.inv.1.gapFree hwallet ha hid).trans (by rw [he]; rfl))
    obtain ⟨message, -, rfl⟩ := mapError_eq_error he
    unfold throwHoldDomainError
    split_ifs <;> rfl
  cases decided with
  | none => trivial
  | some event =>
    have hwallet_id := (walletOf_some hwallet).2.1
    dsimp only
    rw [← hwallet_id]
    refine lost_recordEvent hw₁ hwallet ha hruns.walletId_eq (hruns.decides hdecided).eventId
      (fun db hgap hwallet' ha' => ?_) fun _ he => he
    refine (alone_loadWallet hgap hwallet' ha' hid).trans ?_
    rw [hdecided, recordEvent, hwallet_id]
    rfl

end Attempts

/-! ### Attempts of a settlement

The attempts of `settleTransfer` write to two streams and insert the receipt of their transfer, and
they fail like those of the other commands: against a conflict on one of the three, or as they would
alone on something that was committed meanwhile.  The receipt is read before the streams, so that the
latter needs that the transfer was not settled in between. -/

/-- An attempt of a settlement that finds its receipt. -/
lemma Lost.settled {again : LedgerError → Bool} {body : LedgerTx Reply} {e : LedgerError}
    {w₁ : LedgerWorld} (hno : isConflict e = false)
    (hw' : Later (ledger setting) (ledgerProtocol setting) i [] w₁ w') {transferId : String}
    (hsettles : job.command.settles = some transferId) {receipt : LedgerTransferSettlement}
    (hfound : w₁.db.settlementOf transferId = some receipt) :
    Lost setting i again job body w w' e := by
  refine .inr ⟨.inl hno, fun _ hnone => ?_⟩
  rw [settlementOf_none hw' (hnone transferId hsettles)] at hfound
  cases hfound

/-- The part of an attempt of a settlement after its reads. -/
lemma lost_recordSettlement {transferId : String} {dto : SettleInternalTransferDto} {n d : Int}
    {currency : String} {sender receiver : Wallet} {s r : WalletAggregate} {debit credit : EventData}
    {attempt : Nat} {w₁ w₂ : LedgerWorld}
    (hcommand : job.command = .settleTransfer transferId dto) (hd : 0 < d)
    (hw₁ : Later (ledger setting) (ledgerProtocol setting) i [] w w₁)
    (hw₂ : Later (ledger setting) (ledgerProtocol setting) i [] w₁ w₂)
    (hnone : w.db.settlementOf transferId = none)
    (hfound : FoundWallets w₁.db dto currency sender receiver)
    (hs : rehydrate sender.id (w₁.db.stream sender.id) = .ok s)
    (hr : rehydrate receiver.id (w₂.db.stream receiver.id) = .ok r)
    (hdebit : decideDebit transferId n s (job.draw attempt).eventId = .ok debit)
    (hcredit : (r.deposit d (job.draw attempt).creditEventId transferId).mapError LedgerError.error =
      .ok credit) :
    SettlementErrors setting i w₂ (receiptOf transferId dto n d currency sender receiver) sender
      receiver s debit credit (job.draw attempt) (w₁.db.stream sender.id) (w₂.db.stream receiver.id)
      fun w' e => Lost setting i isConflict job
        (settleTransferAttempt transferId dto n d currency (job.draw attempt)) w w' e := by
  have hsettles : job.command.settles = some transferId := by
    rw [hcommand]
    rfl
  have hstreams : sender.id ∈ job.command.streams ∧ receiver.id ∈ job.command.streams := by
    have hsid := List.find?_some hfound.findsSender
    have hrid := List.find?_some hfound.findsReceiver
    simp only [decide_eq_true_eq] at hsid hrid
    rw [hcommand, hsid.1, hrid.1]
    simp [Command.streams]
  -- while the sender's stream is as it was, the transaction alone gets to the same writes
  have halone : ∀ w₃ w₄, Later (ledger setting) (ledgerProtocol setting) i [] w₁ w₃ →
      Later (ledger setting) (ledgerProtocol setting) i [] w₃ w₄ →
      w₄.db.settlementOf transferId = none → w₃.db.stream sender.id = w₁.db.stream sender.id →
      ∀ r₁, rehydrate receiver.id (w₃.db.stream receiver.id) = .ok r₁ →
      (settleTransferAttempt transferId dto n d currency (job.draw attempt)).alone w₃.db [] =
        (recordSettlement (receiptOf transferId dto n d currency sender receiver) sender receiver s
          r₁ debit credit (job.draw attempt)).alone w₃.db [] := by
    intro w₃ w₄ hw₃ hw₄ hnone₄ hstream r₁ hr₁
    have hcredit₁ : (r₁.deposit d (job.draw attempt).creditEventId transferId).mapError
        LedgerError.error = .ok credit := by
      rw [deposit_of_pos hd] at hcredit ⊢
      rw [(rehydrate_replayed hr₁).id, ← (rehydrate_replayed hr).id]
      exact hcredit
    have hfound₃ : FoundWallets w₃.db dto currency sender receiver :=
      hfound.grows (ledger_appends.grows hw₃)
    have hs₃ : rehydrate sender.id (w₃.db.stream sender.id) = .ok s := hstream ▸ hs
    rw [hfound₃.alone hw₃.inv.1 (settlementOf_none hw₄ hnone₄) hs₃ hr₁, hdebit, hcredit₁]
    rfl
  refine ⟨fun message hinvalid => ?_, fun w₃ w₄ e hw₃ hw₄ hstream hno hall => ?_,
    fun w₃ id hw₃ htaken => ?_, fun w₃ e hw₃ hmoved he => ?_, fun w₃ e hw₃ hreceipt he => ?_⟩
  · refine .inr ⟨.inl rfl, fun _ hunsettled => ⟨w₁, hw₁, hw₂, ?_⟩⟩
    obtain ⟨r₁, hr₁⟩ := hw₁.inv.1.rehydrate_ok receiver.id
    rw [halone w₁ w₂ (.refl hw₁.inv) hw₂ (hunsettled transferId hsettles) rfl r₁ hr₁,
      recordSettlement, Tx.alone_bind, alone_appendEvent_invalid hinvalid]
    rfl
  · refine .inr ⟨.inl hno, fun _ hunsettled =>
      ⟨w₃, (hw₁.trans hw₂).trans hw₃, hw₄, ?_⟩⟩
    obtain ⟨r₁, hr₁⟩ := hw₃.inv.1.rehydrate_ok receiver.id
    rw [halone w₃ w₄ (hw₂.trans hw₃) hw₄ (hunsettled transferId hsettles) hstream r₁ hr₁]
    exact hall r₁ hr₁
  · have hdebitId : debit.eventId = (job.draw attempt).eventId := by
      rw [(decideDebit_ok hdebit).2]
      rfl
    have hcreditId : credit.eventId = (job.draw attempt).creditEventId := by
      rw [deposit_ok (except_mapError_ok.mp hcredit)]
      rfl
    rcases htaken with ⟨row, hrow, hid | hid⟩ | heq
    · exact Lost.taken ⟨row, hrow, hid⟩ ⟨attempt, .inl hdebitId⟩
    · exact Lost.taken ⟨row, hrow, hid⟩ ⟨attempt, .inr hcreditId⟩
    · refine .inr ⟨.inl rfl, fun hnew _ => ?_⟩
      exact absurd (hdebitId.symm.trans (heq.trans hcreditId)) (hnew attempt).1
  · have hagain : isConflict e = true := by simp [isConflict, he]
    rcases hmoved with hmoved | hmoved
    · exact Lost.moved hagain hw₁ (hw₂.trans hw₃) hstreams.1 hmoved
    · exact Lost.moved hagain (hw₁.trans hw₂) hw₃ hstreams.2 hmoved
  · obtain ⟨row, hrow, hid⟩ := hreceipt
    refine .inl ⟨by simp [isConflict, he], ?_⟩
    refine conflict_of_receipt ((hw₁.trans hw₂).trans hw₃) hsettles hid hrow fun hmem => ?_
    exact List.find?_eq_none.mp hnone row hmem (by simpa using hid)

/-- Attempts of a settlement. -/
lemma fails_settle {transferId : String} {dto : SettleInternalTransferDto} {n d : Int}
    (hcommand : job.command = .settleTransfer transferId dto) (hd : 0 < d) (attempt : Nat) :
    Fails setting i isConflict job
      (settleTransferAttempt transferId dto n d (dto.targetCurrency.getD dto.currency)
        (job.draw attempt)) := by
  intro w hrun
  have hsettles : job.command.settles = some transferId := by
    rw [hcommand]
    rfl
  refine wp_settleTransferAttempt hd (fun _ _ _ _ _ _ _ _ _ => trivial)
    (fun w₁ w₂ raced e _ hw₂ hfound hno => Lost.settled hno hw₂ hsettles hfound)
    (fun w₁ w₂ e hw₁ hw₂ hno halone => ?_)
    fun w₁ w₂ sender receiver s r debit credit hw₁ hw₂ hnone hfound hs hr hdebit hcredit => ?_
  · exact .inr ⟨.inl hno, fun _ hunsettled =>
      ⟨w₁, hw₁, hw₂, halone (settlementOf_none hw₂ (hunsettled transferId hsettles))⟩⟩
  have hfound₂ := hfound.grows (ledger_appends.grows hw₂)
  exact wp_recordSettlement hw₂.inv (List.mem_of_find?_eq_some hfound₂.findsSender)
    (List.mem_of_find?_eq_some hfound₂.findsReceiver) hfound.distinct hs
    ((ledger_appends.grows hw₂).stream sender.id) hr List.prefix_rfl
    (lost_recordSettlement hcommand hd hw₁ hw₂ hnone hfound hs hr hdebit hcredit)
    fun _ _ _ _ _ => trivial

end Ledger

end PeerLedger
