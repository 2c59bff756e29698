import PeerLedger.Ledger.Conflicts
import PeerLedger.Ledger.Settlements
import PeerLedger.Transactions.Clients
import Mathlib.Data.List.Infix

/-!
# Retries absorb conflicts

The loops of the commands make 25 attempts.  An attempt that is made again was lost to a conflict of
its own (`Fails`), so that 24 conflicts are not enough to end a command with an error of the event
store's version check or of a unique index (`retries_absorb_conflicts`): a command that throws has
decided to do so on something that was committed while it ran.

A settlement is the exception to the last point.  It reads the receipt before the streams, and when the
same transfer is settled in between, it finds its hold consumed and takes this for a lost receipt
(`settlement_race`).
-/

namespace PeerLedger

namespace Ledger

open Transactions

variable {setting : Setting} {i : Nat} {w w₀ w' : LedgerWorld} {job : Job}

/-! ### Loops -/

/-- How a command that began in `w` has thrown `e` in `w'`: against a conflict, after as many of them as
it makes attempts; or because of something that was committed meanwhile. -/
structure Thrown (setting : Setting) (i : Nat) (job : Job) (decided : Database → LedgerError → Prop)
    (w w' : LedgerWorld) (e : LedgerError) : Prop where
  later : Later (ledger setting) (ledgerProtocol setting) i [] w w'
  conflict : ¬ job.command.Throws e →
    conflicts job.command i w.log + MAX_CONCURRENCY_RETRIES ≤ conflicts job.command i w'.log
  decided : job.command.Throws e → NewIds job.draw w'.db.events →
    job.command.Unsettled w.db w'.db →
    ∃ w₁, Later (ledger setting) (ledgerProtocol setting) i [] w w₁ ∧
      Later (ledger setting) (ledgerProtocol setting) i [] w₁ w' ∧ decided w₁.db e

section Thrown

variable {decided decided' : Database → LedgerError → Prop} {e : LedgerError}

lemma Thrown.imp (h : Thrown setting i job decided w w' e)
    (himp : ∀ w₁, Later (ledger setting) (ledgerProtocol setting) i [] w w₁ →
      Later (ledger setting) (ledgerProtocol setting) i [] w₁ w' → job.command.Throws e →
      decided w₁.db e → decided' w₁.db e) : Thrown setting i job decided' w w' e := by
  refine ⟨h.later, h.conflict, fun hno hnew hunsettled => ?_⟩
  obtain ⟨w₁, hw₁, hw', hdecided⟩ := h.decided hno hnew hunsettled
  exact ⟨w₁, hw₁, hw', himp w₁ hw₁ hw' hno hdecided⟩

/-- A command that throws at once, whatever is committed. -/
lemma Thrown.at_once (hw : Later (ledger setting) (ledgerProtocol setting) i [] w w')
    (hno : isConflict e = false) (h : decided w'.db e) : Thrown setting i job decided w w' e :=
  ⟨hw, fun hconflict => absurd (.inl hno) hconflict, fun _ _ _ => ⟨w', hw, .refl hw.inv, h⟩⟩

/-- Events and receipts are only added. -/
lemma Thrown.stable {w'' : LedgerWorld} (h : Thrown setting i job decided w w' e)
    (hw : Later (ledger setting) (ledgerProtocol setting) i [] w' w'') :
    Thrown setting i job decided w w'' e := by
  have hgrows := ledger_appends.grows hw
  refine ⟨h.later.trans hw, fun hconflict => ?_, fun hno hnew hunsettled => ?_⟩
  · exact (h.conflict hconflict).trans (later_conflicts job.command hw).1
  · obtain ⟨more, hmore, -⟩ := hgrows.events
    obtain ⟨w₁, hw₁, hw', hdecided⟩ := h.decided hno
      (fun n => ⟨(hnew n).1, fun event hevent =>
        (hnew n).2 event (hmore ▸ List.mem_append_left _ hevent)⟩)
      fun transferId ht receipt hmem => hunsettled transferId ht receipt (hgrows.mem_settlements hmem)
    exact ⟨w₁, hw₁, hw'.trans hw, hdecided⟩

/-- What a lost attempt says of a command that has made the last one. -/
lemma Lost.thrown {again : LedgerError → Bool} {body : LedgerTx Reply} {w₁ w₂ : LedgerWorld}
    (h : Lost setting i again job body w₁ w₂ e)
    (hw₁ : Later (ledger setting) (ledgerProtocol setting) i [] w w₁)
    (hw₂ : Later (ledger setting) (ledgerProtocol setting) i [] w₁ w₂)
    (hagain : ∀ e, again e = true → ¬ job.command.Throws e)
    (hnone : ∀ transferId, job.command.settles = some transferId →
      w.db.settlementOf transferId = none)
    (hlast : again e = true →
      conflicts job.command i w.log + MAX_CONCURRENCY_RETRIES ≤
        conflicts job.command i w₁.log + 1)
    (hdecided : ∀ db, body.alone db [] = .error e → decided db e) :
    Thrown setting i job decided w w₂ e := by
  refine ⟨hw₁.trans hw₂, fun hconflict => ?_, fun hno hnew hunsettled => ?_⟩
  · rcases h with ⟨hretry, hless⟩ | ⟨hno, -⟩
    · have := hlast hretry
      omega
    · exact absurd hno hconflict
  · rcases h with ⟨hretry, -⟩ | ⟨-, h⟩
    · exact absurd hno (hagain e hretry)
    · obtain ⟨w₃, hw₃, hw₃', halone⟩ := h hnew fun transferId ht => by
        cases hfound : w₂.db.settlementOf transferId with
        | none => rfl
        | some receipt =>
          -- a receipt that is there now was there at the beginning
          have hmem := hunsettled transferId ht receipt (List.mem_of_find?_eq_some hfound)
            (by simpa using List.find?_some hfound)
          have hid := List.find?_eq_none.mp (hnone transferId ht) receipt hmem
          exact absurd (by simpa using List.find?_some hfound) (by simpa using hid)
      exact ⟨w₃, hw₁.trans hw₃, hw₃', hdecided _ halone⟩

end Thrown

/-- A transaction of a command, whose handler has to deal with lost attempts. -/
lemma Fails.wp_transaction {again : LedgerError → Bool} {R : Reply → Prop} {body : LedgerTx Reply}
    {β : Type} {k : Except LedgerError Reply → LedgerProg β}
    {Φ : LedgerWorld → Except LedgerError β → Prop} (hfails : Fails setting i again job body)
    (hbody : Commits setting i job R body) (hattempt : job.command.Attempts job.draw body)
    (hrun : Running setting w i job) (hnofail : ∀ e, ¬ setting.fails e)
    (hok : ∀ w' reply, (k (.ok reply)).wp (ledger setting) (ledgerProtocol setting) i Φ w')
    (herr : ∀ w₁ w₂ e, Later (ledger setting) (ledgerProtocol setting) i [] w w₁ →
      Later (ledger setting) (ledgerProtocol setting) i [] w₁ w₂ →
      Lost setting i again job body w₁ w₂ e →
      (k (.error e)).wp (ledger setting) (ledgerProtocol setting) i Φ w₂) :
    (Prog.transaction body k).wp (ledger setting) (ledgerProtocol setting) i Φ w := by
  intro w₁ hw₁
  have hrun₁ := hrun.later hw₁
  refine ⟨?_, fun e he => absurd he (hnofail e)⟩
  have hends := hbody w₁ hrun₁
    (fun w₂ p reply => ∀ w₃, Later (ledger setting) (ledgerProtocol setting) i p w₂ w₃ →
      (ledgerProtocol setting).guar w₃ ⟨i, body, p, reply⟩)
    (fun w₂ _ => Later (ledger setting) (ledgerProtocol setting) i [] w₁ w₂)
    (fun w₂ e hw₂ => hw₂) fun w₂ q reply hw₂ _ hcommit w₃ hw₃ => by
      have hrun₃ := (hrun₁.later hw₂).later hw₃
      exact ⟨job, hrun₃.job_eq, hrun₃.uncommitted, hattempt, hcommit w₃ hw₃⟩
  refine Tx.wp_mono (fun w₂ p reply hguar w₃ hw₃ _ => ⟨hguar.1 w₃ hw₃, hok _ reply⟩)
    (fun w₂ e hlost => herr w₁ w₂ e hw₁ hlost.1 hlost.2) (Tx.wp_and hends (hfails w₁ hrun₁))

lemma isConflict_false {e : LedgerError} (h : isConflict e = false) :
    isExpectedStreamVersionError e = false ∧ isUniqueViolation e = false := by
  simpa [isConflict] using h

/-- No command throws an error of the version check for what it has read. -/
lemma Command.Throws.version {command : Command} {e : LedgerError} (h : command.Throws e) :
    isExpectedStreamVersionError e = false := by
  rcases h with h | h
  · exact (isConflict_false h).1
  · exact h.2

/-- A settlement throws no conflict for what it has read. -/
lemma Command.Throws.settle {command : Command} {e : LedgerError} (h : command.Throws e)
    {transferId : String} {dto : SettleInternalTransferDto}
    (hcommand : command = .settleTransfer transferId dto) : isConflict e = false := by
  refine h.resolve_right fun hmisspells => ?_
  obtain ⟨⟨walletId, hnamed, -⟩, -⟩ := hmisspells
  subst hcommand
  cases hnamed

/-- A retry loop.  Every attempt that is made again has cost a conflict. -/
lemma Fails.wp_retrying {again : LedgerError → Bool} {unreachable : String} {R : Reply → Prop}
    {body : Nat → LedgerTx Reply} (hfails : ∀ n, Fails setting i again job (body n))
    (hbody : ∀ n, Commits setting i job R (body n))
    (hattempt : ∀ n, job.command.Attempts job.draw (body n)) (hnofail : ∀ e, ¬ setting.fails e)
    (hagain : ∀ e, again e = true → ¬ job.command.Throws e) (hsettles : job.command.settles = none)
    (hrun : Running setting w i job)
    (hw : Later (ledger setting) (ledgerProtocol setting) i [] w₀ w) {left : Nat} (hleft : left ≠ 0)
    (hcount : conflicts job.command i w₀.log + MAX_CONCURRENCY_RETRIES ≤
      conflicts job.command i w.log + left) (attempt : Nat) :
    (retrying again unreachable body attempt left).wp (ledger setting) (ledgerProtocol setting) i
      (fun w' r => ∀ e, r = .error e → Thrown setting i job
        (fun db e => ∃ n, (body n).alone db [] = .error e) w₀ w' e) w := by
  induction left generalizing w attempt with
  | zero => exact absurd rfl hleft
  | succ left ih =>
    refine (hfails attempt).wp_transaction (hbody attempt) (hattempt attempt) hrun hnofail
      (fun w' reply e he => by cases he) fun w₁ w₂ e hw₁ hw₂ hlost => ?_
    have hle := (later_conflicts job.command hw₁).1
    dsimp only
    split_ifs with hretry
    · refine ih ((hrun.later hw₁).later hw₂) ((hw.trans hw₁).trans hw₂) hretry.2 ?_ _
      rcases hlost with ⟨-, hless⟩ | ⟨hno, -⟩
      · omega
      · exact absurd hno (hagain e hretry.1)
    · intro e' he'
      obtain rfl := Except.error.inj he'
      refine hlost.thrown (hw.trans hw₁) hw₂ hagain
        (fun t ht => by rw [hsettles] at ht; cases ht) (fun hretry' => ?_) fun db halone =>
          ⟨attempt, halone⟩
      have hzero : left = 0 := not_not.mp fun hleft => hretry ⟨hretry', hleft⟩
      subst hzero
      omega

/-- An attempt alone that finds a receipt only compares it. -/
lemma alone_settleTransferAttempt_found {db : Database} {transferId : String}
    {dto : SettleInternalTransferDto} {n d : Int} {currency : String}
    {receipt : LedgerTransferSettlement} {e : LedgerError}
    (hfound : db.settlementOf transferId = some receipt)
    (hcheck : assertSettlementMatches receipt dto n d currency = .error e) (draw : Draw) :
    (settleTransferAttempt transferId dto n d currency draw).alone db [] = .error e := by
  rw [settleTransferAttempt_eq]
  refine Tx.alone_bind_ok (Tx.alone_query _ _ _) ?_
  rw [view_nil, hfound]
  dsimp only
  rw [hcheck]
  rfl

/-- The loop of a settlement. -/
lemma wp_settleTransferLoop_fails {transferId : String} {dto : SettleInternalTransferDto} {n d : Int}
    (hcommand : job.command = .settleTransfer transferId dto)
    (hn : toPositiveMinorUnits dto.amount = .ok n)
    (hd : toPositiveMinorUnits (dto.destinationAmount.getD dto.amount) = .ok d)
    (hnofail : ∀ e, ¬ setting.fails e) (hrun : Running setting w i job)
    (hw : Later (ledger setting) (ledgerProtocol setting) i [] w₀ w) {left : Nat} (hleft : left ≠ 0)
    (hcount : conflicts job.command i w₀.log + MAX_CONCURRENCY_RETRIES ≤
      conflicts job.command i w.log + left) (attempt : Nat) :
    (settleTransferLoop transferId dto n d (dto.targetCurrency.getD dto.currency) job.draw attempt
      left).wp (ledger setting) (ledgerProtocol setting) i
      (fun w' r => ∀ e, r = .error e → Thrown setting i job (fun db e => ∃ m,
        (settleTransferAttempt transferId dto n d (dto.targetCurrency.getD dto.currency)
          (job.draw m)).alone db [] = .error e) w₀ w' e) w := by
  induction left generalizing w attempt with
  | zero => exact absurd rfl hleft
  | succ left ih =>
    rw [settleTransferLoop, Prog.bind_eq, Prog.wp_bind, Prog.wp_read]
    refine fun w₁ hw₁ => ⟨?_, fun e he => absurd he (hnofail e)⟩
    have hrun₁ := hrun.later hw₁
    have hle := (later_conflicts job.command hw₁).1
    dsimp only
    cases hfound : ((ledger setting).db w₁).settlementOf transferId with
    | some receipt =>
      dsimp only
      rw [Prog.bind_eq, Prog.wp_bind]
      cases hcheck : assertSettlementMatches receipt dto n d
        (dto.targetCurrency.getD dto.currency) with
      | error e =>
        intro e' he'
        obtain rfl := Except.error.inj he'
        refine Thrown.at_once (hw.trans hw₁) ?_
          ⟨attempt, alone_settleTransferAttempt_found hfound hcheck _⟩
        unfold assertSettlementMatches at hcheck
        split_ifs at hcheck
        obtain rfl := Except.error.inj hcheck
        rfl
      | ok _ =>
        exact wp_readSettlementWallets (List.mem_of_find?_eq_some hfound)
          (fun _ _ _ _ _ he => by cases he) fun _ e _ he => absurd he (hnofail e)
    | none =>
      refine (fails_settle hcommand (toPositiveMinorUnits_pos hd) attempt).wp_transaction
        (commits_settle hcommand hn hd (job.draw attempt)) (hcommand ▸ .settle hn hd) hrun₁ hnofail
        (fun w' reply e he => by cases he) fun w₂ w₃ e hw₂ hw₃ hlost => ?_
      have hle' := (later_conflicts job.command hw₂).1
      have h₀₂ := (hw.trans hw₁).trans hw₂
      dsimp only
      split_ifs with hretry
      · refine ih ((hrun₁.later hw₂).later hw₃) (h₀₂.trans hw₃) hretry.2 ?_ _
        rcases hlost with ⟨-, hless⟩ | ⟨hno, -⟩
        · omega
        · have hfalse := isConflict_false (hno.settle hcommand)
          rcases hretry.1 with he | he
          · rw [hfalse.1] at he
            cases he
          · rw [hfalse.2] at he
            cases he
      · intro e' he'
        obtain rfl := Except.error.inj he'
        refine hlost.thrown h₀₂ hw₃ (fun e he hno => ?_) (fun t ht => ?_) (fun hretry' => ?_)
          fun db halone => ⟨attempt, halone⟩
        · rw [hno.settle hcommand] at he
          cases he
        · rw [hcommand] at ht
          cases ht
          exact settlementOf_none (hw.trans hw₁) hfound
        · have hzero : left = 0 := not_not.mp fun hleft =>
            hretry ⟨by simpa [isConflict] using hretry', hleft⟩
          subst hzero
          omega

/-! ### Commands -/

/-- The command throws `e` when it runs alone on `db`, with the draws of one of its attempts. -/
def Command.ThrowsAlone (command : Command) (draw : Nat → Draw) (db : Database) (e : LedgerError) :
    Prop :=
  ∃ n, ((command.program (onlyAttempt draw n)).alone db).1 = .error e

lemma toMinorUnits_error {notPositive : String} {amount : ℚ} {e : LedgerError}
    (h : toMinorUnits notPositive amount = .error e) : isConflict e = false := by
  unfold toMinorUnits at h
  split at h
  · obtain rfl := Except.error.inj h
    rfl
  · split_ifs at h
    obtain rfl := Except.error.inj h
    rfl

/-- A retry loop that throws at its first attempt. -/
lemma alone_retrying_error {db : Database} {unreachable : String} {body : Nat → LedgerTx Reply}
    {e : LedgerError} (h : (body 1).alone db [] = .error e)
    (hno : isExpectedStreamVersionError e = false) :
    (retrying isExpectedStreamVersionError unreachable body 1 MAX_CONCURRENCY_RETRIES).alone db =
      (.error e, db) := by
  have hstop : ¬ (isExpectedStreamVersionError e = true ∧ 24 ≠ 0) := by
    rw [hno]
    simp
  change (Prog.transaction (body 1) _).alone db = _
  simp only [Prog.alone, h]
  rw [if_neg hstop]
  rfl

/-- The program of a settlement whose first attempt throws alone. -/
lemma alone_settleTransfer_error {db : Database} {transferId : String}
    {dto : SettleInternalTransferDto} {n d : Int} {e : LedgerError} (draw : Nat → Draw)
    (hc : Consistent db) (hn : toPositiveMinorUnits dto.amount = .ok n)
    (hd : toPositiveMinorUnits (dto.destinationAmount.getD dto.amount) = .ok d)
    (hno : isConflict e = false)
    (h : (settleTransferAttempt transferId dto n d (dto.targetCurrency.getD dto.currency)
      (draw 1)).alone db [] = .error e) :
    (Ledger.settleTransfer transferId dto draw).alone db = (.error e, db) := by
  have hprogram : Ledger.settleTransfer transferId dto draw =
      settleTransferLoop transferId dto n d (dto.targetCurrency.getD dto.currency) draw 1 (24 + 1) := by
    simp only [Ledger.settleTransfer, hn, hd]
    rfl
  rw [hprogram, settleTransferLoop]
  cases hfound : db.settlementOf transferId with
  | some receipt =>
    cases hcheck : assertSettlementMatches receipt dto n d
      (dto.targetCurrency.getD dto.currency) with
    | error e' =>
      obtain rfl := Except.error.inj ((alone_settleTransferAttempt_found hfound hcheck _).symm.trans h)
      simp [Prog.read, Prog.bind, Prog.attempt, Prog.alone, Except.map, hfound, hcheck]
    | ok _ =>
      -- the wallets of the receipt are there
      obtain ⟨sender, receiver, hread⟩ :=
        hc.alone_findSettlementWallets (List.mem_of_find?_eq_some hfound)
      rw [settleTransferAttempt_eq, Tx.alone_bind, Tx.alone_query, view_nil, hfound] at h
      change ((Tx.ofExcept (assertSettlementMatches receipt dto n d
        (dto.targetCurrency.getD dto.currency))).bind fun _ =>
          findSettlementWallets receipt).alone db [] = _ at h
      rw [hcheck] at h
      cases hread.symm.trans h
  | none =>
    have hstop := isConflict_false hno
    simp [Prog.read, Prog.bind, Prog.attempt, Prog.alone, Except.map, hfound, h, hstop]

section Programs

variable (hrun : Running setting w i job) (hnofail : ∀ e, ¬ setting.fails e)

include hrun hnofail

/-- Deposits and withdrawals. -/
lemma wp_executeMoneyCommand_fails {walletId ownerId : String} {amount : ℚ}
    {operation : MoneyOperation}
    (hcommand : job.command = match operation with
      | .deposit => .deposit walletId ownerId amount
      | .withdraw => .withdraw walletId ownerId amount) :
    (executeMoneyCommand walletId ownerId amount operation job.draw).wp (ledger setting)
      (ledgerProtocol setting) i (fun w' r => ∀ e, r = .error e →
        Thrown setting i job (job.command.ThrowsAlone job.draw) w w' e) w := by
  have hprogram : ∀ draw, job.command.program draw =
      executeMoneyCommand walletId ownerId amount operation draw := fun draw => by
    rw [hcommand]
    cases operation <;> rfl
  unfold executeMoneyCommand
  cases hn : toMinorUnits "Сума повинна бути додатною" amount with
  | error e =>
    intro e' he'
    obtain rfl := Except.error.inj he'
    refine Thrown.at_once (.refl hrun.inv) (toMinorUnits_error hn) ⟨0, ?_⟩
    simp only [hprogram, executeMoneyCommand, hn]
    rfl
  | ok n =>
    have hattempts : ∀ attempt, job.command.Attempts job.draw (executeMoneyCommandAttempt walletId
        ownerId n operation (job.draw 0).eventId (job.draw 0).transactionId (job.draw attempt)) := by
      intro attempt
      cases operation with
      | deposit => exact hcommand ▸ .deposit hn
      | withdraw => exact hcommand ▸ .withdraw hn
    refine Prog.wp_mono (fun w' r h e he => (h e he).imp fun w₁ _ _ hno hm => ?_)
      (Fails.wp_retrying (fun m => fails_money hcommand (job.draw m))
        (fun m => commits_money hcommand hn (job.draw m)) hattempts hnofail
        (fun e he hno => by simp [hno.version] at he) (by rw [hcommand]; cases operation <;> rfl) hrun
        (.refl hrun.inv) (by decide) le_rfl 1)
    obtain ⟨m, hm⟩ := hm
    refine ⟨m, ?_⟩
    simp only [hprogram, executeMoneyCommand, hn]
    exact congrArg Prod.fst (alone_retrying_error hm hno.version)

/-- The transaction of a hold command with its retries. -/
lemma wp_executeHoldCommand_fails {walletId ownerId holdId : String} {operation : HoldOperation}
    {amountMinor : Option Int} {allow : Bool}
    (hruns : job.command.RunsHold walletId ownerId holdId operation amountMinor allow)
    (hw : Later (ledger setting) (ledgerProtocol setting) i [] w₀ w) :
    (executeHoldCommand walletId ownerId holdId operation amountMinor allow job.draw).wp
      (ledger setting) (ledgerProtocol setting) i
      (fun w' r => ∀ e, r = .error e → Thrown setting i job (fun db e => ∃ m,
        (executeHoldCommand walletId ownerId holdId operation amountMinor allow
          (onlyAttempt job.draw m)).alone db = (.error e, db)) w₀ w' e) w := by
  have hsettles : job.command.settles = none := by
    generalize job.command = command at hruns
    cases hruns with
    | place hplaces _ => cases hplaces <;> rfl
    | release hreleases => cases hreleases <;> rfl
    | consume => rfl
  refine Prog.wp_mono (fun w' r h e he => (h e he).imp fun w₁ _ _ hno hm => ?_)
    (Fails.wp_retrying (fun m => fails_hold hruns (job.draw m))
      (fun m => commits_hold hruns (job.draw m)) (fun _ => .hold hruns) hnofail
      (fun e he hno => by simp [hno.version] at he) hsettles hrun hw (by decide)
      (Nat.add_le_add_right (later_conflicts job.command hw).1 _) 1)
  obtain ⟨m, hm⟩ := hm
  exact ⟨m, alone_retrying_error hm hno.version⟩

/-- Commands that place a hold. -/
lemma wp_placeHold_fails {walletId ownerId holdId : String} {amount : ℚ}
    (hplaces : job.command.Places walletId ownerId holdId amount) :
    (Ledger.placeHold walletId ownerId holdId amount job.draw).wp (ledger setting)
      (ledgerProtocol setting) i (fun w' r => ∀ e, r = .error e →
        Thrown setting i job (job.command.ThrowsAlone job.draw) w w' e) w := by
  have hprogram : ∀ draw, job.command.program draw =
      Ledger.placeHold walletId ownerId holdId amount draw := fun draw => by
    generalize job.command = command at hplaces
    cases hplaces <;> rfl
  unfold Ledger.placeHold
  cases hn : toMinorUnits "Сума повинна бути додатною" amount with
  | error e =>
    intro e' he'
    obtain rfl := Except.error.inj he'
    refine Thrown.at_once (.refl hrun.inv) (toMinorUnits_error hn) ⟨0, ?_⟩
    simp only [hprogram, Ledger.placeHold, hn]
    rfl
  | ok n =>
    refine Prog.wp_mono (fun w' r h e he => (h e he).imp fun w₁ _ _ _ hm => ?_)
      (wp_executeHoldCommand_fails hrun hnofail (.place hplaces hn) (.refl hrun.inv))
    obtain ⟨m, hm⟩ := hm
    refine ⟨m, ?_⟩
    simp only [hprogram, Ledger.placeHold, hn]
    exact congrArg Prod.fst hm

/-- The owner's `releaseHold` and `consumeHold`. -/
lemma wp_closeHold_fails {walletId ownerId holdId : String} {operation : HoldOperation}
    (hcommand : job.command = .releaseHold walletId ownerId holdId ∧ operation = .release ∨
      job.command = .consumeHold walletId ownerId holdId ∧ operation = .consume) :
    (executeHoldCommand walletId ownerId holdId operation none false job.draw).wp (ledger setting)
      (ledgerProtocol setting) i (fun w' r => ∀ e, r = .error e →
        Thrown setting i job (job.command.ThrowsAlone job.draw) w w' e) w := by
  have hruns : job.command.RunsHold walletId ownerId holdId operation none false := by
    rcases hcommand with ⟨h, rfl⟩ | ⟨h, rfl⟩
    · exact h ▸ .release .releaseHold
    · exact h ▸ .consume
  have hprogram : ∀ draw, job.command.program draw =
      executeHoldCommand walletId ownerId holdId operation none false draw := fun draw => by
    rcases hcommand with ⟨h, rfl⟩ | ⟨h, rfl⟩ <;> rw [h] <;> rfl
  refine Prog.wp_mono (fun w' r h e he => (h e he).imp fun w₁ _ _ _ hm => ?_)
    (wp_executeHoldCommand_fails hrun hnofail hruns (.refl hrun.inv))
  obtain ⟨m, hm⟩ := hm
  refine ⟨m, ?_⟩
  rw [hprogram]
  exact congrArg Prod.fst hm

omit hrun in
/-- A look for a receipt, when statements do not fail by themselves. -/
lemma wp_settlementExists_fails {transferId : String}
    {Φ : LedgerWorld → Except LedgerError Bool → Prop} (hfound : ∀ w', Φ w' (.ok true))
    (hnone : ∀ w', Later (ledger setting) (ledgerProtocol setting) i [] w w' →
      (∀ receipt ∈ w'.db.settlements, receipt.transferId ≠ transferId) → Φ w' (.ok false)) :
    (settlementExists transferId).wp (ledger setting) (ledgerProtocol setting) i Φ w := by
  refine fun w' hw' => ⟨?_, fun e he => absurd he (hnofail e)⟩
  change Φ w' (.ok (w'.db.settlements.any _))
  cases hany : w'.db.settlements.any fun row => row.transferId = transferId with
  | true => exact hfound w'
  | false =>
    refine hnone w' hw' fun receipt hmem ht => ?_
    exact List.any_eq_false.mp hany receipt hmem (by simpa using ht)

/-- `releaseTransferHold`. -/
lemma wp_releaseTransferHold_fails {transferId : String} {dto : ReleaseInternalTransferDto}
    (hcommand : job.command = .releaseTransferHold transferId dto) :
    (Ledger.releaseTransferHold transferId dto job.draw).wp (ledger setting)
      (ledgerProtocol setting) i (fun w' r => ∀ e, r = .error e →
        Thrown setting i job (job.command.ThrowsAlone job.draw) w w' e) w := by
  have hreleases : job.command.Releases dto.senderWalletId dto.senderUserId transferId true :=
    hcommand ▸ .releaseTransferHold
  change ((settlementExists transferId).bind fun found => if found then _ else
    (executeHoldCommand _ _ _ _ _ _ _).attempt _).wp _ _ _ _ _
  rw [Prog.wp_bind]
  refine wp_settlementExists_fails hnofail (fun w₁ e he => by cases he) fun w₁ hw₁ _ => ?_
  simp only [Bool.false_eq_true, if_false]
  rw [Prog.wp_attempt]
  refine Prog.wp_mono (fun w₂ r h => ?_) (wp_executeHoldCommand_fails (hrun.later hw₁) hnofail
    (.release hreleases) hw₁)
  cases r with
  | ok reply => exact fun e he => by cases he
  | error e =>
    change ((settlementExists transferId).bind fun found => if found then _ else _).wp _ _ _ _ _
    rw [Prog.wp_bind]
    refine wp_settlementExists_fails hnofail (fun w₃ e he => by cases he) fun w₃ hw₃ hnone e' he' => ?_
    obtain rfl := Except.error.inj he'
    refine ((h e rfl).stable hw₃).imp fun w₄ _ hw₄ _ hm => ?_
    obtain ⟨m, hm⟩ := hm
    -- there was no receipt when the release was decided
    have hany : (w₄.db.settlements.any fun row => row.transferId = transferId) = false :=
      List.any_eq_false.mpr fun receipt hmem ht =>
        hnone receipt ((ledger_appends.grows hw₄).mem_settlements hmem) (by simpa using ht)
    have hread : (settlementExists transferId).alone w₄.db = (.ok false, w₄.db) := by
      change (Except.ok (w₄.db.settlements.any _), _) = _
      rw [hany]
    refine ⟨m, ?_⟩
    rw [hcommand]
    change (((settlementExists transferId).bind fun found => if found then _ else
      (executeHoldCommand _ _ _ _ _ _ _).attempt _).alone w₄.db).1 = _
    rw [Prog.alone_bind_ok hread]
    simp only [Bool.false_eq_true, if_false]
    rw [Prog.alone_attempt, hm]
    change (((settlementExists transferId).bind fun found => if found then _ else _).alone _).1 = _
    rw [Prog.alone_bind_ok hread]
    rfl

/-- `settleTransfer`. -/
lemma wp_settleTransfer_fails {transferId : String} {dto : SettleInternalTransferDto}
    (hcommand : job.command = .settleTransfer transferId dto) :
    (Ledger.settleTransfer transferId dto job.draw).wp (ledger setting) (ledgerProtocol setting) i
      (fun w' r => ∀ e, r = .error e →
        Thrown setting i job (job.command.ThrowsAlone job.draw) w w' e) w := by
  -- amounts that the command refuses
  have hbad : ∀ e, isConflict e = false →
      (∀ draw, Ledger.settleTransfer transferId dto draw = .done (.error e)) →
      (Ledger.settleTransfer transferId dto job.draw).wp (ledger setting) (ledgerProtocol setting) i
        (fun w' r => ∀ e, r = .error e →
          Thrown setting i job (job.command.ThrowsAlone job.draw) w w' e) w := by
    intro e hno hprogram
    rw [hprogram]
    intro e' he'
    obtain rfl := Except.error.inj he'
    refine Thrown.at_once (.refl hrun.inv) hno ⟨0, ?_⟩
    rw [hcommand]
    exact congrArg (fun program => (Prog.alone program w.db).1) (hprogram _)
  cases hn : toPositiveMinorUnits dto.amount with
  | error e =>
    refine hbad e (toMinorUnits_error hn) fun draw => ?_
    simp only [Ledger.settleTransfer, hn]
    rfl
  | ok n =>
    cases hd : toPositiveMinorUnits (dto.destinationAmount.getD dto.amount) with
    | error e =>
      refine hbad e (toMinorUnits_error hd) fun draw => ?_
      simp only [Ledger.settleTransfer, hn, hd]
      rfl
    | ok d =>
      have hprogram : Ledger.settleTransfer transferId dto job.draw =
          settleTransferLoop transferId dto n d (dto.targetCurrency.getD dto.currency) job.draw 1
            MAX_CONCURRENCY_RETRIES := by
        simp only [Ledger.settleTransfer, hn, hd]
        rfl
      rw [hprogram]
      refine Prog.wp_mono (fun w' r h e he => (h e he).imp fun w₁ hw₁ _ hno hm => ?_)
        (wp_settleTransferLoop_fails hcommand hn hd hnofail hrun (.refl hrun.inv) (by decide)
          le_rfl 1)
      obtain ⟨m, hm⟩ := hm
      refine ⟨m, ?_⟩
      rw [hcommand]
      exact congrArg Prod.fst
        (alone_settleTransfer_error (onlyAttempt job.draw m) hw₁.inv.1 hn hd (hno.settle hcommand) hm)

/-- A command that throws has met as many conflicts as it makes attempts, or it throws alone what it has
thrown. -/
lemma wp_program_fails (hcreates : ¬ job.command.Creates) :
    (job.command.program job.draw).wp (ledger setting) (ledgerProtocol setting) i
      (fun w' r => ∀ e, r = .error e →
        Thrown setting i job (job.command.ThrowsAlone job.draw) w w' e) w := by
  obtain ⟨command, draw, startDb⟩ := job
  cases command with
  | getOrCreateForUser userId currency => exact absurd .getOrCreateForUser hcreates
  | deposit walletId ownerId amount =>
    exact @wp_executeMoneyCommand_fails _ _ _ _ hrun hnofail walletId ownerId amount .deposit rfl
  | withdraw walletId ownerId amount =>
    exact @wp_executeMoneyCommand_fails _ _ _ _ hrun hnofail walletId ownerId amount .withdraw rfl
  | placeHold walletId ownerId holdId amount => exact wp_placeHold_fails hrun hnofail .placeHold
  | releaseHold walletId ownerId holdId => exact wp_closeHold_fails hrun hnofail (.inl ⟨rfl, rfl⟩)
  | consumeHold walletId ownerId holdId => exact wp_closeHold_fails hrun hnofail (.inr ⟨rfl, rfl⟩)
  | validateTransfer dto => exact absurd .validateTransfer hcreates
  | placeTransferHold transferId dto => exact wp_placeHold_fails hrun hnofail .placeTransferHold
  | releaseTransferHold transferId dto => exact wp_releaseTransferHold_fails hrun hnofail rfl
  | settleTransfer transferId dto => exact wp_settleTransfer_fails hrun hnofail rfl

end Programs

/-! ### Runs -/

/-- The contents after some commits. -/
def contents (db : Database) (commits : List LedgerCommit) : Database :=
  view db (commits.flatMap (·.writes))

/-- The commits of the others in an interval, and the contents that they leave. -/
lemma later_log {p : List Write} (h : Later (ledger setting) (ledgerProtocol setting) i p w w') :
    ∃ during, w'.log = w.log ++ during ∧ w'.db = contents w.db during := by
  refine Later.rel (R := fun w w' : LedgerWorld =>
    ∃ during, w'.log = w.log ++ during ∧ w'.db = contents w.db during)
    (fun w => ⟨[], (List.append_nil _).symm, rfl⟩) (fun a b c hab hbc => ?_) (fun a b hab => ?_) h
  · obtain ⟨d₁, hlog₁, hdb₁⟩ := hab
    obtain ⟨d₂, hlog₂, hdb₂⟩ := hbc
    refine ⟨d₁ ++ d₂, by rw [hlog₂, hlog₁, List.append_assoc], ?_⟩
    rw [hdb₂, hdb₁, contents, contents, contents, List.flatMap_append, view_append]
  cases hab with
  | env _ he => exact he.elim
  | @commit c => exact ⟨[c], rfl, by rw [contents, List.flatMap_singleton]; rfl⟩
  | @issue _ _ _ q => exact nomatch q
  | start _ _ hs =>
    obtain ⟨-, command, draw, -, -, rfl⟩ := hs
    exact ⟨[], (List.append_nil _).symm, rfl⟩

/-- Thread `i` has started the command in `s₀`, and it has returned `r` in `s`, the commits `during`
having been made meanwhile.  Statements fail only for what they do. -/
structure Called (setting : Setting) (users : List User) (s₀ s : LedgerSys) (i : Nat)
    (command : Command) (draw : Nat → Draw) (during : List LedgerCommit)
    (r : Except LedgerError Reply) : Prop where
  noFailure : ∀ e, ¬ setting.fails e
  notCreates : ¬ command.Creates
  uuid : ∀ n, setting.uuid (draw n).transactionId
  reached : Reaches (ledger setting) (Sys.init (.initial users)) s₀
  idle : s₀.threads i = .idle
  fresh : s₀.world.jobs i = none
  runs : Reaches (ledger setting)
    (s₀.set i (.run (command.program draw)) (s₀.world.start i command draw)) s
  log : s.world.log = s₀.world.log ++ during
  done : s.threads i = .run (.done r)

/-! ### Turns -/

/-- A turn in a run: one step of a command, or another command as a whole. -/
inductive Turn where
  | step
  | serve (k : Nat) (command : Command) (draw : Nat → Draw)

/-- Thread `k` has not started. -/
def hasNotStarted (s : LedgerSys) (k : Nat) : Bool :=
  match s.threads k with
  | .idle => (s.world.jobs k).isNone
  | _ => false

lemma hasNotStarted_iff {s : LedgerSys} {k : Nat} :
    hasNotStarted s k = true ↔ s.threads k = .idle ∧ s.world.jobs k = none := by
  unfold hasNotStarted
  cases s.threads k <;> simp

/-- The state after some turns of the command of thread `i` and of others. -/
def takeTurns (setting : Setting) (i : Nat) : List Turn → LedgerSys → Option LedgerSys
  | [], s => some s
  | .step :: turns, s =>
    match s.tick (ledger setting) [i] i with
    | some s' => takeTurns setting i turns s'
    | none => none
  | .serve k command draw :: turns, s =>
    if hasNotStarted s k && (s.threads i).pending.isEmpty then
      takeTurns setting i turns (s.serve (ledger setting) 60 k (command.program draw)
        (s.world.start k command draw))
    else none

/-- Turns are a run of the ledger. -/
lemma reaches_takeTurns {uuid : String → Prop} {turns : List Turn} {s s' : LedgerSys}
    (huuid : ∀ transactionId, uuid transactionId) (hq : s.QuietBut [i])
    (h : takeTurns (openLedger uuid) i turns s = some s') : Reaches (ledger (openLedger uuid)) s s' := by
  induction turns generalizing s with
  | nil => exact Option.some.inj h ▸ .refl
  | cons turn turns ih =>
    cases turn with
    | step =>
      simp only [takeTurns] at h
      split at h
      · next s₁ hs₁ =>
        obtain ⟨hreach, hq₁⟩ := hq.tick (List.mem_singleton_self i) (fun _ _ _ => trivial) hs₁
        exact hreach.trans (ih hq₁ h)
      · cases h
    | serve k command draw =>
      simp only [takeTurns] at h
      split_ifs at h with hfree
      rw [Bool.and_eq_true, List.isEmpty_iff, hasNotStarted_iff] at hfree
      obtain ⟨⟨hidle, hnone⟩, hpending⟩ := hfree
      have hquiet : s.Quiet := fun j => by
        by_cases hj : j = i
        · exact hj ▸ hpending
        · exact hq j (by simpa using hj)
      have hserved := hquiet.serve (ledger (openLedger uuid)) 60 k (command.program draw)
        (s.world.start k command draw) (Prog.admitted_of_invariant (I := fun _ => True)
          (fun _ _ _ _ => trivial) (fun _ _ _ _ => trivial) 60 trivial _) hidle
        ⟨hnone, command, draw, fun n => huuid _, rfl, rfl⟩
      exact hserved.1.trans (ih (fun j _ => hserved.2 j) h)

/-- Thread `i` starts a command. -/
def begin (s : LedgerSys) (i : Nat) (command : Command) (draw : Nat → Draw) : LedgerSys :=
  s.set i (.run (command.program draw)) (s.world.start i command draw)

/-- The result of a command that has ended. -/
def resultOf (s : LedgerSys) (i : Nat) : Option (Except LedgerError Reply) :=
  match s.threads i with
  | .run (.done r) => some r
  | _ => none

lemma resultOf_eq_some {s : LedgerSys} {r : Except LedgerError Reply} (h : resultOf s i = some r) :
    s.threads i = .run (.done r) := by
  unfold resultOf at h
  split at h
  · next r' hr =>
    obtain rfl := Option.some.inj h
    exact hr
  · cases h

/-- A log only grows. -/
lemma reaches_log {s s' : LedgerSys} (hok : s.Ok (ledger setting) (ledgerProtocol setting))
    (hs : Reaches (ledger setting) s s') : s.world.log <+: s'.world.log :=
  reaches_invariant (P := fun w => s.world.log <+: w.log) hok List.prefix_rfl
    (fun _ _ _ _ hw _ _ _ _ _ _ => hw.trans (List.prefix_append _ _)) (fun _ _ _ _ _ hw _ _ => hw)
    hs

/-- The commits of a run since `s₀`. -/
def commitsSince (s₀ s : LedgerSys) : List LedgerCommit := s.world.log.drop s₀.world.log.length

/-- A command that is started after others were served, and ends after some turns. -/
lemma called_of_takeTurns {users : List User} {requests : List Request} {command : Command}
    {draw : Nat → Draw} {turns : List Turn} {s : LedgerSys} {r : Except LedgerError Reply}
    (hcreates : ¬ command.Creates)
    (hturns : takeTurns (openLedger fun _ => True) requests.length turns
      (begin (servedBy (openLedger fun _ => True) users requests) requests.length command draw) = some s)
    (hr : resultOf s requests.length = some r) :
    Called (openLedger fun _ => True) users (servedBy (openLedger fun _ => True) users requests) s
      requests.length command draw
      (commitsSince (servedBy (openLedger fun _ => True) users requests) s) r := by
  obtain ⟨hreach, hquiet, hidle⟩ := @reaches_serveAll (openLedger fun _ => True) requests
    (Sys.init (.initial users)) 0 (fun _ _ _ => trivial) (fun _ _ _ _ _ _ _ => trivial)
    (.init _) fun _ _ => ⟨rfl, rfl⟩
  obtain ⟨hthread, hjob⟩ := hidle requests.length (Nat.zero_add _).le
  have hbegun : (begin (servedBy (openLedger fun _ => True) users requests) requests.length command
    draw).QuietBut [requests.length] := fun j _ => hquiet.set rfl _ j
  have hruns := reaches_takeTurns (fun _ => trivial) hbegun hturns
  have hstart : Step (ledger (openLedger fun _ => True)) _ (begin
      (servedBy (openLedger fun _ => True) users requests) requests.length command draw) :=
    .start hthread ⟨hjob, command, draw, fun _ => trivial, rfl, rfl⟩
  have hprefix := reaches_log (reaches_ok (hreach.tail hstart)) hruns
  exact ⟨fun _ h => h, hcreates, fun _ => trivial, hreach, hthread, hjob, hruns,
    (List.prefix_iff_eq_append.mp hprefix).symm, resultOf_eq_some hr⟩

/-! ### Conflicts that are absorbed -/

/-- How a command ends that thread `i` started in `s₀` and that has returned `r` in `s`, the commits
`during` having been made meanwhile. -/
structure Absorbed (s₀ s : LedgerSys) (i : Nat) (command : Command) (draw : Nat → Draw)
    (during : List LedgerCommit) (r : Except LedgerError Reply) : Prop where
  /-- A command that succeeds has done its work. -/
  succeeds : ∀ reply, r = .ok reply → Answers ⟨command, draw, s₀.world.db⟩ s.world i reply
  /-- No command throws a conflict.  One that names its wallet in another spelling than the database
  prints may throw a unique violation. -/
  noConflict : ∀ e, r = .error e → isExpectedStreamVersionError e = false ∧
    (isUniqueViolation e = true → command.Misspells)
  /-- A command that throws does so alone on something that was committed, unless one of its ids was in
  use, or its transfer was settled meanwhile. -/
  decided : ∀ e, r = .error e → NewIds draw s.world.db.events →
    (∀ c ∈ during, ∀ receipt, Write.insertSettlement receipt ∈ c.writes →
      command.settles ≠ some receipt.transferId) →
    ∃ before, before <+: during ∧ command.ThrowsAlone draw (contents s₀.world.db before) e

/-- Bounded retries absorb conflicts: when at most 24 commands commit an append to a stream of a command
or a receipt of its transfer while it runs, the command does not end with a conflict. -/
theorem retries_absorb_conflicts (setting : Setting) (users : List User) (s₀ s : LedgerSys) (i : Nat)
    (command : Command) (draw : Nat → Draw) (during : List LedgerCommit)
    (r : Except LedgerError Reply)
    (h : Called setting users s₀ s i command draw during r)
    (hfew : conflicts command i during ≤ 24) : Absorbed s₀ s i command draw during r := by
  set job : Job := ⟨command, draw, s₀.world.db⟩
  set s₁ : LedgerSys := s₀.set i (.run (command.program draw)) (s₀.world.start i command draw)
    with hs₁_def
  have hstart : Step (ledger setting) s₀ s₁ :=
    .start h.idle ⟨h.fresh, command, draw, h.uuid, rfl, rfl⟩
  have hs₁ := h.reached.tail hstart
  have hok₁ := reaches_ok hs₁
  have hok := reaches_ok (hs₁.trans h.runs)
  have hjob₁ : s₁.world.jobs i = some job := by
    rw [hs₁_def, Sys.set_world]
    simp [LedgerWorld.start, job]
  have houtcome := hok.post h.done job (reaches_job hok₁ h.runs hjob₁)
  have hrun : Running setting s₁.world i job := by
    refine ⟨hok₁.inv, hjob₁, fun hcom => ?_⟩
    obtain ⟨c, hc, hi⟩ := hcom
    exact (reaches_ok h.reached).inv.2.1 c hc (hi ▸ h.fresh)
  have hthrown := hok₁.done (ledger_sound setting) (Sys.set_threads_self s₀ i _ _)
    (fun w w' r hw hr e he => (hr e he).stable hw) (wp_program_fails hrun h.noFailure h.notCreates)
    h.runs h.done
  have hlog : s₁.world.log = s₀.world.log := rfl
  -- 25 attempts were not lost
  have hno : ∀ e, r = .error e → command.Throws e := fun e he => by
    by_contra hconflict
    have hmany := (hthrown e he).conflict hconflict
    rw [h.log, conflicts_append, hlog] at hmany
    exact absurd (Nat.add_le_add_iff_left.mp hmany) (not_le.mpr (Nat.lt_succ_of_le hfew))
  refine ⟨houtcome.ok, fun e he => ⟨(hno e he).version, fun hunique => ?_⟩,
    fun e he hnew hunsettled => ?_⟩
  · refine ((hno e he).resolve_left fun hfalse => ?_).1
    rw [(isConflict_false hfalse).2] at hunique
    cases hunique
  -- the command has seen the commits
  have hseen : s.world.db = contents s₀.world.db during := by
    obtain ⟨during', hlog', hdb⟩ := later_log (hthrown e he).later
    obtain rfl : during' = during := List.append_cancel_left (hlog'.symm.trans h.log)
    exact hdb
  have hsame : command.Unsettled s₀.world.db s.world.db := by
    intro transferId ht receipt hmem hid
    rw [hseen, contents, settlements_view] at hmem
    refine (List.mem_append.mp hmem).resolve_right fun hmem => ?_
    obtain ⟨c, hc, hwrite⟩ := List.mem_flatMap.mp (mem_insertedSettlements.mp hmem)
    exact hunsettled c hc receipt hwrite (hid ▸ ht)
  obtain ⟨w₁, hw₁, hw', hdecided⟩ := (hthrown e he).decided (hno e he) hnew hsame
  obtain ⟨before, hbefore, hdb⟩ := later_log hw₁
  obtain ⟨after, hafter, -⟩ := later_log hw'
  refine ⟨before, ⟨after, ?_⟩, hdb ▸ hdecided⟩
  rw [hbefore, h.log, List.append_assoc] at hafter
  exact (List.append_cancel_left hafter).symm

/-- Ann opens a wallet and pays in. -/
def annPays : List Request :=
  [(.getOrCreateForUser "ann" "USD", drawFor "open"),
    (.deposit "open-wallet" "ann" 10, drawFor "pay-in")]

/-- A withdrawal has read the stream when another one takes 4. -/
def withdrawalTurns : List Turn :=
  List.replicate 3 .step ++ [.serve 3 (.withdraw "open-wallet" "ann" 4) (drawFor "faster")] ++
    List.replicate 6 .step

/-- The attempt to withdraw 7 is lost, and the next one is refused. -/
theorem retries_absorb_conflicts_ann : ∃ s during,
    conflicts (.withdraw "open-wallet" "ann" 7) 2 during = 1 ∧
    Absorbed (servedBy (openLedger fun _ => True) [⟨"ann", "ann@example.com"⟩] annPays) s 2
      (.withdraw "open-wallet" "ann" 7) (drawFor "late") during
      (.error (.badRequest "Недостатньо коштів")) := by
  set s₀ := servedBy (openLedger fun _ => True) [⟨"ann", "ann@example.com"⟩] annPays with hs₀
  have hrun : (takeTurns (openLedger fun _ => True) 2 withdrawalTurns
      (begin s₀ 2 (.withdraw "open-wallet" "ann" 7) (drawFor "late"))).any (fun s =>
        conflicts (.withdraw "open-wallet" "ann" 7) 2 (commitsSince s₀ s) = 1 &&
        resultOf s 2 = some (.error (.badRequest "Недостатньо коштів"))) = true := by
    rw [hs₀]
    decide +kernel
  obtain ⟨s, hturns, htest⟩ := (Option.any_eq_true _ _).mp hrun
  simp only [Bool.and_eq_true, decide_eq_true_eq] at htest
  have hcalled := @called_of_takeTurns [⟨"ann", "ann@example.com"⟩] annPays _ _ _ _ _
    (fun h => by cases h) hturns htest.2
  exact ⟨s, _, htest.1, retries_absorb_conflicts _ _ _ _ _ _ _ _ _ hcalled (htest.1.trans_le (by decide))⟩

/-- The commits of threads other than `i` that append to a stream of the command. -/
def appends (command : Command) (i : Nat) (log : List LedgerCommit) : Nat :=
  log.countP fun c => c.thread ≠ i &&
    (insertedEvents c.writes).any fun event => event.streamId ∈ command.streams

/-- Ann and Bob open wallets in two currencies, and both of Ann's have funds under a hold with the id
of one transfer. -/
def twoCurrencies : List Request :=
  [(.getOrCreateForUser "ann" "USD", drawFor "ann"), (.getOrCreateForUser "bob" "USD", drawFor "bob"),
    (.getOrCreateForUser "ann" "EUR", drawFor "ann-eur"),
    (.getOrCreateForUser "bob" "EUR", drawFor "bob-eur"),
    (.deposit "ann-wallet" "ann" 10, drawFor "pay-in"),
    (.deposit "ann-eur-wallet" "ann" 10, drawFor "pay-in-eur"),
    (.placeHold "ann-wallet" "ann" "t" 4, drawFor "hold"),
    (.placeHold "ann-eur-wallet" "ann" "t" 4, drawFor "hold-eur")]

/-- The settlement of the transfer between the other wallets. -/
def settleEur : Command :=
  .settleTransfer "t" ⟨"ann", "ann-eur-wallet", "bob-eur-wallet", 4, "EUR", none, none⟩

/-- An attempt reads the streams and then finds that a deposit was faster. -/
def overtakenBy (k : Nat) : List Turn :=
  List.replicate 7 .step ++
    [.serve k (.deposit "ann-wallet" "ann" 1) (drawFor ("deposit-" ++ toString k)), .step, .step]

/-- A settlement is overtaken 24 times by a deposit, and then by the settlement of its transfer between
the other wallets. -/
def overtakenTurns : List Turn :=
  (List.range' 9 24).flatMap overtakenBy ++ List.replicate 7 .step ++
    [.serve 33 settleEur (drawFor "settle-eur")] ++ List.replicate 11 .step

/-- A receipt of the transfer that touches no stream of the settlement is a conflict too: 24 appends to
its streams and such a receipt end it with a unique violation. -/
lemma receipt_conflicts : ∃ s during e,
    Called (openLedger fun _ => True) annAndBob
      (servedBy (openLedger fun _ => True) annAndBob twoCurrencies) s 8 settleT (drawFor "settle") during
      (.error e) ∧
    appends settleT 8 during ≤ 24 ∧ isUniqueViolation e = true := by
  set s₀ := servedBy (openLedger fun _ => True) annAndBob twoCurrencies with hs₀
  have hrun : (takeTurns (openLedger fun _ => True) 8 overtakenTurns
      (begin s₀ 8 settleT (drawFor "settle"))).any (fun s =>
        appends settleT 8 (commitsSince s₀ s) ≤ 24 && (resultOf s 8).any fun r =>
          match r with
          | .error e => isUniqueViolation e
          | .ok _ => false) = true := by
    rw [hs₀]
    decide +kernel
  obtain ⟨s, hturns, htest⟩ := (Option.any_eq_true _ _).mp hrun
  rw [Bool.and_eq_true, decide_eq_true_eq] at htest
  obtain ⟨r, hr, hunique⟩ := (Option.any_eq_true _ _).mp htest.2
  have hcreates : ¬ settleT.Creates := fun h => by cases h
  have hcalled := @called_of_takeTurns annAndBob twoCurrencies _ _ _ _ _ hcreates hturns hr
  cases r with
  | ok reply => cases hunique
  | error e => exact ⟨s, _, e, hcalled, htest.1, hunique⟩

/-- A settlement has looked for the receipt when another one settles the transfer. -/
def raceTurns : List Turn :=
  List.replicate 3 .step ++ [.serve 5 settleT (drawFor "faster")] ++ List.replicate 5 .step

/-- The draws of a settlement that makes one attempt. -/
def onceOnly (draw : Draw) : Nat → Draw := fun _ => draw

lemma throwsAlone_onceOnly {command : Command} {draw : Draw} {db : Database} {e : LedgerError}
    (h : command.ThrowsAlone (onceOnly draw) db e) :
    ((command.program (onceOnly draw)).alone db).1 = .error e := by
  obtain ⟨n, hn⟩ := h
  have hdraw : onlyAttempt (onceOnly draw) n = onceOnly draw := by
    funext m
    cases m <;> rfl
  rwa [hdraw] at hn

/-- A settlement that is overtaken by the same settlement after it has looked for the receipt takes the
receipt for lost.  On what was committed before and after that it succeeds alone. -/
lemma settlement_race : ∃ s during e,
    Called (openLedger fun _ => True) annAndBob
      (servedBy (openLedger fun _ => True) annAndBob heldRequests) s 4 settleT
      (onceOnly (drawFor "settle" 1)) during (.error e) ∧
    appends settleT 4 during ≤ 24 ∧ NewIds (onceOnly (drawFor "settle" 1)) s.world.db.events ∧
    ∀ before, before <+: during → ¬ settleT.ThrowsAlone (onceOnly (drawFor "settle" 1))
      (contents (servedBy (openLedger fun _ => True) annAndBob heldRequests).world.db before) e := by
  set s₀ := servedBy (openLedger fun _ => True) annAndBob heldRequests with hs₀
  set draw := onceOnly (drawFor "settle" 1) with hdraw
  have hrun : (takeTurns (openLedger fun _ => True) 4 raceTurns (begin s₀ 4 settleT draw)).any (fun s =>
      appends settleT 4 (commitsSince s₀ s) ≤ 24 &&
      s.world.db.events.all (fun event => event.eventId ≠ (draw 0).eventId ∧
        event.eventId ≠ (draw 0).creditEventId) &&
      (commitsSince s₀ s).inits.all (fun before =>
        ((settleT.program draw).alone (contents s₀.world.db before)).1.isOk) &&
      (resultOf s 4).any fun r => !r.isOk) = true := by
    rw [hs₀, hdraw]
    decide +kernel
  obtain ⟨s, hturns, htest⟩ := (Option.any_eq_true _ _).mp hrun
  simp only [Bool.and_eq_true, decide_eq_true_eq] at htest
  obtain ⟨⟨⟨hfew, hnew⟩, hserial⟩, hresult⟩ := htest
  obtain ⟨r, hr, hthrown⟩ := (Option.any_eq_true _ _).mp hresult
  have hcreates : ¬ settleT.Creates := fun h => by cases h
  have hcalled := @called_of_takeTurns annAndBob heldRequests _ _ _ _ _ hcreates hturns hr
  cases r with
  | ok reply => cases hthrown
  | error e =>
    have hids : draw 0 = drawFor "settle" 1 := rfl
    refine ⟨s, _, e, hcalled, hfew, fun n => ?_, fun before hbefore halone => ?_⟩
    · have hsame : draw n = draw 0 := rfl
      rw [hsame]
      refine ⟨by rw [hids]; decide, fun event hevent => ?_⟩
      simpa using List.all_eq_true.mp hnew event hevent
    · have hok := List.all_eq_true.mp hserial before ((List.mem_inits before _).mpr hbefore)
      rw [throwsAlone_onceOnly halone] at hok
      cases hok

/-- Ann opens a wallet, whose id the database prints in lower case. -/
def annOpens : List Request :=
  [(.getOrCreateForUser "ann" "USD", fun n =>
    { drawFor "open" n with
      walletId := uuid "3f2504e0-4f89-41d3-9a0c-0305e82c3301", walletId_uuid := uuid_uuid _ })]

/-- Ann pays into her wallet, whose id she gives in upper case. -/
def upperCaseDeposit : Command := .deposit "3F2504E0-4F89-41D3-9A0C-0305E82C3301" "ann" 10

/-- A deposit by the id in upper case inserts the projection again, without any conflict. -/
lemma misspelled_deposit : ∃ s e,
    Called (openLedger fun _ => True) annAndBob
      (servedBy (openLedger fun _ => True) annAndBob annOpens) s 1 upperCaseDeposit (drawFor "late") []
      (.error e) ∧ isUniqueViolation e = true := by
  set s₀ := servedBy (openLedger fun _ => True) annAndBob annOpens with hs₀
  have hrun : (takeTurns (openLedger fun _ => True) 1 (List.replicate 8 .step)
      (begin s₀ 1 upperCaseDeposit (drawFor "late"))).any (fun s =>
        (commitsSince s₀ s).isEmpty && (resultOf s 1).any fun r =>
          match r with
          | .error e => isUniqueViolation e
          | .ok _ => false) = true := by
    rw [hs₀]
    decide +kernel
  obtain ⟨s, hturns, htest⟩ := (Option.any_eq_true _ _).mp hrun
  rw [Bool.and_eq_true, List.isEmpty_iff] at htest
  obtain ⟨r, hr, hunique⟩ := (Option.any_eq_true _ _).mp htest.2
  have hcreates : ¬ upperCaseDeposit.Creates := fun h => by cases h
  have hcalled := @called_of_takeTurns annAndBob annOpens _ _ _ _ _ hcreates hturns hr
  rw [← hs₀, htest.1] at hcalled
  cases r with
  | ok reply => cases hunique
  | error e => exact ⟨s, e, hcalled, hunique⟩

/-- The count of appends alone does not bound the attempts of a settlement, a deposit by a wallet id in
another spelling fails without any append of another command, and what a settlement throws need not be
decided on anything that was committed. -/
theorem settlements_not_absorbed :
    ¬ (∀ (setting : Setting) (users : List User) (s₀ s : LedgerSys) (i : Nat) (command : Command)
        (draw : Nat → Draw) (during : List LedgerCommit) (e : LedgerError),
        Called setting users s₀ s i command draw during (.error e) → appends command i during ≤ 24 →
        isExpectedStreamVersionError e = false ∧ isUniqueViolation e = false) ∧
    ¬ (∀ (setting : Setting) (users : List User) (s₀ s : LedgerSys) (i : Nat) (command : Command)
        (draw : Nat → Draw) (during : List LedgerCommit) (e : LedgerError),
        Called setting users s₀ s i command draw during (.error e) → appends command i during ≤ 24 →
        NewIds draw s.world.db.events →
        ∃ before, before <+: during ∧
          command.ThrowsAlone draw (contents s₀.world.db before) e) ∧
    ¬ (∀ (setting : Setting) (users : List User) (s₀ s : LedgerSys) (i : Nat) (command : Command)
        (draw : Nat → Draw) (e : LedgerError), Called setting users s₀ s i command draw [] (.error e) →
        isUniqueViolation e = false) := by
  refine ⟨fun h => ?_, fun h => ?_, fun h => ?_⟩
  · obtain ⟨s, during, e, hcalled, hfew, hunique⟩ := receipt_conflicts
    have hnone := (h _ _ _ _ _ _ _ _ _ hcalled hfew).2
    rw [hunique] at hnone
    cases hnone
  · obtain ⟨s, during, e, hcalled, hfew, hnew, hnowhere⟩ := settlement_race
    obtain ⟨before, hbefore, halone⟩ := h _ _ _ _ _ _ _ _ _ hcalled hfew hnew
    exact hnowhere before hbefore halone
  · obtain ⟨s, e, hcalled, hunique⟩ := misspelled_deposit
    rw [h _ _ _ _ _ _ _ _ hcalled] at hunique
    cases hunique

end Ledger

end PeerLedger
