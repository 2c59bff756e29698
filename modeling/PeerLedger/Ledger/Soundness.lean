import PeerLedger.Ledger.TransferCommands

/-!
# Every command meets the protocol

`ledger_sound` puts the transactions of the commands together: the checks before them, the retry
loops around them, and the single reads of `getOrCreateForUser`, `validateTransfer`,
`releaseTransferHold` and `settleTransfer` outside any transaction.
-/

namespace PeerLedger

namespace Ledger

open Transactions WalletAggregate

variable {setting : Setting} {i : Nat} {w : LedgerWorld} {job : Job}

/-! ### What a commit leaves behind -/

section Effects

variable {draw : Nat → Draw} {startDb db : Database} {command : Command} {ws : List Write}
variable {walletId ownerId holdId : String}

lemma Command.Creates.not_places {amount : ℚ} (h : command.Creates)
    (hplaces : command.Places walletId ownerId holdId amount) : False := by
  cases h <;> cases hplaces

lemma Command.Creates.not_releases {allow : Bool} (h : command.Creates)
    (hreleases : command.Releases walletId ownerId holdId allow) : False := by
  cases h <;> cases hreleases

lemma Command.Places.not_releases {walletId' ownerId' holdId' : String} {amount : ℚ} {allow : Bool}
    (h : command.Places walletId ownerId holdId amount)
    (hreleases : command.Releases walletId' ownerId' holdId' allow) : False := by
  cases h <;> cases hreleases

lemma Command.Places.unique {walletId' ownerId' holdId' : String} {amount amount' : ℚ}
    (h : command.Places walletId ownerId holdId amount)
    (h' : command.Places walletId' ownerId' holdId' amount') :
    walletId = walletId' ∧ holdId = holdId' ∧ amount = amount' := by
  cases h <;> cases h' <;> exact ⟨rfl, rfl, rfl⟩

lemma Command.Releases.unique {walletId' ownerId' holdId' : String} {allow allow' : Bool}
    (h : command.Releases walletId ownerId holdId allow)
    (h' : command.Releases walletId' ownerId' holdId' allow') :
    walletId = walletId' ∧ holdId = holdId' := by
  cases h <;> cases h' <;> exact ⟨rfl, rfl⟩

/-- After a command that places a hold the hold is there with its amount. -/
lemma Effect.hold_placed {amount : ℚ} (h : Effect draw startDb db command ws)
    (hplaces : command.Places walletId ownerId holdId amount) :
    ∃ hold, (view db ws).hold walletId holdId = some hold ∧
      toMinorUnits "Сума повинна бути додатною" amount = .ok hold.amountMinor := by
  cases h with
  | noop hdone =>
    cases hdone with
    | created hcreates => exact (hcreates.not_places hplaces).elim
    | placed hplaces' hhold hamount =>
      obtain ⟨rfl, rfl, rfl⟩ := hplaces.unique hplaces'
      exact ⟨_, hhold, hamount⟩
    | released hreleases => exact (hplaces.not_releases hreleases).elim
    | consumed => cases hplaces
    | settled => cases hplaces
  | created hcreates => exact (hcreates.not_places hplaces).elim
  | @recorded _ wallet a a' event now carrier hdecides hrecorded =>
    obtain ⟨c, hmade, rfl, rfl, hmakes⟩ := hdecides.makes hrecorded
    have hafter := hmakes.hold_cases carrier walletId holdId
    cases hmade with
    | deposited => cases hplaces
    | withdrawn => cases hplaces
    | held hplaces' hn =>
      obtain ⟨rfl, rfl, rfl⟩ := hplaces.unique hplaces'
      exact ⟨_, hafter.trans (if_pos ⟨rfl, rfl⟩), hn⟩
    | released hreleases => exact (hplaces.not_releases hreleases).elim
    | consumed => cases hplaces
  | settled => cases hplaces

/-- After a release the hold is released, or it was missing when the command started. -/
lemma Effect.hold_released {allow : Bool} (h : Effect draw startDb db command ws)
    (hreleases : command.Releases walletId ownerId holdId allow) :
    (∃ n, (view db ws).hold walletId holdId = some ⟨n, .released⟩) ∨
      startDb.hold walletId holdId = none := by
  cases h with
  | noop hdone =>
    cases hdone with
    | created hcreates => exact (hcreates.not_releases hreleases).elim
    | placed hplaces => exact (hplaces.not_releases hreleases).elim
    | released hreleases' hhold =>
      obtain ⟨rfl, rfl⟩ := hreleases.unique hreleases'
      exact hhold.imp_right And.right
    | consumed => cases hreleases
    | settled => cases hreleases
  | created hcreates => exact (hcreates.not_releases hreleases).elim
  | @recorded _ wallet a a' event now carrier hdecides hrecorded =>
    obtain ⟨c, hmade, rfl, rfl, hmakes⟩ := hdecides.makes hrecorded
    have hafter := hmakes.hold_cases carrier walletId holdId
    cases hmade with
    | deposited => cases hreleases
    | withdrawn => cases hreleases
    | held hplaces => exact (hplaces.not_releases hreleases).elim
    | released hreleases' =>
      obtain ⟨rfl, rfl⟩ := hreleases.unique hreleases'
      exact .inl ⟨_, hafter.trans (if_pos ⟨rfl, rfl⟩)⟩
    | consumed => cases hreleases
  | settled => cases hreleases

/-- After a settlement the receipt is there. -/
lemma Effect.receipt_settled {transferId : String} {dto : SettleInternalTransferDto}
    (h : Effect draw startDb db (.settleTransfer transferId dto) ws) :
    ∃ receipt ∈ (view db ws).settlements, receipt.transferId = transferId ∧ dto.Matches receipt := by
  generalize hcommand : Command.settleTransfer transferId dto = command at h
  cases h with
  | noop hdone =>
    subst hcommand
    cases hdone with
    | settled hmem htransfer hmatches => exact ⟨_, hmem, htransfer, hmatches⟩
    | created hcreates => cases hcreates
    | placed hplaces => cases hplaces
    | released hreleases => cases hreleases
  | created hcreates =>
    subst hcommand
    cases hcreates
  | recorded hdecides hrecorded =>
    subst hcommand
    obtain ⟨c, hmade, -⟩ := hdecides.makes hrecorded
    cases hmade with
    | held hplaces => cases hplaces
    | released hreleases => cases hreleases
  | @settled _ _ receipt _ _ _ _ _ _ _ _ _ hsettles =>
    cases hcommand
    refine ⟨receipt, ?_, hsettles.transfer, hsettles.dto_matches⟩
    change receipt ∈ db.settlements ++ [receipt]
    exact List.mem_append_right _ (List.mem_singleton_self receipt)

end Effects

/-! ### Ends of commands -/

/-- A command that throws before its commit. -/
lemma Running.final_error (hrun : Running setting w i job) {e : LedgerError}
    (hsettle : ∀ transferId dto, job.command = .settleTransfer transferId dto →
      ∀ receipt ∈ job.startDb.settlements, receipt.transferId = transferId →
        dto.Matches receipt → setting.fails e) :
    (ledgerProtocol setting).final (ledger setting) i w (.error e) := by
  intro w' hw' job' hjob'
  have hrun' := hrun.later hw'
  obtain rfl : job' = job := Option.some.inj (hjob'.symm.trans hrun'.job_eq)
  refine ⟨fun _ _ _ => hrun'.uncommitted, (fun _ h => nomatch h),
    fun t dto hc receipt hmem ht => ?_⟩
  exact ⟨hrun'.uncommitted, fun e' he' => Except.error.inj he' ▸ hsettle t dto hc receipt hmem ht⟩

/-- A command other than a settlement that throws before its commit. -/
lemma Running.final_error_of_ne (hrun : Running setting w i job) (e : LedgerError)
    (hne : ∀ transferId dto, job.command ≠ .settleTransfer transferId dto) :
    (ledgerProtocol setting).final (ledger setting) i w (.error e) :=
  hrun.final_error fun t dto hc => absurd hc (hne t dto)

/-- A command that returns. -/
lemma final_ok {reply : Reply} (hjob : w.jobs i = some job)
    (hanswers : ∀ w', Later (ledger setting) (ledgerProtocol setting) i [] w w' →
      Answers job w' i reply)
    (hsettle : ∀ transferId dto, job.command = .settleTransfer transferId dto →
      ∀ receipt ∈ job.startDb.settlements, receipt.transferId = transferId → ¬ w.Committed i) :
    (ledgerProtocol setting).final (ledger setting) i w (.ok reply) := by
  intro w' hw' job' hjob'
  have hjobs := later_jobs hw' (by simp [hjob])
  obtain rfl : job' = job := Option.some.inj (hjob'.symm.trans (hjobs.trans hjob))
  refine ⟨(fun _ h => nomatch h), fun reply' h => Except.ok.inj h ▸ hanswers w' hw',
    fun t dto hc receipt hmem ht => ⟨fun hcom => ?_, (fun _ h => nomatch h)⟩⟩
  exact hsettle t dto hc receipt hmem ht ((later_committed hw').mp hcom)

/-- The thread has committed. -/
lemma LedgerWorld.committed_commit (w : LedgerWorld) (c : LedgerCommit) :
    (w.commit c).Committed c.thread := ⟨c, by simp [LedgerWorld.commit], rfl⟩

section Programs

variable (hrun : Running setting w i job)

include hrun

/-- Deposits and withdrawals. -/
lemma wp_executeMoneyCommand {walletId ownerId : String} {amount : ℚ} {operation : MoneyOperation}
    (hcommand : job.command = match operation with
      | .deposit => .deposit walletId ownerId amount
      | .withdraw => .withdraw walletId ownerId amount) :
    (executeMoneyCommand walletId ownerId amount operation job.draw).wp (ledger setting)
      (ledgerProtocol setting) i ((ledgerProtocol setting).final (ledger setting) i) w := by
  have hne : ∀ transferId dto, job.command ≠ .settleTransfer transferId dto := fun t dto hc => by
    rw [hcommand] at hc
    cases operation <;> cases hc
  unfold executeMoneyCommand
  cases hn : toMinorUnits "Сума повинна бути додатною" amount with
  | error e => exact hrun.final_error_of_ne e hne
  | ok n =>
    have hattempts : ∀ attempt, job.command.Attempts job.draw (executeMoneyCommandAttempt walletId
        ownerId n operation (job.draw 0).eventId (job.draw 0).transactionId (job.draw attempt)) := by
      intro attempt
      cases operation with
      | deposit => exact hcommand ▸ .deposit hn
      | withdraw => exact hcommand ▸ .withdraw hn
    refine Commits.wp_retrying (fun attempt => commits_money hcommand hn (job.draw attempt))
      hattempts hrun (fun w' q attempt reply hrun' _ _ => ?_) (fun w' e hrun' => hrun'.final_error_of_ne e hne) 1 _
    refine final_ok hrun'.job_eq (fun w'' hw'' => ?_) fun t dto hc => absurd hc (hne t dto)
    have hcom := (later_committed hw'').mpr (w'.committed_commit _)
    simp only [Answers, hcommand]
    cases operation <;> exact hcom

/-- The transaction of a hold command with its retries. -/
lemma wp_executeHoldCommand {walletId ownerId holdId : String} {operation : HoldOperation}
    {amountMinor : Option Int} {allow : Bool} {Φ : LedgerWorld → Except LedgerError Reply → Prop}
    (hruns : job.command.RunsHold walletId ownerId holdId operation amountMinor allow)
    (hok : ∀ w' body q reply, Running setting w' i job →
      Effect job.draw job.startDb w'.db job.command q →
      Φ (w'.commit ⟨i, body, q, reply⟩) (.ok reply))
    (herr : ∀ w' e, Running setting w' i job → Φ w' (.error e)) :
    (executeHoldCommand walletId ownerId holdId operation amountMinor allow job.draw).wp
      (ledger setting) (ledgerProtocol setting) i Φ w :=
  Commits.wp_retrying (fun attempt => commits_hold hruns (job.draw attempt)) (fun _ => .hold hruns) hrun
    (fun w' q _ reply hrun' _ heffect => hok w' _ q reply hrun' heffect) herr 1 _

omit hrun

/-- A hold that a commit leaves behind is still there later. -/
lemma Effect.hold_later {w' : LedgerWorld} {c : LedgerCommit} {walletId holdId : String}
    {hold : HoldState} (hrun : Running setting w i job)
    (heffect : Effect job.draw job.startDb w.db job.command c.writes)
    (hhold : (view w.db c.writes).hold walletId holdId = some hold)
    (hw' : Later (ledger setting) (ledgerProtocol setting) i [] (w.commit c) w') :
    ∃ hold', w'.db.hold walletId holdId = some hold' ∧ hold'.amountMinor = hold.amountMinor ∧
      (hold.status ≠ .active → hold' = hold) :=
  (heffect.consistent hrun.consistent).hold_grows hw'.inv.1 (ledger_appends.grows hw') hhold

include hrun

/-- Commands that place a hold. -/
lemma wp_placeHold {walletId ownerId holdId : String} {amount : ℚ}
    (hplaces : job.command.Places walletId ownerId holdId amount) :
    (Ledger.placeHold walletId ownerId holdId amount job.draw).wp (ledger setting)
      (ledgerProtocol setting) i ((ledgerProtocol setting).final (ledger setting) i) w := by
  have hne : ∀ transferId dto, job.command ≠ .settleTransfer transferId dto := fun t dto hc => by
    rw [hc] at hplaces
    cases hplaces
  unfold Ledger.placeHold
  cases hn : toMinorUnits "Сума повинна бути додатною" amount with
  | error e => exact hrun.final_error_of_ne e hne
  | ok n =>
    refine wp_executeHoldCommand hrun (.place hplaces hn) (fun w' body q reply hrun' heffect => ?_)
      fun w' e hrun' => hrun'.final_error_of_ne e hne
    refine final_ok hrun'.job_eq (fun w'' hw'' => ?_) fun t dto hc => absurd hc (hne t dto)
    have hcom := (later_committed hw'').mpr (w'.committed_commit _)
    obtain ⟨hold, hhold, hamount⟩ := heffect.hold_placed hplaces
    obtain ⟨hold', hhold', hamount', -⟩ := Effect.hold_later hrun' heffect hhold hw''
    rw [← hamount'] at hamount
    generalize hcommand : job.command = command at hplaces
    cases hplaces with
    | placeHold =>
      simp only [Answers, hcommand]
      exact hcom
    | placeTransferHold =>
      simp only [Answers, hcommand]
      exact ⟨hcom, hold', hhold', hamount⟩

/-- The owner's `releaseHold` and `consumeHold`. -/
lemma wp_closeHold {walletId ownerId holdId : String} {operation : HoldOperation}
    (hcommand : job.command = .releaseHold walletId ownerId holdId ∧ operation = .release ∨
      job.command = .consumeHold walletId ownerId holdId ∧ operation = .consume) :
    (executeHoldCommand walletId ownerId holdId operation none false job.draw).wp (ledger setting)
      (ledgerProtocol setting) i ((ledgerProtocol setting).final (ledger setting) i) w := by
  have hne : ∀ transferId dto, job.command ≠ .settleTransfer transferId dto := fun t dto hc => by
    rcases hcommand with ⟨h, -⟩ | ⟨h, -⟩ <;> cases hc.symm.trans h
  have hruns : job.command.RunsHold walletId ownerId holdId operation none false := by
    rcases hcommand with ⟨h, rfl⟩ | ⟨h, rfl⟩
    · exact h ▸ .release .releaseHold
    · exact h ▸ .consume
  refine wp_executeHoldCommand hrun hruns (fun w' body q reply hrun' heffect => ?_)
    fun w' e hrun' => hrun'.final_error_of_ne e hne
  refine final_ok hrun'.job_eq (fun w'' hw'' => ?_) fun t dto hc => absurd hc (hne t dto)
  have hcom := (later_committed hw'').mpr (w'.committed_commit _)
  rcases hcommand with ⟨h, -⟩ | ⟨h, -⟩ <;> simp only [Answers, h] <;> exact hcom

omit hrun

/-- A look for a receipt. -/
lemma wp_settlementExists {transferId : String} {Φ : LedgerWorld → Except LedgerError Bool → Prop}
    (hsome : ∀ w', Later (ledger setting) (ledgerProtocol setting) i [] w w' →
      (∃ receipt ∈ w'.db.settlements, receipt.transferId = transferId) → Φ w' (.ok true))
    (hnone : ∀ w', Later (ledger setting) (ledgerProtocol setting) i [] w w' → Φ w' (.ok false))
    (herr : ∀ w' e, Later (ledger setting) (ledgerProtocol setting) i [] w w' → Φ w' (.error e)) :
    (settlementExists transferId).wp (ledger setting) (ledgerProtocol setting) i Φ w := by
  refine fun w' hw' => ⟨?_, fun e _ => herr w' e hw'⟩
  change Φ w' (.ok (w'.db.settlements.any _))
  cases hany : w'.db.settlements.any fun row => row.transferId = transferId with
  | false => exact hnone w' hw'
  | true => exact hsome w' hw' (by simpa using hany)

include hrun

/-- `releaseTransferHold`. -/
lemma wp_releaseTransferHold {transferId : String} {dto : ReleaseInternalTransferDto}
    (hcommand : job.command = .releaseTransferHold transferId dto) :
    (Ledger.releaseTransferHold transferId dto job.draw).wp (ledger setting)
      (ledgerProtocol setting) i ((ledgerProtocol setting).final (ledger setting) i) w := by
  have hne : ∀ t dto, job.command ≠ .settleTransfer t dto := fun t dto hc => by
    cases hc.symm.trans hcommand
  have hreleases : job.command.Releases dto.senderWalletId dto.senderUserId transferId true :=
    hcommand ▸ .releaseTransferHold
  have hsettled : ∀ w', Running setting w' i job →
      (∃ receipt ∈ w'.db.settlements, receipt.transferId = transferId) →
      (ledgerProtocol setting).final (ledger setting) i w' (.ok .alreadySettled) := by
    rintro w' hrun' ⟨receipt, hmem, ht⟩
    refine final_ok hrun'.job_eq (fun w'' hw'' => ?_) fun t dto hc => absurd hc (hne t dto)
    simp only [Answers, hcommand]
    exact .inl ⟨trivial, receipt, (ledger_appends.grows hw'').mem_settlements hmem, ht⟩
  have herr : ∀ w' e, Running setting w' i job →
      (ledgerProtocol setting).final (ledger setting) i w' (.error e) :=
    fun w' e hrun' => hrun'.final_error_of_ne e hne
  change ((settlementExists transferId).bind fun found => if found then _ else
    (executeHoldCommand _ _ _ _ _ _ _).attempt _).wp _ _ _ _ _
  rw [Prog.wp_bind]
  refine wp_settlementExists (fun w₁ hw₁ => hsettled w₁ (hrun.later hw₁)) (fun w₁ hw₁ => ?_)
    fun w₁ e hw₁ => herr w₁ e (hrun.later hw₁)
  simp only [Bool.false_eq_true, if_false]
  rw [Prog.wp_attempt]
  refine wp_executeHoldCommand (hrun.later hw₁) (.release hreleases)
    (fun w₂ body q reply hrun₂ heffect => ?_) fun w₂ e hrun₂ => ?_
  · refine final_ok hrun₂.job_eq (fun w₃ hw₃ => ?_) fun t dto hc => absurd hc (hne t dto)
    simp only [Answers, hcommand]
    refine .inr ⟨trivial, (later_committed hw₃).mpr (w₂.committed_commit _), ?_⟩
    refine (heffect.hold_released hreleases).imp_left fun ⟨n, hhold⟩ => ⟨n, ?_⟩
    obtain ⟨hold', hhold', -, heq⟩ := Effect.hold_later hrun₂ heffect hhold hw₃
    exact heq (by simp) ▸ hhold'
  · change ((settlementExists transferId).bind fun found => if found then _ else _).wp _ _ _ _ _
    rw [Prog.wp_bind]
    exact wp_settlementExists (fun w₃ hw₃ => hsettled w₃ (hrun₂.later hw₃))
      (fun w₃ hw₃ => herr w₃ e (hrun₂.later hw₃)) fun w₃ e' hw₃ => herr w₃ e' (hrun₂.later hw₃)

omit hrun

/-- `findOneByOrFail` outside a transaction of a row that is there. -/
lemma wp_readOrThrow {β : Type} {e : LedgerError} {f : Database → Option β}
    {Φ : LedgerWorld → Except LedgerError β → Prop}
    (hsome : ∀ w', Later (ledger setting) (ledgerProtocol setting) i [] w w' → ∃ a, f w'.db = some a)
    (hok : ∀ w' a, Later (ledger setting) (ledgerProtocol setting) i [] w w' → Φ w' (.ok a))
    (herr : ∀ w' e, Later (ledger setting) (ledgerProtocol setting) i [] w w' → setting.fails e →
      Φ w' (.error e)) :
    (readOrThrow e f).wp (ledger setting) (ledgerProtocol setting) i Φ w := by
  change ((Prog.read f).bind _).wp _ _ _ _ _
  rw [Prog.wp_bind, Prog.wp_read]
  refine fun w' hw' => ⟨?_, fun e he => herr w' e hw' he⟩
  obtain ⟨a, ha⟩ := hsome w' hw'
  change f ((ledger setting).db w') = some a at ha
  dsimp only
  rw [ha]
  exact hok w' a hw'

/-- The wallets of a receipt, which are there. -/
lemma wp_readSettlementWallets {receipt : LedgerTransferSettlement}
    {Φ : LedgerWorld → Except LedgerError Reply → Prop} (hmem : receipt ∈ w.db.settlements)
    (hok : ∀ w' sender receiver, Later (ledger setting) (ledgerProtocol setting) i [] w w' →
      Φ w' (.ok (.settled sender receiver)))
    (herr : ∀ w' e, Later (ledger setting) (ledgerProtocol setting) i [] w w' → setting.fails e →
      Φ w' (.error e)) :
    (readSettlementWallets receipt).wp (ledger setting) (ledgerProtocol setting) i Φ w := by
  have hwallets : ∀ w', Later (ledger setting) (ledgerProtocol setting) i [] w w' →
      (∃ wallet ∈ w'.db.wallets, wallet.id = receipt.senderWalletId) ∧
      ∃ wallet ∈ w'.db.wallets, wallet.id = receipt.receiverWalletId := fun w' hw' =>
    hw'.inv.1.receiptWallets receipt ((ledger_appends.grows hw').mem_settlements hmem)
  unfold readSettlementWallets
  simp only [Prog.bind_eq]
  rw [Prog.wp_bind]
  refine wp_readOrThrow (fun w' hw' => walletById_some (hwallets w' hw').1) (fun w₁ sender hw₁ => ?_)
    herr
  dsimp only
  rw [Prog.wp_bind]
  refine wp_readOrThrow (fun w' hw' => walletById_some (hwallets w' (hw₁.trans hw')).2)
    (fun w₂ receiver hw₂ => ?_) fun w' e hw' => herr w' e (hw₁.trans hw')
  have h₂ := hw₁.trans hw₂
  dsimp only
  rw [Prog.wp_bind]
  refine wp_readOrThrow
    (fun w' hw' => hw'.inv.1.projectionOf_some (hwallets w' (h₂.trans hw')).1)
    (fun w₃ senderRow hw₃ => ?_) fun w' e hw' => herr w' e (h₂.trans hw')
  have h₃ := h₂.trans hw₃
  dsimp only
  rw [Prog.wp_bind]
  exact wp_readOrThrow
    (fun w' hw' => hw'.inv.1.projectionOf_some (hwallets w' (h₃.trans hw')).2)
    (fun w₄ receiverRow hw₄ => hok w₄ _ _ (h₃.trans hw₄)) fun w' e hw' => herr w' e (h₃.trans hw')

/-- The check of a receipt in terms of the command. -/
lemma SettleInternalTransferDto.matches_iff {dto : SettleInternalTransferDto}
    {receipt : LedgerTransferSettlement} {n d : Int} (hn : toPositiveMinorUnits dto.amount = .ok n)
    (hd : toPositiveMinorUnits (dto.destinationAmount.getD dto.amount) = .ok d) :
    assertSettlementMatches receipt dto n d (dto.targetCurrency.getD dto.currency) = .ok () ↔
      dto.Matches receipt := by
  rw [assertSettlementMatches_ok, SettleInternalTransferDto.Matches, hn, hd]
  simp only [Except.ok.injEq, eq_comm]

/-- In consistent tables a transfer has one receipt. -/
lemma Consistent.receipt_unique {db : Database} (h : Consistent db)
    {receipt receipt' : LedgerTransferSettlement} (hmem : receipt ∈ db.settlements)
    (hmem' : receipt' ∈ db.settlements) (ht : receipt.transferId = receipt'.transferId) :
    receipt = receipt' :=
  List.inj_on_of_nodup_map h.receipts hmem hmem' ht

include hrun

/-- A settlement that found a receipt. -/
lemma wp_settlementFound {transferId : String} {dto : SettleInternalTransferDto} {n d : Int}
    {receipt : LedgerTransferSettlement}
    (hcommand : job.command = .settleTransfer transferId dto)
    (hn : toPositiveMinorUnits dto.amount = .ok n)
    (hd : toPositiveMinorUnits (dto.destinationAmount.getD dto.amount) = .ok d)
    (hfound : w.db.settlementOf transferId = some receipt) :
    (Prog.bind (.done (assertSettlementMatches receipt dto n d
        (dto.targetCurrency.getD dto.currency))) fun _ => readSettlementWallets receipt).wp
      (ledger setting) (ledgerProtocol setting) i
      ((ledgerProtocol setting).final (ledger setting) i) w := by
  have hmem := List.mem_of_find?_eq_some hfound
  have ht : receipt.transferId = transferId := by simpa using List.find?_some hfound
  -- a receipt that was there at the start is the one that was found
  have hsame : ∀ row ∈ job.startDb.settlements, row.transferId = transferId → row = receipt :=
    fun row hrow hrowt => hrun.consistent.receipt_unique (hrun.start_grows.mem_settlements hrow)
      hmem (hrowt.trans ht.symm)
  cases hcheck : assertSettlementMatches receipt dto n d (dto.targetCurrency.getD dto.currency) with
  | error e =>
    refine hrun.final_error fun t dto' hc row hrow hrowt hmatches => ?_
    cases hc.symm.trans hcommand
    rw [hsame row hrow hrowt, ← SettleInternalTransferDto.matches_iff hn hd, hcheck] at hmatches
    cases hmatches
  | ok _ =>
    have hmatches := (SettleInternalTransferDto.matches_iff hn hd).mp hcheck
    refine wp_readSettlementWallets hmem (fun w' sender receiver hw' => ?_) fun w' e hw' he =>
      (hrun.later hw').final_error fun _ _ _ _ _ _ _ => he
    have hrun' := hrun.later hw'
    refine final_ok hrun'.job_eq (fun w'' hw'' => ?_) fun _ _ _ _ _ _ => hrun'.uncommitted
    simp only [Answers, hcommand]
    exact ⟨⟨sender, receiver, rfl⟩, receipt,
      (ledger_appends.grows (hw'.trans hw'')).mem_settlements hmem, ht, hmatches⟩

/-- One attempt of a settlement. -/
lemma wp_settleTransferLoop_step {transferId : String} {dto : SettleInternalTransferDto} {n d : Int}
    {attempt left : Nat} (hcommand : job.command = .settleTransfer transferId dto)
    (hn : toPositiveMinorUnits dto.amount = .ok n)
    (hd : toPositiveMinorUnits (dto.destinationAmount.getD dto.amount) = .ok d)
    (hrec : left ≠ 0 → ∀ w', Running setting w' i job →
      (settleTransferLoop transferId dto n d (dto.targetCurrency.getD dto.currency) job.draw
        (attempt + 1) left).wp (ledger setting) (ledgerProtocol setting) i
        ((ledgerProtocol setting).final (ledger setting) i) w') :
    (settleTransferLoop transferId dto n d (dto.targetCurrency.getD dto.currency) job.draw attempt
      (left + 1)).wp (ledger setting) (ledgerProtocol setting) i
      ((ledgerProtocol setting).final (ledger setting) i) w := by
  rw [settleTransferLoop, Prog.bind_eq, Prog.wp_bind, Prog.wp_read]
  refine fun w₁ hw₁ =>
    ⟨?_, fun e he => (hrun.later hw₁).final_error fun _ _ _ _ _ _ _ => he⟩
  have hrun₁ := hrun.later hw₁
  dsimp only
  cases hfound : ((ledger setting).db w₁).settlementOf transferId with
  | some receipt => exact wp_settlementFound hrun₁ hcommand hn hd hfound
  | none =>
    -- there was no receipt at the start either
    have hnone : ∀ row ∈ job.startDb.settlements, row.transferId ≠ transferId := fun row hrow => by
      have := List.find?_eq_none.mp hfound row (hrun₁.start_grows.mem_settlements hrow)
      simpa using this
    have herr : ∀ w' e, Running setting w' i job →
        (ledgerProtocol setting).final (ledger setting) i w' (.error e) := fun w' e hrun' =>
      hrun'.final_error fun t dto' hc row hrow hrowt => by
        cases hc.symm.trans hcommand
        exact absurd hrowt (hnone row hrow)
    refine (commits_settle hcommand hn hd (job.draw attempt)).wp_transaction
      (hcommand ▸ .settle hn hd) hrun₁ (fun w₂ q reply hrun₂ hreply heffect => ?_) fun w₂ e hrun₂ => ?_
    · refine final_ok hrun₂.job_eq (fun w₃ hw₃ => ?_) fun t dto' hc row hrow hrowt => ?_
      · rw [hcommand] at heffect
        obtain ⟨receipt, hmem, ht, hmatches⟩ := heffect.receipt_settled
        simp only [Answers, hcommand]
        exact ⟨hreply, receipt, (ledger_appends.grows hw₃).mem_settlements hmem, ht, hmatches⟩
      · cases hc.symm.trans hcommand
        exact absurd hrowt (hnone row hrow)
    · dsimp only
      split_ifs with hagain
      · exact hrec hagain.2 w₂ hrun₂
      · exact herr w₂ e hrun₂

/-- `settleTransfer`. -/
lemma wp_settleTransfer {transferId : String} {dto : SettleInternalTransferDto}
    (hcommand : job.command = .settleTransfer transferId dto) :
    (Ledger.settleTransfer transferId dto job.draw).wp (ledger setting) (ledgerProtocol setting) i
      ((ledgerProtocol setting).final (ledger setting) i) w := by
  have hbad : ∀ e, (∀ receipt, dto.Matches receipt → False) →
      (ledgerProtocol setting).final (ledger setting) i w (.error e) := fun e hno =>
    hrun.final_error fun t dto' hc receipt _ _ hmatches => by
      cases hc.symm.trans hcommand
      exact (hno receipt hmatches).elim
  change (Prog.bind (.done (toPositiveMinorUnits dto.amount)) fun n =>
    Prog.bind (.done (toPositiveMinorUnits (dto.destinationAmount.getD dto.amount))) fun d =>
      settleTransferLoop transferId dto n d (dto.targetCurrency.getD dto.currency) job.draw 1
        MAX_CONCURRENCY_RETRIES).wp _ _ _ _ _
  cases hn : toPositiveMinorUnits dto.amount with
  | error e => exact hbad e fun receipt hmatches => by cases hn.symm.trans hmatches.2.2.1
  | ok n =>
    cases hd : toPositiveMinorUnits (dto.destinationAmount.getD dto.amount) with
    | error e => exact hbad e fun receipt hmatches => by cases hd.symm.trans hmatches.2.2.2.2.1
    | ok d =>
      have hloop : ∀ left attempt w', Running setting w' i job →
          (settleTransferLoop transferId dto n d (dto.targetCurrency.getD dto.currency) job.draw
            attempt (left + 1)).wp (ledger setting) (ledgerProtocol setting) i
            ((ledgerProtocol setting).final (ledger setting) i) w' := by
        intro left
        induction left with
        | zero =>
          intro attempt w' hrun'
          exact wp_settleTransferLoop_step hrun' hcommand hn hd fun h => absurd rfl h
        | succ left ih =>
          intro attempt w' hrun'
          exact wp_settleTransferLoop_step hrun' hcommand hn hd fun _ => ih (attempt + 1)
      exact hloop 24 1 w hrun

/-- The view of a wallet. -/
lemma wp_readView {wallet : Wallet} {Φ : LedgerWorld → Except LedgerError Reply → Prop}
    (hok : ∀ w' view, Running setting w' i job → Φ w' (.ok (.wallet view)))
    (herr : ∀ w' e, Running setting w' i job → Φ w' (.error e)) :
    (readView wallet).wp (ledger setting) (ledgerProtocol setting) i Φ w := by
  rw [readView, Prog.bind_eq, Prog.wp_bind, Prog.wp_read]
  refine fun w' hw' => ⟨?_, fun e _ => herr w' e (hrun.later hw')⟩
  dsimp only
  cases ((ledger setting).db w').projectionOf wallet.id with
  | some projection => exact hok w' _ (hrun.later hw')
  | none => exact herr w' _ (hrun.later hw')

/-- `getOrCreateForUser`, also when it is part of `validateTransfer`. -/
lemma wp_getOrCreateForUser {userId currency : String}
    {Φ : LedgerWorld → Except LedgerError Reply → Prop} (hcreates : job.command.Creates)
    (hok : ∀ w' view, w'.jobs i = some job → Φ w' (.ok (.wallet view)))
    (herr : ∀ w' e, Running setting w' i job → Φ w' (.error e)) :
    (Ledger.getOrCreateForUser userId currency (job.draw 0)).wp (ledger setting) (ledgerProtocol setting) i
      Φ w := by
  have hview : ∀ w' view, Running setting w' i job → Φ w' (.ok (.wallet view)) :=
    fun w' view hrun' => hok w' view hrun'.job_eq
  rw [Ledger.getOrCreateForUser, Prog.bind_eq, Prog.wp_bind, Prog.wp_read]
  refine fun w₁ hw₁ => ⟨?_, fun e _ => herr w₁ e (hrun.later hw₁)⟩
  have hrun₁ := hrun.later hw₁
  dsimp only
  cases ((ledger setting).db w₁).walletIn userId currency with
  | some existing => exact wp_readView hrun₁ hview herr
  | none =>
    refine (commits_createWallet hcreates userId currency (job.draw 0)).wp_transaction
      (.create hcreates) hrun₁ (fun w₂ q reply hrun₂ hreply _ => ?_) fun w₂ e hrun₂ => ?_
    · obtain ⟨view, rfl⟩ := hreply
      exact hok _ view hrun₂.job_eq
    · dsimp only
      split_ifs
      · rw [Prog.bind_eq, Prog.wp_bind, Prog.wp_read]
        refine fun w₃ hw₃ => ⟨?_, fun e' _ => herr w₃ e' (hrun₂.later hw₃)⟩
        dsimp only
        cases ((ledger setting).db w₃).walletIn userId currency with
        | some wallet => exact wp_readView (hrun₂.later hw₃) hview herr
        | none => exact herr w₃ _ (hrun₂.later hw₃)
      · exact herr w₂ e hrun₂

/-- The search for the receiver of a transfer by e-mail. -/
lemma wp_findReceiverByEmail {receiverReference targetCurrency : String}
    {Φ : LedgerWorld → Except LedgerError Wallet → Prop} (hcreates : job.command.Creates)
    (hΦ : ∀ w' r, w'.jobs i = some job → Φ w' r) :
    (findReceiverByEmail receiverReference targetCurrency (job.draw 0)).wp (ledger setting)
      (ledgerProtocol setting) i Φ w := by
  have hend : ∀ w' r, Running setting w' i job → Φ w' r := fun w' r hrun' => hΦ w' r hrun'.job_eq
  unfold findReceiverByEmail
  rw [Prog.bind_eq, Prog.wp_bind, Prog.wp_read]
  refine fun w₁ hw₁ => ⟨?_, fun e _ => hend w₁ _ (hrun.later hw₁)⟩
  have hrun₁ := hrun.later hw₁
  dsimp only
  cases ((ledger setting).db w₁).userLike (job.draw 0).lower receiverReference with
  | error e => exact hend w₁ _ hrun₁
  | ok found =>
    cases found with
    | none => exact hend w₁ _ hrun₁
    | some receiverUser =>
      dsimp only
      rw [Prog.bind_eq, Prog.wp_bind, Prog.wp_read]
      refine fun w₂ hw₂ => ⟨?_, fun e _ => hend w₂ _ (hrun₁.later hw₂)⟩
      have hrun₂ := hrun₁.later hw₂
      dsimp only
      cases ((ledger setting).db w₂).walletIn receiverUser.id targetCurrency with
      | some receiver => exact hend w₂ _ hrun₂
      | none =>
        dsimp only
        rw [Prog.bind_eq, Prog.wp_bind]
        refine wp_getOrCreateForUser hrun₂ hcreates (fun w₃ created hjob₃ => ?_)
          fun w₃ e hrun₃ => hend w₃ _ hrun₃
        dsimp only
        rw [Prog.bind_eq, Prog.wp_bind, Prog.wp_read]
        refine fun w₄ hw₄ => ?_
        have hjob₄ := (later_jobs hw₄ (by simp [hjob₃])).trans hjob₃
        refine ⟨?_, fun e _ => hΦ w₄ _ hjob₄⟩
        dsimp only
        cases ((ledger setting).db w₄).walletById created.id with
        | some receiver => exact hΦ w₄ _ hjob₄
        | none => exact hΦ w₄ _ hjob₄

/-- The search for the receiver of a transfer. -/
lemma wp_findReceiver {receiverReference targetCurrency : String}
    {Φ : LedgerWorld → Except LedgerError Wallet → Prop} (hcreates : job.command.Creates)
    (hΦ : ∀ w' r, w'.jobs i = some job → Φ w' r) :
    (findReceiver receiverReference targetCurrency (job.draw 0)).wp (ledger setting)
      (ledgerProtocol setting) i Φ w := by
  unfold findReceiver
  split_ifs
  · rw [Prog.bind_eq, Prog.wp_bind, Prog.wp_read]
    refine fun w₁ hw₁ => ⟨?_, fun e _ => hΦ w₁ _ (hrun.later hw₁).job_eq⟩
    dsimp only
    split
    · exact hΦ w₁ _ (hrun.later hw₁).job_eq
    · exact wp_findReceiverByEmail (hrun.later hw₁) hcreates hΦ
  · exact wp_findReceiverByEmail hrun hcreates hΦ

/-- `validateTransfer`. -/
lemma wp_validateTransfer {dto : ValidateInternalTransferDto}
    (hcommand : job.command = .validateTransfer dto) :
    (Ledger.validateTransfer dto (job.draw 0)).wp (ledger setting) (ledgerProtocol setting) i
      ((ledgerProtocol setting).final (ledger setting) i) w := by
  have hne : ∀ t dto, job.command ≠ .settleTransfer t dto := fun t dto hc => by
    cases hc.symm.trans hcommand
  have herr : ∀ w' e, w'.jobs i = some job →
      (ledgerProtocol setting).final (ledger setting) i w' (.error e) := by
    intro w' e hjob' w'' hw'' job' hjob''
    obtain rfl : job' = job :=
      Option.some.inj (hjob''.symm.trans ((later_jobs hw'' (by simp [hjob'])).trans hjob'))
    exact ⟨fun _ _ h => absurd hcommand (h dto), (fun _ h => nomatch h),
      fun t dto hc => absurd hc (hne t dto)⟩
  have hok : ∀ w' receiverWalletId, w'.jobs i = some job →
      (ledgerProtocol setting).final (ledger setting) i w' (.ok (.validated receiverWalletId)) :=
    fun w' receiverWalletId hjob' => final_ok hjob'
      (fun w'' _ => by simp only [Answers, hcommand]; exact ⟨receiverWalletId, rfl⟩)
      fun t dto hc => absurd hc (hne t dto)
  have hcreates : job.command.Creates := hcommand ▸ .validateTransfer
  -- after the amounts have been checked
  have hrest : (validateWallets dto (job.draw 0)).wp (ledger setting) (ledgerProtocol setting) i
      ((ledgerProtocol setting).final (ledger setting) i) w := by
    unfold validateWallets
    rw [Prog.bind_eq, Prog.wp_bind, Prog.wp_read]
    refine fun w₁ hw₁ => ⟨?_, fun e _ => herr w₁ e (hrun.later hw₁).job_eq⟩
    have hrun₁ := hrun.later hw₁
    dsimp only
    split
    · exact herr w₁ _ hrun₁.job_eq
    · rw [Prog.bind_eq, Prog.wp_bind]
      refine wp_findReceiver hrun₁ hcreates fun w₂ r hjob₂ => ?_
      cases r with
      | error e => exact herr w₂ e hjob₂
      | ok receiver =>
        dsimp only
        split_ifs
        · exact herr w₂ _ hjob₂
        · exact hok w₂ _ hjob₂
  unfold Ledger.validateTransfer
  simp only [Prog.bind_eq]
  cases toPositiveMinorUnits dto.amount with
  | error e => exact herr w e hrun.job_eq
  | ok n =>
    cases dto.destinationAmount with
    | none => exact hrest
    | some destinationAmount =>
      cases hd : toPositiveMinorUnits destinationAmount with
      | error e =>
        refine Eq.mpr ?_ (herr w e hrun.job_eq)
        simp only [hd]
        rfl
      | ok d =>
        refine Eq.mpr ?_ hrest
        simp only [hd]
        rfl

end Programs

/-! ### Soundness -/

/-- Starting a command leaves the commands of the log alone. -/
lemma jobs_start {command : Command} {draw : Nat → Draw} (hinv : (ledgerProtocol setting).inv w)
    (hnone : w.jobs i = none) {c : LedgerCommit} (hc : c ∈ w.log) :
    (w.start i command draw).jobs c.thread = w.jobs c.thread := by
  have hne : c.thread ≠ i := fun hi => hinv.2.1 c hc (hi ▸ hnone)
  exact Function.update_of_ne hne _ _

/-- Starting a command keeps the invariant. -/
lemma ledgerProtocol_inv_start {command : Command} {draw : Nat → Draw}
    (h : (ledgerProtocol setting).inv w) (hnone : w.jobs i = none)
    (huuid : ∀ n, setting.uuid (draw n).transactionId) :
    (ledgerProtocol setting).inv (w.start i command draw) := by
  refine ⟨h.1, fun c hc => ?_, fun j job hjob => ?_⟩
  · rw [jobs_start h hnone hc]
    exact h.2.1 c hc
  · change Function.update w.jobs i _ j = _ at hjob
    by_cases hj : j = i
    · subst hj
      rw [Function.update_self] at hjob
      obtain rfl := (Option.some.inj hjob).symm
      exact ⟨h.1, .refl _ _, huuid⟩
    · rw [Function.update_of_ne hj] at hjob
      exact h.2.2 j job hjob

/-- Every command meets the protocol. -/
theorem ledger_sound (setting : Setting) : (ledgerProtocol setting).Sound (ledger setting) where
  inv_env _ _ _ h := h.elim
  inv_commit w c hinv _ hguar := by
    obtain ⟨job, hjob, -, -, heffect, -⟩ := hguar
    refine ⟨heffect.consistent hinv.1, fun c' hc' => ?_, fun j job' hjob' => ?_⟩
    · rcases List.mem_append.mp hc' with hc' | hc'
      · exact hinv.2.1 c' hc'
      · obtain rfl := List.mem_singleton.mp hc'
        exact hjob ▸ Option.some_ne_none job
    · obtain ⟨hcons, hgrows, huuid⟩ := hinv.2.2 j job' hjob'
      exact ⟨hcons, hgrows.trans (.of_writes w.db c.writes), huuid⟩
  inv_issue _ _ q := nomatch q
  inv_start w i p w' hinv hstart := by
    obtain ⟨hnone, command, draw, huuid, -, rfl⟩ := hstart
    exact ledgerProtocol_inv_start hinv hnone huuid
  start_wp w i p w' hinv hstart := by
    obtain ⟨hnone, command, draw, huuid, rfl, rfl⟩ := hstart
    have hrun : Running setting (w.start i command draw) i ⟨command, draw, w.db⟩ :=
      ⟨ledgerProtocol_inv_start hinv hnone huuid, by simp [LedgerWorld.start], fun ⟨c, hc, hi⟩ =>
        hinv.2.1 c hc (hi ▸ hnone)⟩
    cases command with
    | getOrCreateForUser userId currency =>
      refine wp_getOrCreateForUser hrun .getOrCreateForUser (fun w' view hjob' => ?_)
        fun w' e hrun' => hrun'.final_error_of_ne e fun _ _ h => nomatch h
      exact final_ok hjob' (fun _ _ => trivial) fun _ _ h => nomatch h
    | deposit walletId ownerId amount => exact wp_executeMoneyCommand hrun rfl
    | withdraw walletId ownerId amount => exact wp_executeMoneyCommand hrun rfl
    | placeHold walletId ownerId holdId amount => exact wp_placeHold hrun .placeHold
    | releaseHold walletId ownerId holdId => exact wp_closeHold hrun (.inl ⟨rfl, rfl⟩)
    | consumeHold walletId ownerId holdId => exact wp_closeHold hrun (.inr ⟨rfl, rfl⟩)
    | validateTransfer dto => exact wp_validateTransfer hrun rfl
    | placeTransferHold transferId dto => exact wp_placeHold hrun .placeTransferHold
    | releaseTransferHold transferId dto => exact wp_releaseTransferHold hrun rfl
    | settleTransfer transferId dto => exact wp_settleTransfer hrun rfl

/-! ### Runs of the ledger -/

/-- Every reachable state is in order. -/
lemma reaches_ok {users : List User} {s : LedgerSys}
    (hs : Reaches (ledger setting) (Sys.init (.initial users)) s) :
    s.Ok (ledger setting) (ledgerProtocol setting) := by
  have hinv : (ledgerProtocol setting).inv (LedgerWorld.initial users) :=
    ⟨Consistent.initial users, by simp [LedgerWorld.initial], by simp [LedgerWorld.initial]⟩
  exact (Sys.Ok.init hinv).reaches (ledger_sound setting) hs

/-- A property of the world that every commit and every start keeps holds along every run. -/
lemma reaches_invariant {P : LedgerWorld → Prop} {s s' : LedgerSys}
    (hok : s.Ok (ledger setting) (ledgerProtocol setting)) (h0 : P s.world)
    (hcommit : ∀ w c job, (ledgerProtocol setting).inv w → P w → setting.admits w c →
      w.jobs c.thread = some job → ¬ w.Committed c.thread →
      job.command.Attempts job.draw c.body →
      Effect job.draw job.startDb w.db job.command c.writes →
      Serial job.command w.db c.body c.writes → P (w.commit c))
    (hstart : ∀ w i command draw, (ledgerProtocol setting).inv w → P w → w.jobs i = none →
      (∀ n, setting.uuid (draw n).transactionId) → P (w.start i command draw))
    (hs : Reaches (ledger setting) s s') : P s'.world := by
  refine Sys.Ok.invariant (ledger_sound setting) (fun w c hinv hw hadm hguar => ?_)
    (fun _ _ q => nomatch q) (fun w i p w' hinv hw hst => ?_) (fun _ _ _ _ h => h.elim) hok h0 hs
  · obtain ⟨_, hadm⟩ := hadm
    obtain ⟨job, hjob, hcom, hattempt, heffect, hserial⟩ := hguar
    exact hcommit w c job hinv hw hadm hjob hcom hattempt heffect hserial
  · obtain ⟨hnone, command, draw, huuid, -, rfl⟩ := hst
    exact hstart w i command draw hinv hw hnone huuid

/-- A step of the threads that have started leaves the world alone, or is a commit. -/
lemma closed_world_cases {s s' : LedgerSys} (hok : s.Ok (ledger setting) (ledgerProtocol setting))
    (h : Step (ledger setting).closed s s') :
    s'.world = s.world ∨ ∃ c job, setting.admits s.world c ∧ s.world.jobs c.thread = some job ∧
      ¬ s.world.Committed c.thread ∧
      Effect job.draw job.startDb s.world.db job.command c.writes ∧
      s'.world = s.world.commit c := by
  rcases h.world_cases with he | ⟨i, body, r, p, k, hi, ha, he⟩ | ⟨_, q, _⟩ | ⟨_, _, _, hst⟩ | he
  · exact .inl he
  · obtain ⟨job, hjob, hcom, -, heffect, -⟩ := hok.guar hi ⟨s.pending, ha⟩
    exact .inr ⟨_, job, ha, hjob, hcom, heffect, he⟩
  · exact nomatch q
  · exact hst.elim
  · exact he.elim

/-- What a command has established stays so while commits, receipts and holds stay. -/
lemma Answers.forward {w w' : LedgerWorld} {job : Job} {j : Nat} {reply : Reply}
    (h : Answers job w j reply) (hcommitted : w.Committed j → w'.Committed j)
    (hreceipts : ∀ receipt ∈ w.db.settlements, receipt ∈ w'.db.settlements)
    (hholds : ∀ {walletId holdId hold}, w.db.hold walletId holdId = some hold →
      ∃ hold', w'.db.hold walletId holdId = some hold' ∧ hold'.amountMinor = hold.amountMinor ∧
        (hold.status ≠ .active → hold' = hold)) : Answers job w' j reply := by
  unfold Answers at h ⊢
  split at h
  · trivial
  · exact hcommitted h
  · exact hcommitted h
  · exact hcommitted h
  · exact hcommitted h
  · exact hcommitted h
  · exact h
  · obtain ⟨hcom, hold, hhold, hamount⟩ := h
    obtain ⟨hold', hhold', heq, -⟩ := hholds hhold
    exact ⟨hcommitted hcom, hold', hhold', heq ▸ hamount⟩
  · rcases h with ⟨hreply, receipt, hmem, ht⟩ | ⟨hreply, hcom, ⟨n, hhold⟩ | hnone⟩
    · exact .inl ⟨hreply, receipt, hreceipts receipt hmem, ht⟩
    · obtain ⟨hold', hhold', -, heq⟩ := hholds hhold
      exact .inr ⟨hreply, hcommitted hcom, .inl ⟨n, heq (by simp) ▸ hhold'⟩⟩
    · exact .inr ⟨hreply, hcommitted hcom, .inr hnone⟩
  · obtain ⟨hreply, receipt, hmem, hmatch⟩ := h
    exact ⟨hreply, receipt, hreceipts receipt hmem, hmatch⟩

section Reaches

variable {s s' : LedgerSys} (hok : s.Ok (ledger setting) (ledgerProtocol setting))
  (hs : Reaches (ledger setting) s s')

include hok hs

/-- The tables only grow. -/
lemma reaches_grows : s.world.db.Grows [] s'.world.db :=
  reaches_invariant (P := fun w => s.world.db.Grows [] w.db) hok (.refl _ _)
    (fun w c _ _ hw _ _ _ _ _ _ => hw.trans (.of_writes w.db c.writes))
    (fun _ _ _ _ _ hw _ _ => hw) hs

/-- The command of a started thread stays the same. -/
lemma reaches_job {j : Nat} {job : Job} (hjob : s.world.jobs j = some job) :
    s'.world.jobs j = some job := by
  refine reaches_invariant (P := fun w => w.jobs j = some job) hok hjob
    (fun _ _ _ _ hw _ _ _ _ _ _ => hw) (fun w i command draw _ hw hnone _ => ?_) hs
  have hne : j ≠ i := fun h => by rw [h, hnone] at hw; cases hw
  exact (Function.update_of_ne hne _ _).trans hw

/-- A thread that has committed stays so. -/
lemma reaches_committed {j : Nat} (h : s.world.Committed j) : s'.world.Committed j := by
  refine reaches_invariant (P := fun w => w.Committed j) hok h
    (fun w c _ _ hw _ _ _ _ _ _ => ?_) (fun _ _ _ _ _ hw _ _ => hw) hs
  obtain ⟨c', hc', hj⟩ := hw
  exact ⟨c', List.mem_append_left _ hc', hj⟩

/-- A hold that is there stays, with its amount. -/
lemma reaches_hold {walletId holdId : String} {hold : HoldState}
    (h : s.world.db.hold walletId holdId = some hold) :
    ∃ hold', s'.world.db.hold walletId holdId = some hold' ∧
      hold'.amountMinor = hold.amountMinor ∧ (hold.status ≠ .active → hold' = hold) :=
  hok.inv.1.hold_grows (hok.reaches (ledger_sound setting) hs).inv.1 (reaches_grows hok hs) h

/-- What a command has established stays so. -/
lemma reaches_answers {job : Job} {j : Nat} {reply : Reply}
    (h : Answers job s.world j reply) : Answers job s'.world j reply :=
  h.forward (reaches_committed hok hs) (fun _ => (reaches_grows hok hs).mem_settlements)
    fun hhold => reaches_hold hok hs hhold

end Reaches

end Ledger

end PeerLedger
