import PeerLedger.Payments.BillCounts
import PeerLedger.Payments.Workers

/-!
# The saga keeps the protocol

One rule for each function of the saga, and the inductions over the steps of a run and over the runs
of a recovery.
-/

namespace PeerLedger

namespace Payments

open Transactions

variable {setting : Setting} {w w' : World} {i n : Nat} {job : Job} {transfer row : Transfer}

/-! ### Requests are built from what never changes -/

/-- A later version of a row is validated with the same request. -/
lemma Transfer.Evolves.validateCommand_eq {a b : Transfer} (h : a.Evolves b) :
    validateCommand b = validateCommand a :=
  Transfer.congr_terms h.terms validateCommand fun _ => rfl

/-- Its hold is placed with the same request. -/
lemma Transfer.Evolves.placeHoldCommand_eq {a b : Transfer} (h : a.Evolves b) :
    placeHoldCommand b = placeHoldCommand a :=
  Transfer.congr_terms h.terms placeHoldCommand fun _ => rfl

/-- Its hold is released with the same request. -/
lemma Transfer.Evolves.releaseCommand_eq {a b : Transfer} (h : a.Evolves b) :
    releaseCommand b = releaseCommand a :=
  Transfer.congr_terms h.terms releaseCommand fun _ => rfl

/-- It is settled with the same request, for the same receiver. -/
lemma Transfer.Evolves.settleDto_eq {a b : Transfer} (h : a.Evolves b) (receiverWalletId : String) :
    settleDto b receiverWalletId = settleDto a receiverWalletId :=
  Transfer.congr_terms h.terms (settleDto · receiverWalletId) fun _ => rfl

/-- Without the lease, a worker sends a request only for an exposed row. -/
lemma Working.leased (h : Working setting w i job n transfer)
    (hexp : exposed setting.config job.command.now transfer = true) (hd : setting.DistinctOwners) :
    Leased setting w i transfer.id :=
  (h.lawful hd).imp_right fun hl => ⟨transfer, job, hl.2, rfl, h.job_eq, hexp⟩

/-! ### Failures -/

section Failures

variable {now : Int} (h : Working setting w i job n transfer)

include h

/-- A retry counts, and ends the run. -/
lemma wp_scheduleRetry {failure : LedgerCommandError}
    {Φ : World → Except PaymentsError Unit → Prop}
    (hleft : transfer.status = .compensating ∨
      transfer.retryCount + 1 < setting.config.sagaMaxStepAttempts)
    (hok : ∀ w', Serving setting w' i job (n + 1) → Φ w' (.ok ()))
    (herr : ∀ w' e, Working setting w' i job n transfer → Thrown setting w w' i job e →
      Φ w' (.error e)) :
    (scheduleRetry setting.config transfer (job.draw.runs n).leaseOwner failure now).wp
      (payments setting) (paymentsProtocol setting) i Φ w := by
  simp only [scheduleRetry, Prog.bind_eq, Prog.wp_bind]
  refine wp_updateClaimed h (.keeping (fun _ => rfl) (fun _ => rfl) (fun _ => ⟨rfl, rfl⟩)
    fun _ => .inl rfl) (fun row hsame => ?_) (fun w' _ _ h' _ _ _ => hok w' h'.toServing) herr
  have hstatus := Transfer.congr_unleased hsame (·.status) fun _ => rfl
  have hcount := Transfer.congr_unleased hsame (·.retryCount) fun _ => rfl
  refine .retried rfl ?_ (congrArg (· + 1) hcount.symm)
  rwa [hstatus, hcount]

/-- A transfer fails when nothing is held for it, or no longer, and the run ends. -/
lemma wp_fail {failure : Option LedgerCommandError} {Φ : World → Except PaymentsError Unit → Prop}
    (hjust : TransferStatus.failed ≠ transfer.status → Justified setting w transfer .failed)
    (hok : ∀ w', Serving setting w' i job (n + 1) → Φ w' (.ok ()))
    (herr : ∀ w' e, Working setting w' i job n transfer →
      (MayReject setting w i job → MayReject setting w' i job) → Φ w' (.error e)) :
    (fail transfer (job.draw.runs n).leaseOwner failure).wp (payments setting)
      (paymentsProtocol setting) i Φ w := by
  simp only [fail, Prog.bind_eq, Prog.wp_bind]
  exact wp_transitionClaimed h (.keeping (fun _ => rfl) (fun _ => rfl) (fun _ => ⟨rfl, rfl⟩)
    fun _ => .inl rfl) (fun _ _ => ⟨rfl, rfl⟩) (fun hlive => nomatch hlive) (by simp) hjust
    (fun w' _ h' _ => hok w' h'.toServing) fun w' e h' hkeeps _ => herr w' e h' hkeeps

/-- A failed step is tried again, is compensated when funds may be held, or fails the transfer. -/
lemma wp_handleFailure {error : PaymentsError}
    {Φ : World → Except PaymentsError (Option Transfer) → Prop}
    (hok : ∀ w' row', Working setting w' i job n row' → transfer.status.rank < row'.status.rank →
      Φ w' (.ok (some row')))
    (hstop : ∀ w', Serving setting w' i job (n + 1) → Φ w' (.ok none))
    (herr : ∀ w' e, Serving setting w' i job (n + 1) →
      (MayReject setting w i job → MayReject setting w' i job) → Φ w' (.error e)) :
    (handleFailure setting.config transfer (job.draw.runs n).leaseOwner error now).wp
      (payments setting) (paymentsProtocol setting) i Φ w := by
  have hretry : ∀ failure, (transfer.status = .compensating ∨
      transfer.retryCount + 1 < setting.config.sagaMaxStepAttempts) → (do
        scheduleRetry setting.config transfer (job.draw.runs n).leaseOwner failure now
        return none : PaymentsProg (Option Transfer)).wp (payments setting)
          (paymentsProtocol setting) i Φ w := by
    intro failure hleft
    simp only [Prog.bind_eq, Prog.wp_bind]
    exact wp_scheduleRetry h hleft hstop fun w' e h' hthrown => herr w' e h'.toServing hthrown.keeps
  unfold handleFailure
  dsimp only
  split_ifs with hcompensating hretryable hhold
  · exact hretry _ (.inl hcompensating)
  · exact hretry _ (.inr hretryable.2)
  · simp only [Prog.bind_eq, Prog.wp_bind]
    exact wp_transitionClaimed h (.keeping (fun _ => rfl) (fun _ => rfl) (fun _ => ⟨rfl, rfl⟩)
      fun _ => .inr rfl) (fun hended => by simp [TransferStatus.isTerminal] at hended)
      (fun _ _ => rfl) (by simp) (fun _ => hhold)
      (fun w' row' h' hnext => hok w' row' h' (TransferStatus.rank_lt hnext))
      fun w' e h' hkeeps _ => herr w' e h'.toServing hkeeps
  · simp only [Prog.bind_eq, Prog.wp_bind]
    exact wp_fail h (fun _ => .inl (by simpa using hhold)) hstop
      fun w' e h' hkeeps => herr w' e h'.toServing hkeeps

/-- What the loop does with an error of a step: a lost lease ends the run, and a failure is handled.
-/
lemma wp_caught {next : Transfer → PaymentsProg Unit} {error : PaymentsError}
    (hreject : error ≠ .sagaLeaseLost → MayReject setting w i job)
    (hnext : ∀ w' row', Working setting w' i job n row' →
      transfer.status.rank < row'.status.rank → (next row').wp (payments setting)
        (paymentsProtocol setting) i (fun w' r => Ended setting w' i job n r) w') :
    (caught setting.config (job.draw.runs n).leaseOwner now next transfer error).wp (payments setting)
      (paymentsProtocol setting) i (fun w' r => Ended setting w' i job n r) w := by
  unfold caught
  split
  · exact .ok h.toServing
  · next hne =>
    simp only [Prog.bind_eq, Prog.wp_bind]
    exact wp_handleFailure h hnext (fun _ h' => .ok h') fun _ _ h' hkeeps =>
      .error h' (hkeeps (hreject hne))

end Failures

/-! ### Completion -/

/-- A message joins the pending update of the completed row. -/
lemma wp_insertOutbox {row' : Transfer} (messages : List PaymentOutboxMessage)
    {message : PaymentOutboxMessage} {Q : World → List Write → Unit → Prop}
    {E : World → PaymentsError → Prop} (h : Matched setting w i job n transfer row)
    (hid : row'.id = row.id)
    (hQ : ∀ w', Matched setting w' i job n transfer row →
      Later (payments setting) (paymentsProtocol setting) i
        (.saveTransfer row' :: messages.map .insertOutbox) w w' →
      Q w' (.saveTransfer row' :: (messages ++ [message]).map .insertOutbox) ())
    (hE : ∀ w' e, Working setting w' i job n transfer → E w' e) :
    (Tx.write (insertOutbox message)).wp (payments setting) (paymentsProtocol setting) i Q E w
      (.saveTransfer row' :: messages.map .insertOutbox) := by
  rw [Tx.wp_write]
  intro w' hw'
  have h' := h.later (by simp [locksOf, Store.locks, Write.locks, hid]) hw'
  refine ⟨fun e _ => hE w' e h'.toWorking, fun ws hws => ?_⟩
  unfold insertOutbox at hws
  split_ifs at hws
  obtain rfl := Except.ok.inj hws
  simpa using hQ w' h' hw'

/-- The share and the bill that a query finds. -/
lemma shareWithBill_some {db : Database} {shareId : String} {share : SplitBillShare}
    {bill : SplitBill} (h : db.shareWithBill shareId = some (share, bill)) :
    share ∈ db.shares ∧ share.id = shareId ∧ bill ∈ db.bills ∧ bill.id = share.billId := by
  simp only [Database.shareWithBill, Option.bind_eq_bind, Option.bind_eq_some_iff, Option.pure_def,
    Option.some.injEq, Prod.mk.injEq] at h
  obtain ⟨share', hshare, bill', hbill, rfl, rfl⟩ := h
  exact ⟨List.mem_of_find?_eq_some hshare, by simpa using List.find?_some hshare,
    List.mem_of_find?_eq_some hbill, by simpa using List.find?_some hbill⟩

section Messages

variable {row' : Transfer} {Q : World → List Write → Unit → Prop}
  {E : World → PaymentsError → Prop} (h : Matched setting w i job n transfer row)
  (hid : row'.id = row.id)
  (hE : ∀ w' e, Working setting w' i job n transfer → E w' e)

include h hid hE

/-- The message about the transfer joins the pending update. -/
lemma wp_enqueueTransferCompleted {draw : MessageDraw}
    (hQ : ∀ w' receiverWalletId, Matched setting w' i job n transfer row → Ahead setting i w w' →
      row'.receiverWalletId = some receiverWalletId →
      Q w' (.saveTransfer row' ::
        [transferCompletedMessage row' receiverWalletId draw].map .insertOutbox) ()) :
    (enqueueTransferCompleted row' draw).wp (payments setting) (paymentsProtocol setting) i Q E
      w [.saveTransfer row'] := by
  unfold enqueueTransferCompleted
  split
  · exact hE w _ h.toWorking
  · next receiverWalletId hreceiver =>
    exact wp_insertOutbox [] h hid
      (fun w' h' hw' => hQ w' receiverWalletId h' (later_ahead hw') hreceiver) hE

/-- The messages about the share; the count is that of the commit, as long as the completions of a
bill are serial. -/
lemma wp_enqueueSplitSharePaid {draw : CompletionDraw} {receiverWalletId : String}
    (hcompleted : row'.status = .completed) (hreceiver : row'.receiverWalletId = some receiverWalletId)
    (hsame : row'.splitBillShareId = row.splitBillShareId)
    (hQ : ∀ w' messages, Matched setting w' i job n transfer row → Ahead setting i w w' →
      Announces setting w'.db row' messages →
      Q w' (.saveTransfer row' :: messages.map .insertOutbox) ()) :
    (enqueueSplitSharePaid row' draw).wp (payments setting) (paymentsProtocol setting) i Q E
      w (.saveTransfer row' ::
        [transferCompletedMessage row' receiverWalletId draw.completed].map .insertOutbox) := by
  have hlock : ∀ messages : List PaymentOutboxMessage, Lock.transferId row.id ∈
      locksOf (σ := Database) (Write.saveTransfer row' :: messages.map Write.insertOutbox) := by
    simp [locksOf, Store.locks, Write.locks, hid]
  unfold enqueueSplitSharePaid
  split
  · next hnone => exact hQ w _ h (.refl _ _ _) (.transfer hcompleted hreceiver hnone)
  · next shareId hshare =>
    simp only [Tx.bind_eq, Tx.wp_bind, Tx.wp_query]
    intro w₁ hw₁
    have h₁ := h.later (hlock _) hw₁
    split
    · exact hE w₁ _ h₁.toWorking
    · next share bill hfound =>
      rw [payments, view_save] at hfound
      obtain ⟨hmem, rfl, hbill, hbillId⟩ := shareWithBill_some hfound
      simp only [Tx.wp_bind, Tx.wp_query]
      intro w₂ hw₂
      have h₂ := h₁.later (hlock _) hw₂
      have ha₂ := (later_ahead hw₁).trans (later_ahead hw₂)
      have hbills := (later_ahead hw₂).bills
      rw [payments, view_save]
      generalize hstatus : deriveSplitBillStatus _ _ = status
      have hcounted : Counted setting w₂.db row' share bill status :=
        ⟨hbills.2 hmem, hbills.1 hbill, fun _ => hstatus.symm⟩
      refine wp_insertOutbox _ h₂ hid (fun w₃ h₃ hw₃ => ?_) hE
      have hcounted₃ := hcounted.later (by simp) (List.mem_cons_of_mem _ List.mem_cons_self) hcompleted
        hshare h₂.mem hid hsame hw₃
      split
      · next hcreator =>
        refine wp_insertOutbox _ h₃ hid (fun w₄ h₄ hw₄ => ?_) hE
        have hcounted₄ := hcounted₃.later (by simp) (List.mem_cons_of_mem _ List.mem_cons_self)
          hcompleted hshare h₃.mem hid hsame hw₄
        refine hQ w₄ _ h₄ (ha₂.trans ((later_ahead hw₃).trans (later_ahead hw₄))) ?_
        have hannounces : Announces setting w₄.db row'
            (transferCompletedMessage row' receiverWalletId draw.completed ::
              sharePaidMessages row' share bill status draw) :=
          .share hcompleted hreceiver hshare hcounted₄.share_mem hcounted₄.bill_mem hbillId
            hcounted₄.status_eq
        rwa [sharePaidMessages, if_pos hcreator] at hannounces
      · next hcreator =>
        refine hQ w₃ _ h₃ (ha₂.trans (later_ahead hw₃)) ?_
        have hannounces : Announces setting w₃.db row'
            (transferCompletedMessage row' receiverWalletId draw.completed ::
              sharePaidMessages row' share bill status draw) :=
          .share hcompleted hreceiver hshare hcounted₃.share_mem hcounted₃.bill_mem hbillId
            hcounted₃.status_eq
        rwa [sharePaidMessages, if_neg hcreator] at hannounces

end Messages

/-- The patch of a completion. -/
lemma patches_finish (transfer : Transfer) : Patches setting transfer finish :=
  .keeping (fun _ => rfl) (fun _ => rfl) (fun _ => ⟨rfl, rfl⟩) fun _ => .inl rfl

/-- The transaction that completes a transfer, with its messages. -/
lemma wp_completeTransaction {draw : CompletionDraw} {Q : World → List Write → Reply → Prop}
    {E : World → PaymentsError → Prop} (h : Working setting w i job n transfer)
    (hQ : ∀ w' row messages, Matched setting w' i job n transfer row → Ahead setting i w w' →
      TransferStatus.completed ∈ row.status.allowedTransitions →
      Announces setting w'.db (moved finish .completed row) messages →
      Q w' (.saveTransfer (moved finish .completed row) :: messages.map .insertOutbox)
        (.transfer (moved finish .completed row)))
    (hE : ∀ w' e, Working setting w' i job n transfer → E w' e) :
    (completeTransaction transfer (job.draw.runs n).leaseOwner draw).wp (payments setting)
      (paymentsProtocol setting) i Q E w [] := by
  simp only [completeTransaction, Tx.bind_eq, Tx.wp_bind]
  refine wp_transitionUsingManager h (patches_finish transfer) (fun w₁ row hm ha₁ hnext => ?_)
    fun w' e h' _ _ => hE w' e h'
  have hid : (moved finish .completed row).id = row.id := rfl
  refine wp_enqueueTransferCompleted hm hid hE fun w₂ receiverWalletId hm₂ ha₂ hreceiver => ?_
  refine wp_enqueueSplitSharePaid hm₂ hid hE rfl hreceiver rfl fun w₃ messages hm₃ ha₃ hmess => ?_
  exact hQ w₃ row messages hm₃ (ha₁.trans (ha₂.trans ha₃)) hnext hmess

/-- A transfer with a receipt is completed, and the run ends. -/
lemma wp_complete {draw : CompletionDraw} {Φ : World → Except PaymentsError Unit → Prop}
    (h : Working setting w i job n transfer) (hreceipt : w.HasReceipt transfer.id)
    (hok : ∀ w', Serving setting w' i job (n + 1) → Φ w' (.ok ()))
    (herr : ∀ w' e, Working setting w' i job n transfer → Φ w' (.error e)) :
    (complete transfer (job.draw.runs n).leaseOwner draw).wp (payments setting)
      (paymentsProtocol setting) i Φ w := by
  simp only [complete, Prog.bind_eq, Prog.wp_bind, Prog.run]
  intro w₁ hw₁
  refine ⟨?_, fun e _ => herr w₁ e (h.later hw₁)⟩
  refine wp_completeTransaction (h.later hw₁) (fun w₂ row messages hm ha₂ hnext hmess w₃ hw₃ _ => ?_)
    fun w' e h' => herr w' e h'
  have hm₃ := hm.later (by simp [locksOf, Store.locks, Write.locks, moved, finish]) hw₃
  have ha := (later_ahead hw₁).trans (ha₂.trans (later_ahead hw₃))
  have hjust : Justified setting w transfer .completed := hreceipt
  have hsaved : SavedBy (job.draw.runs n).leaseOwner transfer row
      (completeTransaction transfer (job.draw.runs n).leaseOwner draw)
      (moved finish .completed row) := .complete hnext
  have hadv := hm₃.moved_advance (patches_finish transfer) (fun _ _ => ⟨rfl, rfl⟩) (fun _ _ => rfl) hnext hsaved
    (hm₃.justified h.inv (fun _ => hjust) ha)
  obtain ⟨hguar, hworking, -, -⟩ := hm₃.commit messages (.transfer (moved finish .completed row))
    hadv (hmess.later (by simp) (by simp) hm.mem rfl rfl hw₃) (by simp)
  exact ⟨hguar, hok _ hworking.toServing⟩

/-! ### Steps of a run -/

/-- The patch of a transition that starts the attempts of the next step. -/
lemma patches_resetRetry (transfer : Transfer) : Patches setting transfer resetRetry :=
  .keeping (fun _ => rfl) (fun _ => rfl) (fun _ => ⟨rfl, rfl⟩) fun _ => .inr rfl

/-- It does start them over. -/
lemma startsOver_resetRetry (next : TransferStatus) : StartsOver next resetRetry := fun _ _ => rfl

/-- A transition that does not end the transfer keeps its lease. -/
lemma GivesUp.of_live {next : TransferStatus} {patch : Transfer → Transfer}
    (h : next.isTerminal = false) : GivesUp next patch := fun hended => by
  rw [h] at hended
  cases hended

/-- Who the receiver is does not depend on the lease. -/
lemma ReceiverKnown.of_unleased (h : ReceiverKnown setting transfer)
    (hsame : row.unleased = transfer.unleased) : ReceiverKnown setting row := by
  change ReceiverKnown setting row.unleased
  rw [hsame]
  exact h

/-- The hold that a request to place it was answered with. -/
lemma Responds.holdExists {body : Body} (h : Responds setting w (placeHoldCommand transfer) body) :
    w.HoldExists transfer := by
  obtain ⟨t, request, j, ljob, reply, -, -, -, -, hcommand, hanswers, -⟩ := h
  simp only [Ledger.Answers, hcommand, placeHoldCommand] at hanswers
  obtain ⟨-, hold, hhold, -⟩ := hanswers
  exact ⟨hold, hhold⟩

/-- The receiver that a validation was answered with, unless the answer got lost. -/
lemma Responds.validated {body : Body} (h : Responds setting w (validateCommand transfer) body) :
    (∃ receiverWalletId, body.receiverWalletId = some receiverWalletId) ∨
      ∃ receiverWalletId, setting.loses (validateCommand transfer) (.validated receiverWalletId) := by
  obtain ⟨t, request, j, ljob, reply, -, -, -, -, hcommand, hanswers, hbody⟩ := h
  simp only [Ledger.Answers, hcommand, validateCommand] at hanswers
  obtain ⟨receiverWalletId, rfl⟩ := hanswers
  rcases hbody with rfl | ⟨-, hlost⟩
  · exact .inl ⟨receiverWalletId, rfl⟩
  · exact .inr ⟨receiverWalletId, hlost⟩

/-- The receiver is known once a row has what the validation was answered with. -/
lemma Responds.receiverKnown {row' : Transfer} {body : Body}
    (h : Responds setting w (validateCommand transfer) body) (hterms : row'.terms = transfer.terms)
    (hreceiver : ∀ id, body.receiverWalletId = some id → row'.receiverWalletId = some id) :
    ReceiverKnown setting row' := by
  rcases h.validated with ⟨receiverWalletId, hbody⟩ | ⟨receiverWalletId, hlost⟩
  · refine .inl ?_
    rw [hreceiver receiverWalletId hbody]
    exact Option.some_ne_none receiverWalletId
  · refine .inr ⟨receiverWalletId, ?_⟩
    rwa [Transfer.congr_terms hterms validateCommand fun _ => rfl]

/-- The receiver stays known. -/
lemma ReceiverKnown.evolves {row' : Transfer} (h : ReceiverKnown setting row)
    (he : row.Evolves row') : ReceiverKnown setting row' := by
  rcases h with hsome | ⟨receiverWalletId, hlost⟩
  · obtain ⟨id, hid⟩ := Option.ne_none_iff_exists'.mp hsome
    refine .inl ?_
    rw [he.receiver id hid]
    exact Option.some_ne_none id
  · refine .inr ⟨receiverWalletId, ?_⟩
    rwa [he.validateCommand_eq]

/-- The receipt of a settlement that was answered. -/
lemma Responds.hasReceipt {body : Body} {transferId : String}
    {dto : Ledger.SettleInternalTransferDto}
    (h : Responds setting w (.settleTransfer transferId dto) body) : w.HasReceipt transferId := by
  obtain ⟨t, request, j, ljob, reply, -, -, -, -, hcommand, hanswers, -⟩ := h
  simp only [Ledger.Answers, hcommand] at hanswers
  obtain ⟨-, receipt, hmem, ht, -⟩ := hanswers
  exact ⟨receipt, hmem, ht⟩

/-- The receipt that a release was answered with. -/
lemma Responds.alreadySettled {body : Body}
    (h : Responds setting w (releaseCommand transfer) body)
    (hout : body.outcome = some .alreadySettled) : w.HasReceipt transfer.id := by
  obtain ⟨t, request, j, ljob, reply, -, -, -, -, hcommand, hanswers, rfl | ⟨rfl, -⟩⟩ := h
  · simp only [Ledger.Answers, hcommand, releaseCommand] at hanswers
    rcases hanswers with ⟨-, receipt, hmem, ht⟩ | ⟨rfl, -⟩
    · exact ⟨receipt, hmem, ht⟩
    · cases hout
  · cases hout

/-- The release that a transfer fails with. -/
lemma Responds.releaseAnswered {body : Body}
    (h : Responds setting w (releaseCommand transfer) body)
    (hout : body.outcome ≠ some .alreadySettled) : w.ReleaseAnswered setting transfer := by
  obtain ⟨t, request, j, ljob, reply, hsent, hrequest, horigin, hjob, hcommand, hanswers, hbody⟩ := h
  refine ⟨t, request, j, ljob, reply, hsent, hrequest, horigin, hjob, hanswers, ?_⟩
  rintro rfl
  rcases hbody with rfl | ⟨-, hlost⟩
  · exact absurd rfl hout
  · exact hrequest ▸ hlost

section Steps

variable (h : Working setting w i job n transfer)

include h

/-- A transfer without a receiver is validated, and the ledger's answer is its receiver from then
on. -/
lemma wp_resolveReceiver {Φ : World → Except PaymentsError Transfer → Prop}
    (hexp : transfer.receiverWalletId = none →
      exposed setting.config job.command.now transfer = true)
    (hok : ∀ w' row', Working setting w' i job n row' → ReceiverKnown setting row' →
      transfer.status.rank ≤ row'.status.rank →
      row' = transfer ∨ (setting.DistinctOwners → (w'.claimOf i).Wrote row'.id) → Φ w' (.ok row'))
    (herr : ∀ w' e, Working setting w' i job n transfer → MayReject setting w' i job →
      Φ w' (.error e)) :
    (resolveReceiver setting.config (job.draw.runs n).leaseOwner transfer).wp (payments setting)
      (paymentsProtocol setting) i Φ w := by
  unfold resolveReceiver
  split_ifs with hnone
  · simp only [validate, Prog.bind_eq, Prog.wp_bind]
    have herr' : ∀ w' e, Working setting w' i job n transfer → Φ w' (.error e) :=
      fun w' e h' => herr w' e h' (h'.mayReject (hexp hnone))
    refine wp_request h (fun w' h' ha => ?_) rfl (h.leased (hexp hnone))
      (fun w' body h' ha hr => ?_) fun w' e h' _ => herr' w' e h'
    · obtain ⟨row, hrow, he⟩ := h'.knows
      exact he.validateCommand_eq ▸ .validate hrow
    · have hreceiver : ∀ row : Transfer, row.unleased = transfer.unleased →
          row.receiverWalletId = none := fun row hsame =>
        (Transfer.congr_unleased hsame (·.receiverWalletId) fun _ => rfl).trans hnone
      have hknown : ∀ row : Transfer, row.unleased = transfer.unleased →
          ReceiverKnown setting (updated (fun row => { row with
            receiverWalletId := body.receiverWalletId.or row.receiverWalletId, retryCount := 0,
            nextRetryAt := none, failureCode := none, failureMessage := none }) row) := by
        intro row hsame
        refine hr.receiverKnown (Transfer.congr_unleased hsame Transfer.terms fun _ => rfl) fun id hid => ?_
        simp [updated, hid]
      refine wp_updateClaimed h' ⟨fun _ => rfl, fun _ => rfl, fun _ h => h, fun row hsame id hid => ?_,
        fun _ => .inr rfl, fun row _ hnot hhold => ?_⟩ (fun row hsame => ?_)
        (fun w'' row row' hw'' hsame he hwrote => ?_) fun w'' e h'' _ => herr' w'' e h''
      · rw [hreceiver row hsame] at hid
        cases hid
      · exact absurd hhold (by simp [hnot])
      · exact .resolved rfl (hreceiver row hsame) (hknown row hsame) rfl
      · have hstatus := Transfer.congr_unleased hsame (·.status) fun _ => rfl
        exact hok w'' row' hw'' ((hknown row hsame).evolves he) (hstatus ▸ he.status.rank_le)
          (.inr hwrote)
  · exact hok w transfer h (.inl hnone) le_rfl (.inl rfl)

/-- Before the request for the hold, the row says that a hold may exist. -/
lemma wp_markHold {Φ : World → Except PaymentsError Transfer → Prop}
    (hknown : ReceiverKnown setting transfer)
    (hok : ∀ w' row', Working setting w' i job n row' → row'.holdMayExist = true →
      transfer.status.rank ≤ row'.status.rank →
      (row' = transfer ∧ w' = w) ∨ (setting.DistinctOwners → (w'.claimOf i).Wrote row'.id) →
      Φ w' (.ok row'))
    (herr : ∀ w' e, Working setting w' i job n transfer →
      (e ≠ .sagaLeaseLost → MayReject setting w' i job) → Φ w' (.error e)) :
    (markHold (job.draw.runs n).leaseOwner transfer).wp (payments setting)
      (paymentsProtocol setting) i Φ w := by
  unfold markHold
  split_ifs with hhold
  · exact hok w transfer h hhold le_rfl (.inl ⟨rfl, rfl⟩)
  · exact wp_updateClaimed h ⟨fun _ => rfl, fun _ => rfl, fun _ _ => rfl, fun _ _ _ h => h,
      fun _ => .inr rfl, fun _ hsame _ _ => hknown.of_unleased hsame⟩ (fun _ _ => .kept rfl rfl)
      (fun w' row row' hw' hsame he hwrote => by
        have hstatus := Transfer.congr_unleased hsame (·.status) fun _ => rfl
        exact hok w' row' hw' (he.holdMayExist rfl) (hstatus ▸ he.status.rank_le) (.inr hwrote))
      fun w' e h' hthrown => herr w' e h' hthrown.lost

/-- The hold is placed, and the transfer goes on to its settlement. -/
lemma wp_holdFunds {config : Config} {Φ : World → Except PaymentsError Transfer → Prop}
    (hhold : transfer.holdMayExist = true)
    (hleased : setting.DistinctOwners → Leased setting w i transfer.id)
    (hreject : MayReject setting w i job)
    (hok : ∀ w' row', Working setting w' i job n row' →
      row'.status ∈ transfer.status.allowedTransitions → Φ w' (.ok row'))
    (herr : ∀ w' e, Working setting w' i job n transfer → MayReject setting w' i job →
      Φ w' (.error e)) :
    (holdFunds config (job.draw.runs n).leaseOwner transfer).wp (payments setting)
      (paymentsProtocol setting) i Φ w := by
  simp only [holdFunds, placeHold, Prog.bind_eq, Prog.wp_bind]
  refine wp_request h (fun w' h' ha => ?_) rfl hleased (fun w' body h' ha hr => ?_)
    fun w' e h' ha => herr w' e h' (hreject.ahead ha)
  · obtain ⟨row, hrow, he⟩ := h'.knows
    exact he.placeHoldCommand_eq ▸ .placeHold hrow (he.holdMayExist hhold)
  · exact wp_transitionClaimed h' (patches_resetRetry transfer) (.of_live rfl)
      (startsOver_resetRetry _) (by simp) (fun _ => ⟨hhold, hr.holdExists⟩) hok
      fun w'' e h'' hkeeps _ => herr w'' e h'' (hkeeps (hreject.ahead ha))

/-- A transfer that is settled is completed. -/
lemma wp_settleAndComplete {draw : CompletionDraw} {Φ : World → Except PaymentsError Unit → Prop}
    (hstatus : transfer.status = .processing)
    (hok : ∀ w', Serving setting w' i job (n + 1) → Φ w' (.ok ()))
    (herr : ∀ w' e, Working setting w' i job n transfer → Φ w' (.error e)) :
    (settleAndComplete setting.config (job.draw.runs n).leaseOwner transfer draw).wp
      (payments setting) (paymentsProtocol setting) i Φ w := by
  simp only [settleAndComplete, settle, Prog.bind_eq, Prog.wp_bind]
  split
  · exact herr w _ h
  · next receiverWalletId hreceiver =>
    simp only [Prog.wp_bind]
    refine wp_request h (fun w' h' ha => ?_) rfl (h.leased (by simp [exposed, hstatus]))
      (fun w' body h' ha hr => ?_) fun w' e h' _ => herr w' e h'
    · obtain ⟨row, hrow, he⟩ := h'.knows
      have hreached : w'.Reached row.id := he.id_eq ▸ h'.reached (.inr hstatus)
      exact he.id_eq ▸ he.settleDto_eq receiverWalletId ▸
        .settle hrow (he.receiver _ hreceiver) hreached
    · exact wp_complete h' hr.hasReceipt hok herr

/-- A transfer whose hold is released fails; one that the ledger has settled is completed. -/
lemma wp_compensate {draw : CompletionDraw} {Φ : World → Except PaymentsError Unit → Prop}
    (hstatus : transfer.status = .compensating)
    (hok : ∀ w', Serving setting w' i job (n + 1) → Φ w' (.ok ()))
    (herr : ∀ w' e, Working setting w' i job n transfer → Φ w' (.error e)) :
    (compensate setting.config (job.draw.runs n).leaseOwner transfer draw).wp
      (payments setting) (paymentsProtocol setting) i Φ w := by
  simp only [compensate, release, Prog.bind_eq, Prog.wp_bind]
  refine wp_request h (fun w' h' ha => ?_) rfl (h.leased (by simp [exposed, hstatus]))
    (fun w' body h' ha hr => ?_) fun w' e h' _ => herr w' e h'
  · obtain ⟨row, hrow, he⟩ := h'.knows
    have hlate := he.status.isLate (by rw [hstatus]; decide)
    exact he.releaseCommand_eq ▸ .release hrow hlate
  · change (ite _ _ _ : PaymentsProg Unit).wp _ _ _ _ _
    split_ifs with hout
    · exact wp_complete h' (hr.alreadySettled hout) hok herr
    · exact wp_fail h' (fun _ => .inr ⟨hstatus, hr.releaseAnswered hout⟩) hok
        fun w'' e h'' _ => herr w'' e h''

end Steps

/-- One step of a run keeps the protocol when the rest of the run does. -/
lemma wp_sagaStep {draw : CompletionDraw} {next : Transfer → PaymentsProg Unit}
    (h : Working setting w i job n transfer)
    (hnext : ∀ w' row', Working setting w' i job n row' →
      transfer.status.rank < row'.status.rank → (next row').wp (payments setting)
        (paymentsProtocol setting) i (fun w' r => Ended setting w' i job n r) w') :
    (sagaStep setting.config (job.draw.runs n).leaseOwner job.command.now draw next transfer).wp
      (payments setting) (paymentsProtocol setting) i
      (fun w' r => Ended setting w' i job n r) w := by
  have hcaught : ∀ {w' row' e}, Working setting w' i job n row' →
      transfer.status.rank ≤ row'.status.rank →
      (e ≠ .sagaLeaseLost → MayReject setting w' i job) →
      (caught setting.config (job.draw.runs n).leaseOwner job.command.now next row' e).wp
        (payments setting) (paymentsProtocol setting) i
        (fun w' r => Ended setting w' i job n r) w' := fun h' hle hreject =>
    wp_caught h' hreject fun w'' row'' h'' hlt => hnext w'' row'' h'' (hle.trans_lt hlt)
  unfold sagaStep
  dsimp only
  split
  · exact .ok h.toServing
  · exact .ok h.toServing
  · next hstatus =>
    rw [Prog.wp_attempt]
    exact wp_transitionClaimed h (patches_resetRetry transfer) (.of_live rfl)
      (startsOver_resetRetry _) (by simp) (fun _ => trivial)
      (fun w' row' h' hmoved => hnext w' row' h' (TransferStatus.rank_lt hmoved))
      fun w' e h' _ hthrown => hcaught h' le_rfl (hthrown (by rw [hstatus]; decide)).lost
  · next hstatus =>
    split
    · next hvalid =>
      refine hcaught h le_rfl fun _ => h.mayReject ?_
      simp [exposed, hstatus, hvalid, Except.isOk, Except.toBool]
    · rw [Prog.wp_attempt]
      have hexp : transfer.receiverWalletId = none ∨ transfer.holdMayExist = true →
          exposed setting.config job.command.now transfer = true := by
        rintro (hnone | hhold)
        · simp [exposed, hstatus, hnone]
        · simp [exposed, hstatus, hhold]
      refine wp_resolveReceiver h (fun hnone => hexp (.inl hnone))
        (fun w₁ row₁ h₁ hknown hle₁ hor₁ => ?_)
        fun w' e h' hreject => hcaught h' le_rfl fun _ => hreject
      dsimp only
      rw [Prog.wp_attempt]
      refine wp_markHold h₁ hknown (fun w₂ row₂ h₂ hhold hle₂ hor₂ => ?_)
        fun w' e h' hreject => hcaught h' hle₁ hreject
      have hle := hle₁.trans hle₂
      -- the lease was written, or the row is the one that was read first
      have hor : (setting.DistinctOwners → (w₂.claimOf i).Wrote row₂.id) ∨
          exposed setting.config job.command.now row₂ = true := by
        rcases hor₂ with ⟨rfl, rfl⟩ | hwrote
        · rcases hor₁ with rfl | hwrote
          · exact .inr (hexp (.inr hhold))
          · exact .inl hwrote
        · exact .inl hwrote
      dsimp only
      rw [Prog.wp_attempt]
      refine wp_holdFunds h₂ hhold (fun hd => ?_) ?_
        (fun w' row' h' hmoved => hnext w' row' h' (hle.trans_lt (TransferStatus.rank_lt hmoved)))
        fun w' e h' hreject => hcaught h' hle fun _ => hreject
      · exact hor.elim (fun hwrote => .inl (hwrote hd)) fun hexposed => h₂.leased hexposed hd
      · exact hor.elim .of_wrote h₂.mayReject
  · next hstatus =>
    rw [Prog.wp_attempt]
    exact wp_transitionClaimed h (patches_resetRetry transfer) (.of_live rfl)
      (startsOver_resetRetry _) (by simp) (fun _ => trivial)
      (fun w' row' h' hmoved => hnext w' row' h' (TransferStatus.rank_lt hmoved))
      fun w' e h' _ hthrown => hcaught h' le_rfl (hthrown (by rw [hstatus]; decide)).lost
  · next hstatus =>
    have hexp : exposed setting.config job.command.now transfer = true := by
      simp [exposed, hstatus]
    rw [Prog.wp_attempt]
    exact wp_settleAndComplete h hstatus (fun _ h' => .ok h') fun w' e h' =>
      hcaught h' le_rfl fun _ => h'.mayReject hexp
  · next hstatus =>
    have hexp : exposed setting.config job.command.now transfer = true := by
      simp [exposed, hstatus]
    rw [Prog.wp_attempt]
    exact wp_compensate h hstatus (fun _ h' => .ok h') fun w' e h' =>
      hcaught h' le_rfl fun _ => h'.mayReject hexp

/-- The loop of a run keeps the protocol.  Every step goes up, so that the steps that are left
suffice. -/
lemma wp_sagaLoop (left : Nat) (h : Working setting w i job n transfer)
    (hleft : 6 ≤ transfer.status.rank + left) :
    (sagaLoop setting.config (job.draw.runs n) job.command.now left transfer).wp (payments setting)
      (paymentsProtocol setting) i (fun w' r => Ended setting w' i job n r) w := by
  induction left generalizing w transfer with
  | zero => exact absurd (transfer.status.rank_le_five) (by omega)
  | succ left ih => exact wp_sagaStep h fun w' row' h' hlt => ih h' (by omega)

/-! ### Runs -/

/-- After the statement of `claim`: the run's lease is on the row, or on none. -/
structure Claiming (setting : Setting) (w : World) (i : Nat) (job : Job) (n : Nat)
    (transferId : String) : Prop extends Serving setting w i job (n + 1) where
  lawful : setting.DistinctOwners → (w.claimOf i).Wrote transferId ∨
    w.NoLease (job.draw.runs n).leaseOwner

/-- What the others do leaves the lease as it is. -/
lemma Claiming.later {p : List Write} {transferId : String}
    (h : Claiming setting w i job n transferId)
    (hw : Later (payments setting) (paymentsProtocol setting) i p w w') :
    Claiming setting w' i job n transferId := by
  have ha := later_ahead hw
  refine ⟨h.toServing.later hw, fun hd => ?_⟩
  rw [ha.claim]
  exact (h.lawful hd).imp_right (ha.noLease hd job n h.job_eq)

/-- The commit of a claim that matched no row. -/
lemma Serving.commit_unmatched (h : Serving setting w i job n) (body : PaymentsTx Reply)
    (raw : List RawItem) (transferId : String) :
    Claiming setting ((payments setting).commit w ⟨i, body, [], .claimed raw⟩) i job n transferId := by
  refine ⟨⟨h.inv.commit (h.guar_nil _ _), h.job_eq, fun hd m hm => ?_⟩, fun hd => .inr ?_⟩
  · exact h.fresh hd m (by omega)
  · exact h.fresh hd n le_rfl

/-- The commit of a claim that matched its row. -/
lemma Serving.commit_matched (h : Serving setting w i job n) (hrow : row ∈ w.db.transfers)
    (hclaim : claimable job.command.now row = true) (body : PaymentsTx Reply)
    (raw : List RawItem) :
    let c : PaymentsCommit := ⟨i, body, [.saveTransfer (leasedRow setting job n row)], .claimed raw⟩
    (paymentsProtocol setting).guar w c ∧
      Claiming setting ((payments setting).commit w c) i job n row.id := by
  intro c
  have hlive : row.status ≠ .completed := by
    rintro heq
    simp [claimable, heq, TransferStatus.isTerminal] at hclaim
  have hmove : Move setting w job body (.saveTransfer (leasedRow setting job n row) ::
      ([] : List PaymentOutboxMessage).map .insertOutbox) :=
    .save hrow (.lease hclaim) (.nothing hlive)
  have hguar : (paymentsProtocol setting).guar w c :=
    ⟨job, h.job_eq, hmove, fun _ _ _ hsaved => ⟨row, hrow, n, hclaim, (Option.some.inj hsaved).symm⟩,
      (fun _ hraw => absurd rfl (hraw raw)), fun hraw => absurd rfl (hraw raw)⟩
  refine ⟨hguar, ⟨h.inv.commit hguar, h.job_eq, fun hd m hm r hr heq => ?_⟩, fun _ => .inl ?_⟩
  · change r ∈ saveRow _ w.db.transfers at hr
    rcases mem_saveRow.mp hr with ⟨hmem, -⟩ | ⟨rfl, -⟩
    · exact h.fresh hd m (by omega) r hmem heq
    · have hdraw := h.inv.draws i job h.job_eq
      have hsame := (hd i i _ _ n m hdraw hdraw (Option.some.inj heq)).2
      omega
  · rw [claimOf_commit, if_pos rfl]
    exact ⟨_, rfl, rfl⟩

/-- `claim` returns a row that the worker may work on, or nothing. -/
lemma wp_claim {transferId : String}
    {Φ : World → Except PaymentsError (Option Transfer) → Prop} (h : Serving setting w i job n)
    (hok : ∀ w' row, Working setting w' i job n row → Φ w' (.ok (some row)))
    (herr : ∀ w' e, Serving setting w' i job (n + 1) →
      e = .entityNotFound "Transfer" ∨ MayReject setting w' i job → Φ w' (.error e)) :
    (claim setting.config transferId (job.draw.runs n) job.command.now).wp (payments setting)
      (paymentsProtocol setting) i Φ w := by
  have hnext : ∀ {w'}, Serving setting w' i job n → Serving setting w' i job (n + 1) := fun h' =>
    ⟨h'.inv, h'.job_eq, fun hd m hm => h'.fresh hd m (by omega)⟩
  -- The row is read after the statement, whether or not it matched.
  have hfind : ∀ w', Claiming setting w' i job n transferId → (do
      let reply ← Prog.run (findClaimed transferId)
      return some (← rowOf reply) : PaymentsProg (Option Transfer)).wp (payments setting)
        (paymentsProtocol setting) i Φ w' := by
    intro w₀ h₀
    simp only [Prog.bind_eq, Prog.wp_bind, Prog.run]
    intro w₁ hw₁
    have h₁ := h₀.later hw₁
    refine ⟨?_, fun e he => herr w₁ e h₁.toServing (.inr (.of_fails he))⟩
    simp only [findClaimed, findTransfer, Tx.bind_eq, Tx.wp_bind, Tx.wp_query]
    intro w₂ hw₂
    have h₂ := h₁.later hw₂
    cases hfound : (view ((payments setting).db w₂) ([] : List Write)).transferById transferId with
    | none => exact herr w₂ _ h₂.toServing (.inl rfl)
    | some found =>
      obtain ⟨hmem, hid⟩ := transferById_some hfound
      intro w₃ hw₃ _
      have h₃ := h₂.later hw₃
      obtain ⟨row₃, hrow₃, he₃⟩ := (later_ahead hw₃).rows found hmem
      refine ⟨h₃.guar_nil _ _, hok _ found ⟨⟨h₃.inv.commit (h₃.guar_nil _ _), h₃.job_eq,
        h₃.fresh⟩, ⟨row₃, hrow₃, he₃⟩, fun hs => ?_, fun hd => ?_⟩⟩
      · exact Reached.commit ((later_ahead hw₃).reached _ (h₂.inv.reached found hmem hs))
      · rw [claimOf_commit, if_pos rfl, hid]
        exact (h₃.lawful hd).imp_right fun hno => ⟨hno, rfl⟩
  simp only [claim, Prog.bind_eq, Prog.wp_bind]
  rw [Prog.run]
  intro w₁ hw₁
  have h₁ := h.later hw₁
  refine ⟨?_, fun e he => herr w₁ e (hnext h₁) (.inr (.of_fails he))⟩
  simp only [claimStatement, Tx.bind_eq, Tx.wp_bind]
  refine wp_updateTransfers transferId (fun row hrow => ?_) (fun w₂ hw₂ _ => ?_)
    fun w₂ row hw₂ hrow hmatched => ?_
  · simp only [Bool.and_eq_true, decide_eq_true_eq] at hrow
    exact hrow.1.1
  · intro w₃ hw₃ _
    have h₃ := (h₁.later hw₂).later hw₃
    exact ⟨h₃.guar_nil _ _, hfind _ (h₃.commit_unmatched _ _ _)⟩
  · intro w₃ hw₃ _
    have h₃ := (h₁.later hw₂).later hw₃
    have hrow₃ : row ∈ w₃.db.transfers :=
      (later_locked (by simp [locksOf, Store.locks, Write.locks, Transfer.lease]) hw₃ rfl).mpr hrow
    simp only [Bool.and_eq_true, decide_eq_true_eq] at hmatched
    obtain ⟨hguar, hclaiming⟩ := h₃.commit_matched hrow₃ hmatched.1.2 _ _
    exact ⟨hguar, hfind _ (hmatched.1.1 ▸ hclaiming)⟩

/-- One run of the saga. -/
lemma wp_run {transferId : String} {draw : Nat → RunDraw} {now : Int}
    (h : Serving setting w i job n) (hdraw : draw = job.draw.runs) (hnow : now = job.command.now) :
    (run setting.config transferId (draw n) now).wp (payments setting) (paymentsProtocol setting) i
      (fun w' r => Ended setting w' i job n r) w := by
  subst hdraw hnow
  simp only [run, Prog.bind_eq, Prog.wp_bind]
  refine wp_claim h (fun w' row h' => wp_sagaLoop 8 h' (by omega)) fun w' e h' hreject => ?_
  exact ⟨h', fun _ heq => Except.error.inj heq ▸ hreject⟩

/-- The runs of a recovery, one after the other. -/
lemma wp_runEach {draw : Nat → RunDraw} {now : Int} (ids : List String)
    (h : Serving setting w i job n) (hdraw : draw = job.draw.runs) (hnow : now = job.command.now) :
    (runEach setting.config draw now n ids).wp (payments setting) (paymentsProtocol setting) i
      (fun w' r => w'.jobs i = some job ∧
        ∀ e, r = .error e → e = .entityNotFound "Transfer" ∨ MayReject setting w' i job) w := by
  induction ids generalizing w n with
  | nil => exact ⟨h.job_eq, fun _ heq => nomatch heq⟩
  | cons id ids ih =>
    simp only [runEach, Prog.bind_eq, Prog.wp_bind]
    refine Prog.wp_mono (fun w' r h' => ?_) (wp_run h hdraw hnow)
    cases r with
    | ok => exact ih h'.1
    | error e => exact ⟨h'.1.job_eq, h'.2⟩

end Payments

end PeerLedger
