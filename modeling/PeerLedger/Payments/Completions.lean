import PeerLedger.Payments.Fencing

/-!
# The messages of completed transfers

`complete` writes the completed row and its outbox messages in one transaction.  `completion_events`
says that the outbox has exactly one `payments.transfer.Completed` message for every completed
transfer, exactly one `payments.split-bill.SharePaid` message for every completed transfer of a share,
and none for any other transfer; and that a transaction that throws on its way leaves the tables alone.

The `SharePaid` message also announces the status of the bill.
-/

namespace PeerLedger

namespace Payments

open Transactions

/-! ### One event for each completion -/

/-- The number of messages of a type about a transfer. -/
def eventCount (eventType t : String) (outbox : List PaymentOutboxMessage) : Nat :=
  outbox.countP fun message => message.event.eventType = eventType ∧ message.event.correlationId = t

/-- The transfer `t` is completed. -/
def Database.isCompleted (db : Database) (t : String) : Bool :=
  (db.transferById t).any fun row => row.status = .completed

/-- The transfer `t` pays a share of a split bill. -/
def Database.paysShare (db : Database) (t : String) : Bool :=
  (db.transferById t).any fun row => row.splitBillShareId.isSome

/-- The events of the completed transfers. -/
structure CompletionEvents (db : Database) (t : String) : Prop where
  completed : eventCount "payments.transfer.Completed" t db.outbox =
    if db.isCompleted t then 1 else 0
  sharePaid : eventCount "payments.split-bill.SharePaid" t db.outbox =
    if db.isCompleted t && db.paysShare t then 1 else 0

lemma eventCount_append (eventType t : String) (a b : List PaymentOutboxMessage) :
    eventCount eventType t (a ++ b) = eventCount eventType t a + eventCount eventType t b :=
  List.countP_append

/-- The events of a completed transfer. -/
lemma eventCount_transferCompleted (eventType t receiverWalletId : String) (row : Transfer)
    (draw : MessageDraw) :
    eventCount eventType t [transferCompletedMessage row receiverWalletId draw] =
      if eventType = "payments.transfer.Completed" ∧ row.id = t then 1 else 0 := by
  rw [eventCount, List.countP_singleton]
  refine if_congr ?_ rfl rfl
  rw [decide_eq_true_eq]
  exact and_congr_left' eq_comm

/-- The events of a paid share. -/
lemma eventCount_sharePaid {eventType : String} (t : String) (row : Transfer)
    (share : SplitBillShare) (bill : SplitBill) (status : SplitBillStatus) (draw : CompletionDraw)
    (hne : eventType ≠ "payments.split-bill.StatusChanged") :
    eventCount eventType t (sharePaidMessages row share bill status draw) =
      if eventType = "payments.split-bill.SharePaid" ∧ row.id = t then 1 else 0 := by
  have hchanged : eventCount eventType t (if bill.creatorUserId ≠ share.participantUserId then
      [statusChangedMessage row share bill status draw.statusChanged] else []) = 0 := by
    split_ifs
    · rw [eventCount, List.countP_singleton]
      simp [statusChangedMessage, outboxMessage, hne.symm]
    · rfl
  rw [sharePaidMessages, ← List.singleton_append, eventCount_append, hchanged, Nat.add_zero,
    eventCount, List.countP_singleton]
  refine if_congr ?_ rfl rfl
  rw [decide_eq_true_eq]
  exact and_congr_left' eq_comm

/-- The messages about new shares are of another kind. -/
lemma eventCount_newShares {eventType : String} (t : String) (config : Config) (bill : SplitBill)
    (draw : Draw) (hne : eventType ≠ "payments.split-bill.Created") (index : Nat)
    (shares : List (String × Int)) :
    eventCount eventType t ((newShares config bill draw index shares).map (·.2)) = 0 := by
  induction shares generalizing index with
  | nil => rfl
  | cons share shares ih =>
    rw [newShares, List.map_cons, ← List.singleton_append, eventCount_append, ih, Nat.add_zero,
      eventCount, List.countP_singleton]
    simp [splitBillCreatedMessage, outboxMessage, hne.symm]

/-- The events that a version of a row is announced with. -/
lemma Announces.eventCount {setting : Setting} {db : Database} {row : Transfer}
    {messages : List PaymentOutboxMessage} (h : Announces setting db row messages) (t : String) :
    eventCount "payments.transfer.Completed" t messages =
      (if row.status = .completed ∧ row.id = t then 1 else 0) ∧
    eventCount "payments.split-bill.SharePaid" t messages =
      if (row.status = .completed ∧ row.id = t) ∧ row.splitBillShareId.isSome then 1 else 0 := by
  cases h with
  | nothing hstatus => simp [Payments.eventCount, hstatus]
  | transfer hstatus hreceiver hnone =>
    rw [eventCount_transferCompleted, eventCount_transferCompleted]
    simp [hstatus, hnone]
  | share hstatus hreceiver hsome =>
    rw [← List.singleton_append, eventCount_append, eventCount_append, eventCount_transferCompleted,
      eventCount_transferCompleted, eventCount_sharePaid _ _ _ _ _ _ (by decide),
      eventCount_sharePaid _ _ _ _ _ _ (by decide)]
    simp [hstatus, hsome]

section Step

variable {setting : Setting} {w : World} {job : Job} {body : PaymentsTx Reply} {ws : List Write}

/-- The events that a move adds: those of the version that it completes. -/
lemma Move.eventCount (h : Move setting w job body ws) (t : String) :
    eventCount "payments.transfer.Completed" t (view w.db ws).outbox =
      eventCount "payments.transfer.Completed" t w.db.outbox +
        (if ∃ row ∈ writtenRows t ws, row.status = .completed then 1 else 0) ∧
    eventCount "payments.split-bill.SharePaid" t (view w.db ws).outbox =
      eventCount "payments.split-bill.SharePaid" t w.db.outbox +
        if ∃ row ∈ writtenRows t ws, row.status = .completed ∧ row.splitBillShareId.isSome
        then 1 else 0 := by
  cases h with
  | none => simp [writtenRows]
  | @insert row hfresh hnew =>
    have hpending : ∀ r ∈ writtenRows t [Write.insertTransfer row], r.status ≠ .completed := by
      intro r hr
      have heq : r = row := by
        by_cases ht : row.id = t <;> simp_all [writtenRows]
      simp [heq, hnew.status_eq.1]
    have hnone : ¬∃ r ∈ writtenRows t [Write.insertTransfer row], r.status = .completed := by
      rintro ⟨r, hr, hstatus⟩
      exact hpending r hr hstatus
    have hunpaid : ¬∃ r ∈ writtenRows t [Write.insertTransfer row],
        r.status = .completed ∧ r.splitBillShareId.isSome := by
      rintro ⟨r, hr, hstatus, -⟩
      exact hpending r hr hstatus
    rw [if_neg hnone, if_neg hunpaid]
    exact ⟨rfl, rfl⟩
  | @save old row messages hold hstep hmessages =>
    obtain ⟨hcompleted, hpaid⟩ := hmessages.eventCount t
    rw [view_save, writtenRows_save]
    dsimp only
    rw [eventCount_append, eventCount_append, hcompleted, hpaid]
    by_cases ht : row.id = t <;> simp [ht]
  | createBill =>
    rw [view_bill, writtenRows_bill]
    dsimp only
    rw [eventCount_append, eventCount_append, eventCount_newShares _ _ _ _ (by decide),
      eventCount_newShares _ _ _ _ (by decide)]
    simp

/-- Every move keeps one event for each completion. -/
lemma CompletionEvents.move {t : String} (h : CompletionEvents w.db t)
    (hmove : Move setting w job body ws) (hok : TablesOk w.db) :
    CompletionEvents (view w.db ws) t := by
  obtain ⟨hcompleted, hpaid⟩ := hmove.eventCount t
  rcases hmove.transfer_cases hok t with ⟨hnil, hsame⟩ | ⟨row', hone, hnew, hcases⟩
  · -- the move is about other transfers
    have hc : (view w.db ws).isCompleted t = w.db.isCompleted t := by
      rw [Database.isCompleted, hsame, Database.isCompleted]
    have hp : (view w.db ws).paysShare t = w.db.paysShare t := by
      rw [Database.paysShare, hsame, Database.paysShare]
    rw [hnil] at hcompleted hpaid
    constructor
    · rw [hcompleted, h.completed, hc]
      simp
    · rw [hpaid, h.sharePaid, hc, hp]
      simp
  · have hnot : w.db.isCompleted t = false := by
      rcases hcases with ⟨hnone, -⟩ | ⟨row, hrow, -, hstep⟩
      · simp [Database.isCompleted, hnone]
      · have hlive := hstep.live hok (transferById_some hrow).1
        have hne : row.status ≠ .completed := fun heq => by rw [heq] at hlive; cases hlive
        simp [Database.isCompleted, hrow, hne]
    have hc : (view w.db ws).isCompleted t = decide (row'.status = .completed) := by
      rw [Database.isCompleted, hnew]
      rfl
    have hp : (view w.db ws).paysShare t = row'.splitBillShareId.isSome := by
      rw [Database.paysShare, hnew]
      rfl
    rw [hone] at hcompleted hpaid
    constructor
    · rw [hcompleted, h.completed, hnot, hc]
      simp
    · rw [hpaid, h.sharePaid, hnot, hc, hp]
      simp

end Step

/-- In every reachable state the outbox has exactly one `Completed` message for every completed
transfer, exactly one `SharePaid` message for every completed transfer of a share, and none for any
other; and a transaction that throws before its end changes nothing. -/
theorem completion_events (setting : Setting) (users : List Ledger.User) {s : System}
    (hs : Reaches (payments setting) (Sys.init (.initial users)) s) :
    (∀ t, CompletionEvents s.world.db t) ∧
    ∀ i body rest p k e w, s.threads i = .inTx body rest p k → (∀ r, rest ≠ .ret r) →
      Step (payments setting) s (s.set i (.run (k (.error e))) w) → w = s.world := by
  refine ⟨?_, fun i body rest p k e w hi hrest hstep => hstep.rollback hi hrest⟩
  refine reaches_invariant (P := fun w => ∀ t, CompletionEvents w.db t) (reaches_ok .refl)
    (fun t => ⟨rfl, rfl⟩) (fun w c job hinv hw _ _ hmove _ t => (hw t).move hmove hinv.tables)
    (fun _ _ _ hw _ => hw) (fun _ _ _ _ _ hw _ _ _ => hw) (fun w w' _ hw hledger => ?_) hs
  cases hledger <;> exact hw

/-- The transfer `t` is settled and completed, and has its event. -/
theorem completion_events_t : ∃ s,
    Reaches (payments scripted) (Sys.init (.initial Ledger.annAndBob)) s ∧
      s.world.db.isCompleted "t" = true ∧ CompletionEvents s.world.db "t" := by
  obtain ⟨s, hs, hcompleted⟩ := scriptedRun.exists_reaches Ledger.annAndBob (opening ++ settling)
    (fun s => s.world.db.isCompleted "t") (by decide +kernel)
  exact ⟨s, hs, hcompleted, (completion_events scripted _ hs).1 "t"⟩

end Payments

end PeerLedger
