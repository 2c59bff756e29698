import PeerLedger.Payments.Leases
import Mathlib.Data.List.Chain

/-!
# The history of a transfer

The workers of the saga take their leases from each other at any moment, and go on with what they
have in memory.  `fenced_history` says that no update gets lost all the same: every committed update
of a row was made under the lease that is on the row, was computed from the values that the previous
commit left, and raised the version by one.  The version of a row is therefore one more than the
number of its updates, its statuses follow the state machine, and a row that has ended stays as it is.
-/

namespace PeerLedger

namespace Payments

open Transactions

/-! ### What the log says about a transfer -/

/-- The commit is that of a claim. -/
def isClaim (c : PaymentsCommit) : Bool :=
  match c.reply with
  | .claimed _ => true
  | _ => false

lemma isClaim_eq_true {c : PaymentsCommit} (h : isClaim c = true) : ∃ raw, c.reply = .claimed raw := by
  unfold isClaim at h
  split at h
  · next raw hreply => exact ⟨raw, hreply⟩
  · cases h

lemma isClaim_eq_false {c : PaymentsCommit} (h : isClaim c = false) (raw : List RawItem) :
    c.reply ≠ .claimed raw := by
  intro hreply
  simp [isClaim, hreply] at h

/-- The versions of transfer `t` among some writes. -/
def writtenRows (t : String) (ws : List Write) : List Transfer :=
  ws.filterMap fun
    | .insertTransfer row => if row.id = t then some row else none
    | .saveTransfer row => if row.id = t then some row else none
    | _ => none

/-- The statuses of transfer `t` in the order in which they were committed. -/
def statusesOf (t : String) (log : List PaymentsCommit) : List TransferStatus :=
  (log.flatMap fun c => writtenRows t c.writes).map (·.status)

/-- The number of updates of transfer `t`, claims apart. -/
def updatesOf (t : String) (log : List PaymentsCommit) : Nat :=
  log.countP fun c => !isClaim c && (savedRow c.writes).any fun row => row.id = t

/-- The commit `c`, made on the contents `db`, updates `row` to `row'` as the saga's fenced updates
do. -/
structure FencedUpdate (w : World) (db : Database) (c : PaymentsCommit) (row row' : Transfer) :
    Prop where
  mem : row ∈ db.transfers
  id : row'.id = row.id
  /-- The lease on the row is that of a run of the committing thread; the row is the one that the run
  has in its memory, the lease apart; and the run's update makes `row'` of it. -/
  made : ∃ job n transfer, w.jobs c.thread = some job ∧
    row.leaseOwner = some (job.draw.runs n).leaseOwner ∧ row.unleased = transfer.unleased ∧
    SavedBy (job.draw.runs n).leaseOwner transfer row c.body row'
  version : row'.version = row.version + 1

/-- The history of all transfers. -/
structure FencedHistory (w : World) : Prop where
  db_eq : w.db = Database.initial.after w.log
  /-- Every committed change, besides claims, is a fenced update of the latest version. -/
  updates : ∀ before c after row', w.log = before ++ c :: after → isClaim c = false →
    Write.saveTransfer row' ∈ c.writes →
    ∃ row, FencedUpdate w (Database.initial.after before) c row row'
  /-- Claims change nothing but the lease. -/
  claims : ∀ before c after row', w.log = before ++ c :: after → isClaim c = true →
    Write.saveTransfer row' ∈ c.writes →
    ∃ row ∈ (Database.initial.after before).transfers, row'.unleased = row.unleased
  /-- No update is lost or applied twice. -/
  versions : ∀ row ∈ w.db.transfers, row.version = 1 + updatesOf row.id w.log
  statuses : ∀ t, (statusesOf t w.log).IsChain fun a b => b = a ∨ b ∈ a.allowedTransitions
  last : ∀ row ∈ w.db.transfers, (statusesOf row.id w.log).getLast? = some row.status
  /-- A row that has ended never changes again. -/
  ended : ∀ before after, w.log = before ++ after →
    ∀ row ∈ (Database.initial.after before).transfers, row.status.isTerminal = true →
    row ∈ w.db.transfers

/-! ### One transfer in a move -/

section Move

variable {setting : Setting} {w : World} {job : Job} {body : PaymentsTx Reply} {ws : List Write}

lemma writtenRows_messages (t : String) (messages : List PaymentOutboxMessage) :
    writtenRows t (messages.map Write.insertOutbox) = [] := by
  simp [writtenRows, List.filterMap_map]

lemma writtenRows_save (t : String) (row : Transfer) (messages : List PaymentOutboxMessage) :
    writtenRows t (.saveTransfer row :: messages.map Write.insertOutbox) =
      if row.id = t then [row] else [] := by
  change writtenRows t ([.saveTransfer row] ++ messages.map Write.insertOutbox) = _
  rw [writtenRows, List.filterMap_append]
  change _ ++ writtenRows t (messages.map Write.insertOutbox) = _
  rw [writtenRows_messages]
  by_cases ht : row.id = t <;> simp [ht]

lemma writtenRows_bill (t : String) (bill : SplitBill)
    (rows : List (SplitBillShare × PaymentOutboxMessage)) :
    writtenRows t (billWrites bill rows) = [] := by
  rw [writtenRows, List.filterMap_eq_nil_iff]
  intro write hwrite
  rcases List.mem_cons.mp hwrite with rfl | hwrite
  · rfl
  · obtain ⟨row, -, hrow⟩ := List.mem_flatMap.mp hwrite
    rcases List.mem_cons.mp hrow with rfl | hrow
    · rfl
    · obtain rfl := List.mem_singleton.mp hrow
      rfl

/-- What a move does to transfer `t`: nothing, or it writes one version of it. -/
lemma Move.transfer_cases (h : Move setting w job body ws) (hok : TablesOk w.db) (t : String) :
    (writtenRows t ws = [] ∧ (view w.db ws).transferById t = w.db.transferById t) ∨
    ∃ row', writtenRows t ws = [row'] ∧ (view w.db ws).transferById t = some row' ∧
      ((w.db.transferById t = Option.none ∧ row'.status = .pending ∧ row'.version = 1 ∧
          savedRow ws = Option.none) ∨
        ∃ row, w.db.transferById t = some row ∧ savedRow ws = some row' ∧
          RowStep setting w job body row row') := by
  have hok' := h.tables hok
  cases h with
  | none => exact .inl ⟨rfl, rfl⟩
  | @insert row hfresh hnew =>
    rw [view_insert] at hok' ⊢
    by_cases ht : row.id = t
    · refine .inr ⟨row, by simp [writtenRows, ht], ?_, .inl ⟨?_, hnew.status_eq.1, ?_, rfl⟩⟩
      · rw [← ht]
        exact transferById_eq hok'.ids (List.mem_append_right _ (List.mem_singleton_self row))
      · rw [Database.transferById, List.find?_eq_none]
        intro old hold heq
        exact hfresh.id old hold (by simpa [ht] using heq)
      · obtain ⟨_, _, _, -, -, rfl⟩ := hnew
        rfl
    · refine .inl ⟨by simp [writtenRows, ht], ?_⟩
      simp [Database.transferById, List.find?_append, ht]
  | @save old row' messages hold hstep =>
    have hid : row'.id = old.id := hstep.evolves.id_eq
    rw [view_save] at hok' ⊢
    rw [writtenRows_save]
    by_cases ht : row'.id = t
    · refine .inr ⟨row', if_pos ht, ?_, .inr ⟨old, ?_, rfl, hstep⟩⟩
      · rw [← ht]
        exact transferById_eq hok'.ids (mem_saveRow.mpr (.inr ⟨rfl, old, hold, hid.symm⟩))
      · rw [← ht, hid]
        exact transferById_eq hok.ids hold
    · refine .inl ⟨if_neg ht, ?_⟩
      cases hfound : w.db.transferById t with
      | none =>
        rw [Database.transferById, List.find?_eq_none] at hfound ⊢
        intro row hrow
        rcases mem_saveRow.mp hrow with ⟨hmem, -⟩ | ⟨rfl, -⟩
        · exact hfound row hmem
        · simpa using ht
      | some row =>
        obtain ⟨hmem, rfl⟩ := transferById_some hfound
        exact transferById_eq hok'.ids (mem_saveRow.mpr (.inl ⟨hmem, fun heq => ht heq.symm⟩))
  | createBill =>
    rw [view_bill]
    exact .inl ⟨writtenRows_bill t _ _, rfl⟩

end Move

/-! ### The history of a run -/

section History

variable {setting : Setting} {w : World} {job : Job} {c : PaymentsCommit}

/-- What the tables and the log say about transfer `t`. -/
structure Recorded (w : World) (t : String) : Prop where
  version : ∀ row, w.db.transferById t = some row → row.version = 1 + updatesOf t w.log
  unborn : w.db.transferById t = none → updatesOf t w.log = 0
  statuses : (statusesOf t w.log).IsChain fun a b => b = a ∨ b ∈ a.allowedTransitions
  last : (statusesOf t w.log).getLast? = (w.db.transferById t).map (·.status)

/-- A step of a row follows the state machine. -/
lemma RowStep.status_cases {body : PaymentsTx Reply} {row row' : Transfer}
    (h : RowStep setting w job body row row') :
    row'.status = row.status ∨ row'.status ∈ row.status.allowedTransitions := by
  cases h with
  | lease => exact .inl rfl
  | advance h => exact h.advances.status

/-- A commit counts as an update when it raises the version. -/
lemma Recorded.commit_version {t : String} {row row' : Transfer} (hinv : Inv setting w)
    (hlease : ClaimLeases setting w job c) (hrow : w.db.transferById t = some row)
    (hid : row'.id = t) (hsaved : savedRow c.writes = some row') :
    row'.version = row.version +
      if (!isClaim c && (savedRow c.writes).any fun row => row.id = t) = true then 1 else 0 := by
  obtain ⟨hmem, rfl⟩ := transferById_some hrow
  have hany : ((savedRow c.writes).any fun r => r.id = row.id) = true := by simp [hsaved, hid]
  rw [hany, Bool.and_true]
  have hsame : ∀ old ∈ w.db.transfers, row'.id = old.id → old = row := fun old hold heq =>
    List.inj_on_of_nodup_map hinv.ids hold hmem (heq.symm.trans hid)
  cases hclaim : isClaim c with
  | true =>
    obtain ⟨raw, hraw⟩ := isClaim_eq_true hclaim
    obtain ⟨old, hold, n, -, rfl⟩ := hlease.lease raw row' hraw hsaved
    obtain rfl := hsame old hold rfl
    simp [leasedRow, Transfer.lease]
  | false =>
    obtain ⟨old, hold, hadv⟩ := hlease.advances (isClaim_eq_false hclaim) row' hsaved
    obtain rfl := hsame old hold hadv.advances.evolves.id_eq
    simp [hadv.advances.version]

lemma updatesOf_concat (t : String) (log : List PaymentsCommit) (c : PaymentsCommit) :
    updatesOf t (log ++ [c]) = updatesOf t log +
      if (!isClaim c && (savedRow c.writes).any fun row => row.id = t) = true then 1 else 0 := by
  rw [updatesOf, List.countP_append, List.countP_singleton]
  rfl

lemma statusesOf_concat (t : String) (log : List PaymentsCommit) (c : PaymentsCommit) :
    statusesOf t (log ++ [c]) = statusesOf t log ++ (writtenRows t c.writes).map (·.status) := by
  simp [statusesOf, List.flatMap_append]

/-- A saved row is written. -/
lemma mem_writtenRows {ws : List Write} {row : Transfer} (h : savedRow ws = some row) :
    row ∈ writtenRows row.id ws := by
  obtain ⟨write, hwrite, hrow⟩ := List.exists_of_findSome?_eq_some h
  refine List.mem_filterMap.mpr ⟨write, hwrite, ?_⟩
  cases write with
  | saveTransfer row' =>
    obtain rfl := Option.some.inj hrow
    simp
  | _ => cases hrow

/-- The record of a transfer after a commit. -/
lemma Recorded.commit {t : String} (h : Recorded w t) (hinv : Inv setting w)
    (hmove : Move setting w job c.body c.writes) (hlease : ClaimLeases setting w job c) :
    Recorded ((payments setting).commit w c) t := by
  have hdb : ((payments setting).commit w c).db = view w.db c.writes := rfl
  have hlog : ((payments setting).commit w c).log = w.log ++ [c] := rfl
  rcases hmove.transfer_cases hinv.tables t with ⟨hnil, hsame⟩ | ⟨row', hone, hnew, hcases⟩
  · -- the commit is about other rows
    have hnot : ((savedRow c.writes).any fun row => row.id = t) = false := by
      cases hsaved : savedRow c.writes with
      | none => rfl
      | some row =>
        by_contra hany
        have hid : row.id = t := by simpa using hany
        have hmem := mem_writtenRows hsaved
        rw [hid, hnil] at hmem
        cases hmem
    constructor <;> simp only [hdb, hlog, hsame, updatesOf_concat, statusesOf_concat, hnil, hnot,
      Bool.and_false, List.map_nil, List.append_nil, Bool.false_eq_true, if_false, Nat.add_zero]
    · exact h.version
    · exact h.unborn
    · exact h.statuses
    · exact h.last
  · have hid : row'.id = t := (transferById_some hnew).2
    constructor
    case version =>
      intro row hrow
      rw [hdb, hnew] at hrow
      obtain rfl := Option.some.inj hrow
      rw [hlog, updatesOf_concat]
      rcases hcases with ⟨hnone, -, hversion, hsaved⟩ | ⟨old, hold, hsaved, -⟩
      · simp [hsaved, h.unborn hnone, hversion]
      · rw [Recorded.commit_version hinv hlease hold hid hsaved, h.version old hold]
        split_ifs <;> push_cast <;> ring
    case unborn =>
      intro hnone
      rw [hdb, hnew] at hnone
      cases hnone
    case statuses =>
      rw [hlog, statusesOf_concat, hone, List.map_singleton, List.isChain_append]
      refine ⟨h.statuses, .singleton _, fun a ha b hb => ?_⟩
      rw [h.last] at ha
      obtain rfl : row'.status = b := by simpa using hb
      rcases hcases with ⟨hnone, -⟩ | ⟨old, hold, -, hstep⟩
      · simp [hnone] at ha
      · obtain rfl : old.status = a := by simpa [hold] using ha
        exact hstep.status_cases
    case last =>
      rw [hlog, statusesOf_concat, hone, hdb, hnew]
      simp

end History

/-- The rows that have ended in some contents are still there. -/
lemma Move.ended {setting : Setting} {w : World} {job : Job} {body : PaymentsTx Reply}
    {ws : List Write} {row : Transfer} (h : Move setting w job body ws) (hok : TablesOk w.db)
    (hrow : row ∈ w.db.transfers) (hended : row.status.isTerminal = true) :
    row ∈ (view w.db ws).transfers := by
  cases h with
  | none => exact hrow
  | insert =>
    rw [view_insert]
    exact List.mem_append_left _ hrow
  | @save old row' _ hold hstep =>
    rw [view_save]
    refine mem_saveRow.mpr (.inl ⟨hrow, fun heq => ?_⟩)
    obtain rfl := List.inj_on_of_nodup_map hok.ids hrow hold (heq.trans hstep.evolves.id_eq)
    rw [hstep.live hok hold] at hended
    cases hended
  | createBill =>
    rw [view_bill]
    exact hrow

/-- A row that has ended after some of the commits is there after all of them. -/
lemma reaches_ended {setting : Setting} {users : List Ledger.User} {s : System}
    (hs : Reaches (payments setting) (Sys.init (.initial users)) s) :
    ∀ before after, s.world.log = before ++ after →
      ∀ row ∈ (Database.initial.after before).transfers, row.status.isTerminal = true →
      row ∈ s.world.db.transfers := by
  refine (reaches_invariant (P := fun w : World => w.db = Database.initial.after w.log ∧
    ∀ before after, w.log = before ++ after →
      ∀ row ∈ (Database.initial.after before).transfers, row.status.isTerminal = true →
      row ∈ w.db.transfers) (reaches_ok .refl) ⟨rfl, fun before after hlog row hrow => ?_⟩
    (fun w c job hinv hw _ _ hmove _ => ⟨?_, fun before after hlog row hrow hended => ?_⟩)
    (fun _ _ _ hw _ => hw) (fun _ _ _ _ _ hw _ _ _ => hw) (fun w w' _ hw hledger => ?_) hs).2
  · obtain ⟨rfl, -⟩ := List.append_eq_nil_iff.mp hlog.symm
    cases hrow
  · change view w.db c.writes = Database.initial.after (w.log ++ [c])
    rw [Database.after_concat, ← hw.1]
  · change w.log ++ [c] = before ++ after at hlog
    rcases List.eq_nil_or_concat after with rfl | ⟨after', last, rfl⟩
    · rw [List.append_nil] at hlog
      rw [← hlog, Database.after_concat, ← hw.1] at hrow
      exact hrow
    · rw [List.concat_eq_append, ← List.append_assoc] at hlog
      have hbefore := hw.2 before after' (List.append_inj' hlog rfl).1 row hrow hended
      exact hmove.ended hinv.tables hbefore hended
  · cases hledger <;> exact hw

/-- In every reachable state, whatever workers, crashes and expired leases there were, the history of
every transfer is fenced. -/
theorem fenced_history (setting : Setting) (users : List Ledger.User) {s : System}
    (hs : Reaches (payments setting) (Sys.init (.initial users)) s) : FencedHistory s.world := by
  have hok := reaches_ok hs
  have hdb := reaches_db hs
  have hrecorded : ∀ t, Recorded s.world t := by
    refine reaches_invariant (P := fun w => ∀ t, Recorded w t) (reaches_ok .refl) (fun t => ?_)
      (fun w c job hinv hw _ _ hmove hlease t => (hw t).commit hinv hmove hlease)
      (fun _ _ _ hw _ t => ⟨(hw t).version, (hw t).unborn, (hw t).statuses, (hw t).last⟩)
      (fun _ _ _ _ _ hw _ _ _ t => ⟨(hw t).version, (hw t).unborn, (hw t).statuses, (hw t).last⟩)
      (fun w w' _ hw hledger t => ?_) hs
    · exact ⟨(fun _ h => nomatch h), fun _ => rfl, .nil, rfl⟩
    · cases hledger <;> exact ⟨(hw t).version, (hw t).unborn, (hw t).statuses, (hw t).last⟩
  constructor
  case db_eq => exact hdb
  case updates =>
    intro before c after row' hlog hclaim hmem
    obtain ⟨job, hjob, hadv⟩ := reaches_commits (P := fun job db c => isClaim c = false →
      ∀ row', Write.saveTransfer row' ∈ c.writes → ∃ row ∈ db.transfers, Advances row row' ∧
        ∃ n transfer, row.leaseOwner = some (job.draw.runs n).leaseOwner ∧
          row.unleased = transfer.unleased ∧
          SavedBy (job.draw.runs n).leaseOwner transfer row c.body row')
      (fun w c job _ _ _ hmove hlease hclaim row' hmem => by
        obtain ⟨row, hrow, hadv⟩ := hlease.advances (isClaim_eq_false hclaim) row'
          (hmove.savedRow_eq hmem)
        exact ⟨row, hrow, hadv.advances, hadv.saved⟩) hs before c after hlog
    obtain ⟨row, hrow, hadvances, n, transfer, hrest⟩ := hadv hclaim row' hmem
    exact ⟨row, hrow, hadvances.evolves.id_eq, ⟨job, n, transfer, hjob, hrest⟩, hadvances.version⟩
  case claims =>
    intro before c after row' hlog hclaim hmem
    obtain ⟨job, -, hlease⟩ := reaches_commits (P := fun job db c => isClaim c = true →
      ∀ row', Write.saveTransfer row' ∈ c.writes → ∃ row ∈ db.transfers,
        row'.unleased = row.unleased)
      (fun w c job _ _ _ hmove hlease hclaim row' hmem => by
        obtain ⟨raw, hraw⟩ := isClaim_eq_true hclaim
        obtain ⟨row, hrow, n, -, rfl⟩ := hlease.lease raw row' hraw (hmove.savedRow_eq hmem)
        exact ⟨row, hrow, rfl⟩) hs before c after hlog
    exact hlease hclaim row' hmem
  case versions =>
    exact fun row hrow => (hrecorded row.id).version row (transferById_eq hok.inv.ids hrow)
  case statuses => exact fun t => (hrecorded t).statuses
  case last =>
    intro row hrow
    rw [(hrecorded row.id).last, transferById_eq hok.inv.ids hrow]
    rfl
  case ended => exact reaches_ended hs

/-- The history of a transfer that is settled: six updates after its creation, and then no more. -/
theorem fenced_history_t : ∃ s, Reaches (payments scripted) (Sys.init (.initial Ledger.annAndBob)) s ∧
    statusesOf "t" s.world.log =
      [.pending, .pending, .validating, .validating, .validating, .fundsHeld, .processing,
        .completed] ∧ FencedHistory s.world := by
  obtain ⟨s, hs, hp⟩ := scriptedRun.exists_reaches Ledger.annAndBob (opening ++ settling)
    (fun s => statusesOf "t" s.world.log = [.pending, .pending, .validating, .validating, .validating,
      .fundsHeld, .processing, .completed]) (by decide +kernel)
  exact ⟨s, hs, of_decide_eq_true hp, fenced_history scripted _ hs⟩

end Payments

end PeerLedger
