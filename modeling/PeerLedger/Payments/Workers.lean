import PeerLedger.Payments.BillCounts

/-!
# Workers of the saga

What a worker knows while it runs: `Serving` between two runs, `Working` while it has a row in its
memory, and `Matched` while a transaction of its own has updated that row and not committed yet.
Each is kept by whatever the other threads, the ledger and the network do.  The rules below are the
specifications of the row updates and of the ledger requests in these terms.
-/

namespace PeerLedger

namespace Payments

open Transactions

variable {setting : Setting} {w w' : World} {i n : Nat} {job : Job} {transfer row : Transfer}

/-- Thread `i` runs `job`, and its runs from the `n`-th on have claimed nothing. -/
structure Serving (setting : Setting) (w : World) (i : Nat) (job : Job) (n : Nat) : Prop where
  inv : Inv setting w
  job_eq : w.jobs i = some job
  fresh : setting.DistinctOwners → ∀ m, n ≤ m → w.NoLease (job.draw.runs m).leaseOwner

/-- The `n`-th run of thread `i` has `transfer` in its memory. -/
structure Working (setting : Setting) (w : World) (i : Nat) (job : Job) (n : Nat)
    (transfer : Transfer) : Prop extends Serving setting w i job (n + 1) where
  knows : ∃ row ∈ w.db.transfers, transfer.Evolves row
  reached : transfer.status = .fundsHeld ∨ transfer.status = .processing → w.Reached transfer.id
  /-- Without the lease, the row is still the one that was read first. -/
  lawful : setting.DistinctOwners → (w.claimOf i).Wrote transfer.id ∨
    (w.NoLease (job.draw.runs n).leaseOwner ∧ (w.claimOf i).found = some transfer)

/-- A run has ended: the thread goes on with the next one, and it rejects only if it may. -/
def Ended (setting : Setting) (w : World) (i : Nat) (job : Job) (n : Nat)
    (r : Except PaymentsError Unit) : Prop :=
  Serving setting w i job (n + 1) ∧
    ∀ e, r = .error e → e = .entityNotFound "Transfer" ∨ MayReject setting w i job

/-- A pending update of the worker is about `row`. -/
structure Matched (setting : Setting) (w : World) (i : Nat) (job : Job) (n : Nat)
    (transfer row : Transfer) : Prop extends Working setting w i job n transfer where
  mem : row ∈ w.db.transfers
  same : row.unleased = transfer.unleased
  owner : row.leaseOwner = some (job.draw.runs n).leaseOwner

/-! ### What stays true -/

lemma Serving.ahead (h : Serving setting w i job n) (ha : Ahead setting i w w')
    (hinv : Inv setting w') : Serving setting w' i job n :=
  ⟨hinv, ha.jobs i job h.job_eq, fun hd m hm => ha.noLease hd job m h.job_eq (h.fresh hd m hm)⟩

lemma Working.ahead (h : Working setting w i job n transfer) (ha : Ahead setting i w w')
    (hinv : Inv setting w') : Working setting w' i job n transfer := by
  refine ⟨h.toServing.ahead ha hinv, ?_, fun hs => ha.reached _ (h.reached hs), fun hd => ?_⟩
  · obtain ⟨row, hrow, he⟩ := h.knows
    obtain ⟨row', hrow', he'⟩ := ha.rows row hrow
    exact ⟨row', hrow', he.trans he'⟩
  · rw [ha.claim]
    exact (h.lawful hd).imp_right fun hl => ⟨ha.noLease hd job n h.job_eq hl.1, hl.2⟩

lemma Serving.later {p : List Write} (h : Serving setting w i job n)
    (hw : Later (payments setting) (paymentsProtocol setting) i p w w') :
    Serving setting w' i job n := h.ahead (later_ahead hw) hw.inv

lemma Working.later {p : List Write} (h : Working setting w i job n transfer)
    (hw : Later (payments setting) (paymentsProtocol setting) i p w w') :
    Working setting w' i job n transfer := h.ahead (later_ahead hw) hw.inv

lemma Matched.later {p : List Write} (h : Matched setting w i job n transfer row)
    (hlock : Lock.transferId row.id ∈ locksOf (σ := Database) p)
    (hw : Later (payments setting) (paymentsProtocol setting) i p w w') :
    Matched setting w' i job n transfer row :=
  ⟨h.toWorking.later hw, (later_locked hlock hw rfl).mpr h.mem, h.same, h.owner⟩

/-- Having the lease on a row, the run's claim wrote it. -/
lemma Matched.wrote (h : Matched setting w i job n transfer row) (hd : setting.DistinctOwners) :
    (w.claimOf i).Wrote transfer.id :=
  (h.lawful hd).resolve_right fun hl => hl.1 row h.mem h.owner

/-- A run that has the lease may reject. -/
lemma MayReject.of_wrote {t : String}
    (h : setting.DistinctOwners → (w.claimOf i).Wrote t) : MayReject setting w i job := fun hd _ => by
  obtain ⟨row, hrow, -⟩ := h hd
  exact .inl ⟨row, hrow⟩

/-- Where a statement has failed by itself. -/
lemma MayReject.of_fails {e : PaymentsError} (h : setting.fails e) : MayReject setting w i job :=
  fun _ hnone => absurd h (hnone e)

/-- A run that works on an exposed row may reject. -/
lemma Working.mayReject (h : Working setting w i job n transfer)
    (hexp : exposed setting.config job.command.now transfer = true) :
    MayReject setting w i job := fun hd _ => by
  rcases h.lawful hd with ⟨row, hrow, -⟩ | ⟨-, hfound⟩
  · exact .inl ⟨row, hrow⟩
  · exact .inr ⟨transfer, hfound, hexp⟩

lemma MayReject.ahead (h : MayReject setting w i job) (ha : Ahead setting i w w') :
    MayReject setting w' i job := by
  unfold MayReject
  rw [ha.claim]
  exact h

lemma Ended.ok (h : Serving setting w i job (n + 1)) : Ended setting w i job n (.ok ()) :=
  ⟨h, fun _ heq => nomatch heq⟩

lemma Ended.error {e : PaymentsError} (h : Serving setting w i job (n + 1))
    (hreject : MayReject setting w i job) : Ended setting w i job n (.error e) :=
  ⟨h, fun _ _ => .inr hreject⟩

/-- What an update throws: a run that may reject still may, and one that has only lost its lease
throws that. -/
structure Thrown (setting : Setting) (w w' : World) (i : Nat) (job : Job) (e : PaymentsError) :
    Prop where
  keeps : MayReject setting w i job → MayReject setting w' i job
  lost : e ≠ .sagaLeaseLost → MayReject setting w' i job

lemma Thrown.of_mayReject {e : PaymentsError} (h : MayReject setting w' i job) :
    Thrown setting w w' i job e := ⟨fun _ => h, fun _ => h⟩

lemma Thrown.of_lost (ha : Ahead setting i w w') : Thrown setting w w' i job .sagaLeaseLost :=
  ⟨fun h => h.ahead ha, fun hne => absurd rfl hne⟩

/-- The row that a fenced update matches is the one in memory. -/
lemma Working.matched (h : Working setting w i job n transfer) (hrow : row ∈ w.db.transfers)
    (hid : row.id = transfer.id) (hversion : row.version = transfer.version)
    (howner : row.leaseOwner = some (job.draw.runs n).leaseOwner) :
    Matched setting w i job n transfer row := by
  refine ⟨h, hrow, ?_, howner⟩
  obtain ⟨row', hrow', he⟩ := h.knows
  obtain rfl := List.inj_on_of_nodup_map h.inv.ids hrow' hrow (he.id_eq.trans hid.symm)
  exact he.same hversion

/-- A commit that writes nothing. -/
lemma Serving.guar_nil (h : Serving setting w i job n) (body : PaymentsTx Reply) (reply : Reply) :
    (paymentsProtocol setting).guar w ⟨i, body, [], reply⟩ :=
  ⟨job, h.job_eq, .none, (fun _ _ _ hsaved => nomatch hsaved), (fun _ _ _ hsaved => nomatch hsaved),
    fun _ _ hsaved => nomatch hsaved⟩

/-! ### What justifies a transition stays true -/

lemma justified_unleased {s : TransferStatus} :
    Justified setting w row.unleased s ↔ Justified setting w row s := by
  cases s <;> exact Iff.rfl

lemma holdExists_ahead (h : w.HoldExists row) (hinv : Inv setting w) (ha : Ahead setting i w w') :
    w'.HoldExists row := by
  obtain ⟨hold, hhold⟩ := h
  obtain ⟨hold', hhold', -⟩ := Ledger.reaches_hold hinv.ledger ha.ledger hhold
  exact ⟨hold', hhold'⟩

lemma hasReceipt_ahead {t : String} (h : w.HasReceipt t) (hinv : Inv setting w)
    (ha : Ahead setting i w w') : w'.HasReceipt t := by
  obtain ⟨receipt, hmem, ht⟩ := h
  exact ⟨receipt, (Ledger.reaches_grows hinv.ledger ha.ledger).mem_settlements hmem, ht⟩

lemma sent_ahead {t : Nat} {request : Request} (h : w.sent[t]? = some request)
    (ha : Ahead setting i w w') : w'.sent[t]? = some request := by
  obtain ⟨more, hmore⟩ := ha.sent
  rw [← hmore, List.getElem?_append_left (List.getElem?_eq_some_iff.mp h).1]
  exact h

lemma Justified.ahead {s : TransferStatus} (h : Justified setting w row s) (hinv : Inv setting w)
    (ha : Ahead setting i w w') : Justified setting w' row s := by
  cases s with
  | fundsHeld => exact ⟨h.1, holdExists_ahead h.2 hinv ha⟩
  | completed => exact hasReceipt_ahead h hinv ha
  | failed =>
    refine Or.imp_right (fun h => ⟨h.1, ?_⟩) h
    obtain ⟨t, request, j, ljob, reply, hsent, hcommand, horigin, hjob, hanswers, hlost⟩ := h.2
    exact ⟨t, request, j, ljob, reply, sent_ahead hsent ha, hcommand, ha.origin j t horigin,
      Ledger.reaches_job hinv.ledger ha.ledger hjob,
      Ledger.reaches_answers hinv.ledger ha.ledger hanswers, hlost⟩
  | compensating => exact h
  | pending => trivial
  | validating => trivial
  | processing => trivial

/-! ### Commits of the worker itself -/

/-- A commit that writes nothing, of which the claim of a run takes no notice. -/
lemma commit_nil_ahead (body : PaymentsTx Reply) {reply : Reply}
    (hreply : (∀ raw, reply ≠ .claimed raw) ∧ ∀ r, reply ≠ .found r) :
    Ahead setting i w ((payments setting).commit w ⟨i, body, [], reply⟩) := by
  refine ⟨fun row h => ⟨row, h, .refl row⟩, ⟨List.Subset.refl _, List.Subset.refl _⟩,
    fun t => Reached.commit, ?_, List.prefix_rfl, .refl, fun _ _ h => h, fun _ _ h => h,
    fun _ _ _ _ h => h⟩
  rw [claimOf_commit, if_pos rfl, Claim.next_eq _ hreply]

/-- The patches of the saga: they keep what a transfer never changes, its status, the mark of a
possible hold and the receiver, and give up the lease at most; the mark is set only when the receiver
is known. -/
structure Patches (setting : Setting) (transfer : Transfer) (patch : Transfer → Transfer) :
    Prop where
  terms : ∀ row, (patch row).terms = row.terms
  status : ∀ row, (patch row).status = row.status
  holdMayExist : ∀ row, row.holdMayExist = true → (patch row).holdMayExist = true
  receiver : ∀ row, row.unleased = transfer.unleased → ∀ id, row.receiverWalletId = some id →
    (patch row).receiverWalletId = some id
  lease : ∀ row, (patch row).leaseOwner = none ∨ (patch row).leaseOwner = row.leaseOwner
  marked : ∀ row, row.unleased = transfer.unleased → row.holdMayExist = false →
    (patch row).holdMayExist = true → ReceiverKnown setting row

/-- A patch that keeps the receiver and the mark of a possible hold. -/
lemma Patches.keeping {patch : Transfer → Transfer}
    (hterms : ∀ row, (patch row).terms = row.terms) (hstatus : ∀ row, (patch row).status = row.status)
    (hkeeps : ∀ row, (patch row).holdMayExist = row.holdMayExist ∧
      (patch row).receiverWalletId = row.receiverWalletId)
    (hlease : ∀ row, (patch row).leaseOwner = none ∨ (patch row).leaseOwner = row.leaseOwner) :
    Patches setting transfer patch where
  terms := hterms
  status := hstatus
  holdMayExist row h := (hkeeps row).1.trans h
  receiver row _ id h := (hkeeps row).2.trans h
  lease := hlease
  marked row _ hnot h := by
    rw [(hkeeps row).1, hnot] at h
    cases h

lemma Patches.id_eq {patch : Transfer → Transfer} (h : Patches setting transfer patch)
    (row : Transfer) :
    (patch row).id = row.id :=
  Transfer.congr_terms (h.terms row) (·.id) fun _ => rfl

/-- A patch that gives up the lease when the transfer ends, and leaves the mark of a possible hold. -/
def GivesUp (next : TransferStatus) (patch : Transfer → Transfer) : Prop :=
  next.isTerminal = true → ∀ row, (patch row).leaseOwner = none ∧
    (patch row).holdMayExist = row.holdMayExist

/-- A patch that starts the retries of a status over, unless the transfer ends. -/
def StartsOver (next : TransferStatus) (patch : Transfer → Transfer) : Prop :=
  next.isTerminal = false → ∀ row, (patch row).retryCount = 0

/-- A patch for which the retries are counted. -/
def Counts (setting : Setting) (transfer : Transfer) (patch : Transfer → Transfer) : Prop :=
  ∀ row, row.unleased = transfer.unleased → RetryStep setting row (updated patch row)

/-- A row with a lease has not ended. -/
lemma Matched.live (h : Matched setting w i job n transfer row) : row.status.isTerminal = false := by
  by_contra hended
  have hnone := h.inv.tables.ended row h.mem (by simpa using hended)
  rw [h.owner] at hnone
  cases hnone

lemma Patches.moved_advances {patch : Transfer → Transfer} (h : Patches setting transfer patch)
    {next : TransferStatus} (hsame : row.unleased = transfer.unleased)
    (hgives : GivesUp next patch) (hnext : next ∈ row.status.allowedTransitions) :
    Advances row (moved patch next row) where
  terms := h.terms row
  version := rfl
  status := .inr hnext
  holdMayExist := h.holdMayExist row
  receiver := h.receiver row hsame
  lease := h.lease row
  ended hended := (hgives hended row).1

lemma Patches.updated_advances {patch : Transfer → Transfer} (h : Patches setting transfer patch)
    (hsame : row.unleased = transfer.unleased) (hlive : row.status.isTerminal = false) :
    Advances row (updated patch row) where
  terms := h.terms row
  version := rfl
  status := .inl (h.status row)
  holdMayExist := h.holdMayExist row
  receiver := h.receiver row hsame
  lease := h.lease row
  ended hended := by
    change (patch row).status.isTerminal = true at hended
    rw [h.status row, hlive] at hended
    cases hended

/-- A pending update of a row occupies it. -/
lemma Patches.lock_moved {patch : Transfer → Transfer} (h : Patches setting transfer patch)
    {next : TransferStatus} (row : Transfer) :
    Lock.transferId row.id ∈ locksOf (σ := Database) [Write.saveTransfer (moved patch next row)] := by
  have hid : (moved patch next row).id = row.id := h.id_eq row
  simp [locksOf, Store.locks, Write.locks, hid]

lemma Patches.lock_updated {patch : Transfer → Transfer} (h : Patches setting transfer patch)
    (row : Transfer) :
    Lock.transferId row.id ∈ locksOf (σ := Database) [Write.saveTransfer (updated patch row)] := by
  have hid : (updated patch row).id = row.id := h.id_eq row
  simp [locksOf, Store.locks, Write.locks, hid]

/-- What justifies a transition of the row in memory justifies that of the row in the database. -/
lemma Matched.justified {w₀ : World} {next : TransferStatus}
    (h : Matched setting w i job n transfer row) (hinv : Inv setting w₀)
    (hjust : next ≠ transfer.status → Justified setting w₀ transfer next)
    (ha : Ahead setting i w₀ w) (hne : next ≠ row.status) : Justified setting w row next := by
  have hstatus : row.status = transfer.status := by
    have := congrArg (·.status) h.same
    exact this
  have hj := (hjust (hstatus ▸ hne)).ahead hinv ha
  rwa [← justified_unleased, ← h.same, justified_unleased] at hj

/-- A transition of the row in memory. -/
lemma Matched.moved_advance {patch : Transfer → Transfer} {next : TransferStatus}
    {body : PaymentsTx Reply} (h : Matched setting w i job n transfer row)
    (hpatch : Patches setting transfer patch) (hgives : GivesUp next patch)
    (hover : StartsOver next patch) (hnext : next ∈ row.status.allowedTransitions)
    (hsaved : SavedBy (job.draw.runs n).leaseOwner transfer row body (moved patch next row))
    (hjust : next ≠ row.status → Justified setting w row next) :
    Advance setting w job body row (moved patch next row) where
  advances := hpatch.moved_advances h.same hgives hnext
  saved := ⟨n, transfer, h.owner, h.same, hsaved⟩
  justified := hjust
  marked := hpatch.marked row h.same
  unmarked hended := (hgives hended row).2
  retried := .moved hnext fun hlive => hover hlive row

/-- An update of the row in memory. -/
lemma Matched.updated_advance {patch : Transfer → Transfer}
    (h : Matched setting w i job n transfer row) (hpatch : Patches setting transfer patch)
    (hcounts : Counts setting transfer patch) :
    Advance setting w job (updateStatement transfer (job.draw.runs n).leaseOwner patch) row
      (updated patch row) where
  advances := hpatch.updated_advances h.same h.live
  saved := ⟨n, transfer, h.owner, h.same, .update (hpatch.status row)⟩
  justified hne := absurd (hpatch.status row) hne
  marked := hpatch.marked row h.same
  unmarked hended := by
    change (patch row).status.isTerminal = true at hended
    rw [hpatch.status row, h.live] at hended
    cases hended
  retried := hcounts row h.same

/-- Giving up a lease, or keeping it, takes none. -/
lemma Advances.noLease {row' : Transfer} {o : String} (hadv : Advances row row')
    (hrow : row ∈ w.db.transfers) (messages : List PaymentOutboxMessage) (h : w.NoLease o) :
    ∀ r ∈ (view w.db (.saveTransfer row' :: messages.map Write.insertOutbox)).transfers,
      r.leaseOwner ≠ some o := by
  intro r hr heq
  rw [view_save] at hr
  change r ∈ saveRow row' w.db.transfers at hr
  rcases mem_saveRow.mp hr with ⟨hmem, -⟩ | ⟨rfl, -⟩
  · exact h r hmem heq
  · rcases hadv.lease with hnone | hsame
    · rw [hnone] at heq
      cases heq
    · exact h row hrow (hsame ▸ heq)

/-- The worker's own commit of an update: the new row is the one in its memory. -/
lemma Matched.commit {row' : Transfer} {body : PaymentsTx Reply}
    (h : Matched setting w i job n transfer row) (messages : List PaymentOutboxMessage)
    (reply : Reply) (hadv : Advance setting w job body row row')
    (hmessages : Announces setting w.db row' messages)
    (hreply : (∀ raw, reply ≠ .claimed raw) ∧ ∀ r, reply ≠ .found r) :
    let c : PaymentsCommit := ⟨i, body, .saveTransfer row' :: messages.map .insertOutbox, reply⟩
    (paymentsProtocol setting).guar w c ∧
      Working setting ((payments setting).commit w c) i job n row' ∧
      Working setting ((payments setting).commit w c) i job n transfer ∧
      (setting.DistinctOwners → (((payments setting).commit w c).claimOf i).Wrote transfer.id) := by
  intro c
  have hid : row'.id = transfer.id := by
    have hsame : row.id = transfer.id := congrArg (·.id) h.same
    exact hadv.advances.evolves.id_eq.trans hsame
  have hguar : (paymentsProtocol setting).guar w c :=
    ⟨job, h.job_eq, .save h.mem (.advance hadv) hmessages, fun raw _ hraw =>
      absurd hraw (hreply.1 raw), fun hd _ _ hsaved => Option.some.inj hsaved ▸ hid ▸ h.wrote hd,
      fun _ _ hsaved => Option.some.inj hsaved ▸ ⟨row, h.mem, hadv⟩⟩
  have hinv := h.inv.commit hguar
  have hclaim : ((payments setting).commit w c).claimOf i = w.claimOf i := by
    rw [claimOf_commit, if_pos rfl, Claim.next_eq _ hreply]
  have hwrote : setting.DistinctOwners →
      (((payments setting).commit w c).claimOf i).Wrote transfer.id := fun hd => by
    rw [hclaim]
    exact h.wrote hd
  have hserving : Serving setting ((payments setting).commit w c) i job (n + 1) :=
    ⟨hinv, h.job_eq, fun hd m hm => hadv.advances.noLease h.mem messages (h.fresh hd m hm)⟩
  have hmem : row' ∈ ((payments setting).commit w c).db.transfers := by
    change row' ∈ (view w.db (.saveTransfer row' :: messages.map Write.insertOutbox)).transfers
    rw [view_save]
    exact mem_saveRow.mpr (.inr ⟨rfl, row, h.mem, hadv.advances.evolves.id_eq.symm⟩)
  refine ⟨hguar, ⟨hserving, ⟨row', hmem, .refl row'⟩, hinv.reached row' hmem,
    fun hd => .inl (hid ▸ hwrote hd)⟩, ⟨hserving, ?_, fun hs => Reached.commit (h.reached hs),
    fun hd => .inl (hwrote hd)⟩, hwrote⟩
  obtain ⟨r, hr, he⟩ := h.knows
  obtain ⟨r', hr', he'⟩ := (Move.save h.mem (.advance hadv) hmessages :
    Move setting w job body c.writes).rows hr h.inv.ids
  exact ⟨r', hr', he.trans he'⟩

/-! ### Statements -/

/-- An update of one transfer finds its row, or changes nothing. -/
lemma wp_updateTransfers {matched : Transfer → Bool} {set : Transfer → Transfer} (id : String)
    {Q : World → List Write → List String → Prop} {E : World → PaymentsError → Prop}
    (hid : ∀ row, matched row = true → row.id = id)
    (hnone : ∀ w', Later (payments setting) (paymentsProtocol setting) i [] w w' →
      (∀ row ∈ w'.db.transfers, matched row = false) → Q w' [] [])
    (hsome : ∀ w' row, Later (payments setting) (paymentsProtocol setting) i [] w w' →
      row ∈ w'.db.transfers → matched row = true →
      Q w' [.saveTransfer (set row)] [(set row).id]) :
    (updateTransfers matched set).wp (payments setting) (paymentsProtocol setting) i Q E w [] := by
  intro w' hw'
  rcases updatedRows_eq set hw'.inv.ids hid with ⟨hrows, hnot⟩ | ⟨row, hrow, hm, hrows⟩
  · simp only [payments, view_nil, hrows, Tx.wp]
    exact hnone w' hw' hnot
  · simp only [payments, view_nil, hrows, Tx.wp]
    exact hsome w' row hw' hrow hm

/-- A transaction finds the row that it has just updated. -/
lemma wp_findTransfer_saved {row' : Transfer} {Q : World → List Write → Transfer → Prop}
    {E : World → PaymentsError → Prop} (h : Matched setting w i job n transfer row)
    (hid : row'.id = row.id)
    (hQ : ∀ w', Matched setting w' i job n transfer row → Ahead setting i w w' →
      Q w' [.saveTransfer row'] row') :
    (findTransfer row.id).wp (payments setting) (paymentsProtocol setting) i Q E w
      [.saveTransfer row'] := by
  simp only [findTransfer, Tx.bind_eq, Tx.wp_bind, Tx.wp_query]
  intro w' hw'
  have hlock : Lock.transferId row.id ∈ locksOf (σ := Database) [Write.saveTransfer row'] := by
    simp [locksOf, Store.locks, Write.locks, hid]
  have h' := h.later hlock hw'
  have hmem : row' ∈ (view w'.db [Write.saveTransfer row']).transfers :=
    mem_saveRow.mpr (.inr ⟨rfl, row, h'.mem, hid.symm⟩)
  have hnodup : ((view w'.db [Write.saveTransfer row']).transfers.map (·.id)).Nodup := by
    have := h'.inv.ids
    rwa [← saveRow_ids row'] at this
  have hfound : (view ((payments setting).db w') [Write.saveTransfer row']).transferById row.id =
      some row' := hid ▸ transferById_eq hnodup hmem
  simp only [hfound]
  exact hQ w' h' (later_ahead hw')

/-- A transition either loses its lease or updates the row in memory. -/
lemma wp_transitionUsingManager {next : TransferStatus} {patch : Transfer → Transfer}
    {Q : World → List Write → Transfer → Prop} {E : World → PaymentsError → Prop}
    (h : Working setting w i job n transfer) (hpatch : Patches setting transfer patch)
    (hQ : ∀ w' row, Matched setting w' i job n transfer row → Ahead setting i w w' →
      next ∈ row.status.allowedTransitions →
      Q w' [.saveTransfer (moved patch next row)] (moved patch next row))
    (hE : ∀ w' e, Working setting w' i job n transfer → Ahead setting i w w' →
      (next ∈ transfer.status.allowedTransitions → e = .sagaLeaseLost) → E w' e) :
    (transitionUsingManager transfer (job.draw.runs n).leaseOwner next patch).wp (payments setting)
      (paymentsProtocol setting) i Q E w [] := by
  simp only [transitionUsingManager, Tx.bind_eq, Tx.wp_bind, Tx.wp_ofExcept]
  refine ⟨fun e hassert => hE w e h (.refl _ _ _) fun hnext => ?_, fun _ hassert => ?_⟩
  · simp [assertTransferTransition, hnext] at hassert
  have hnext : next ∈ transfer.status.allowedTransitions := by
    by_contra hnot
    simp [assertTransferTransition, hnot] at hassert
  refine wp_updateTransfers transfer.id (fun row hrow => by simp_all) (fun w' hw' _ => ?_)
    fun w' row hw' hrow hmatched => ?_
  · exact hE w' _ (h.later hw') (later_ahead hw') fun _ => rfl
  · simp only [Bool.decide_and, Bool.and_eq_true, decide_eq_true_eq] at hmatched
    obtain ⟨hid, hstatus, hversion, howner⟩ := hmatched
    have hm := (h.later hw').matched hrow hid hversion howner
    have hsaved : (moved patch next row).id = row.id := hpatch.id_eq row
    have hfind := wp_findTransfer_saved (E := E) hm hsaved fun w'' hw'' ha =>
      hQ w'' row hw'' ((later_ahead hw').trans ha) (hstatus ▸ hnext)
    rwa [hid] at hfind

/-- The transaction of a transition. -/
lemma wp_transitionTransaction {next : TransferStatus} {patch : Transfer → Transfer}
    {Q : World → List Write → Reply → Prop} {E : World → PaymentsError → Prop}
    (h : Working setting w i job n transfer) (hpatch : Patches setting transfer patch)
    (hQ : ∀ w' row, Matched setting w' i job n transfer row → Ahead setting i w w' →
      next ∈ row.status.allowedTransitions →
      Q w' [.saveTransfer (moved patch next row)] (.transfer (moved patch next row)))
    (hE : ∀ w' e, Working setting w' i job n transfer → Ahead setting i w w' →
      (next ∈ transfer.status.allowedTransitions → e = .sagaLeaseLost) → E w' e) :
    (transitionTransaction transfer (job.draw.runs n).leaseOwner next patch).wp (payments setting)
      (paymentsProtocol setting) i Q E w [] := by
  rw [transitionTransaction, Tx.bind_eq, Tx.wp_bind]
  exact wp_transitionUsingManager h hpatch hQ hE

/-- The statement of an update. -/
lemma wp_updateStatement {patch : Transfer → Transfer}
    {Q : World → List Write → Reply → Prop} {E : World → PaymentsError → Prop}
    (h : Working setting w i job n transfer)
    (hQ : ∀ w' row, Matched setting w' i job n transfer row → row.id = transfer.id →
      Ahead setting i w w' → Q w' [.saveTransfer (updated patch row)] (.affected 1))
    (hnone : ∀ w', Working setting w' i job n transfer → Ahead setting i w w' →
      Q w' [] (.affected 0)) :
    (updateStatement transfer (job.draw.runs n).leaseOwner patch).wp (payments setting)
      (paymentsProtocol setting) i Q E w [] := by
  rw [updateStatement, Tx.bind_eq, Tx.wp_bind]
  refine wp_updateTransfers transfer.id (fun row hrow => by simp_all) (fun w₂ hw₂ _ => ?_)
    fun w₂ row hw₂ hrow hmatched => ?_
  · exact hnone w₂ (h.later hw₂) (later_ahead hw₂)
  · simp only [Bool.decide_and, Bool.and_eq_true, decide_eq_true_eq] at hmatched
    obtain ⟨hid, hversion, howner⟩ := hmatched
    exact hQ w₂ row ((h.later hw₂).matched hrow hid hversion howner) hid (later_ahead hw₂)

/-! ### Row updates -/

lemma wp_transitionClaimed {next : TransferStatus} {patch : Transfer → Transfer}
    {Φ : World → Except PaymentsError Transfer → Prop}
    (h : Working setting w i job n transfer) (hpatch : Patches setting transfer patch)
    (hgives : GivesUp next patch) (hover : StartsOver next patch) (hnot : next ≠ .completed)
    (hjust : next ≠ transfer.status → Justified setting w transfer next)
    (hok : ∀ w' row', Working setting w' i job n row' →
      row'.status ∈ transfer.status.allowedTransitions → Φ w' (.ok row'))
    (herr : ∀ w' e, Working setting w' i job n transfer →
      (MayReject setting w i job → MayReject setting w' i job) →
      (next ∈ transfer.status.allowedTransitions → Thrown setting w w' i job e) → Φ w' (.error e)) :
    (transitionClaimed transfer (job.draw.runs n).leaseOwner next patch).wp (payments setting)
      (paymentsProtocol setting) i Φ w := by
  simp only [transitionClaimed, Prog.bind_eq, Prog.wp_bind, Prog.run]
  intro w₁ hw₁
  refine ⟨?_, fun e he => herr w₁ e (h.later hw₁) (fun _ => .of_fails he) fun _ =>
    .of_mayReject (.of_fails he)⟩
  refine wp_transitionTransaction (h.later hw₁) hpatch (fun w₂ row hm ha hnext w₃ hw₃ _ => ?_)
    fun w₂ e hw₂ ha₂ hlost => ?_
  · have hm' := hm.later (hpatch.lock_moved row) hw₃
    have hjust' := hm'.justified h.inv hjust ((later_ahead hw₁).trans (ha.trans (later_ahead hw₃)))
    obtain ⟨hguar, hworking, -, -⟩ := hm'.commit [] (.transfer (moved patch next row))
      (hm'.moved_advance hpatch hgives hover hnext (.transition hnext) hjust') (.nothing hnot)
      (by simp)
    have hstatus : row.status = transfer.status := by
      have hsame := congrArg (·.status) hm.same
      exact hsame
    exact ⟨hguar, hok _ _ hworking (hstatus ▸ hnext)⟩
  · have ha := (later_ahead hw₁).trans ha₂
    exact herr w₂ e hw₂ (fun hr => hr.ahead ha) fun hnext => hlost hnext ▸ .of_lost ha

/-- A transaction that reads a row returns a later version of one that is there. -/
lemma wp_readTransfer {Φ : World → Except PaymentsError Transfer → Prop} {known : Transfer}
    (h : Working setting w i job n transfer) (hid : known.id = transfer.id)
    (hknown : ∃ row ∈ w.db.transfers, known.Evolves row)
    (hwrote : setting.DistinctOwners → (w.claimOf i).Wrote transfer.id)
    (hok : ∀ w' row', Working setting w' i job n row' → known.Evolves row' →
      (setting.DistinctOwners → (w'.claimOf i).Wrote row'.id) → Φ w' (.ok row'))
    (herr : ∀ w' e, Working setting w' i job n transfer → MayReject setting w' i job →
      Φ w' (.error e)) :
    (do
      let reply ← Prog.run do return .transfer (← findTransfer transfer.id)
      rowOf reply : PaymentsProg Transfer).wp (payments setting) (paymentsProtocol setting) i Φ w := by
  have hreject : MayReject setting w i job := .of_wrote hwrote
  simp only [Prog.bind_eq, Prog.wp_bind, Prog.run]
  intro w₁ hw₁
  have h₁ := h.later hw₁
  refine ⟨?_, fun e _ => herr w₁ e h₁ (hreject.ahead (later_ahead hw₁))⟩
  simp only [findTransfer, Tx.bind_eq, Tx.wp_bind, Tx.wp_query]
  intro w₂ hw₂
  have h₂ := h₁.later hw₂
  have ha := (later_ahead hw₁).trans (later_ahead hw₂)
  cases hfound : (view ((payments setting).db w₂) ([] : List Write)).transferById transfer.id with
  | none => exact herr w₂ _ h₂ (hreject.ahead ha)
  | some found =>
    obtain ⟨hmem, hfid⟩ := transferById_some hfound
    intro w₃ hw₃ _
    have h₃ := h₂.later hw₃
    have ha' : ∀ body, Ahead setting i w₂
        ((payments setting).commit w₃ ⟨i, body, [], .transfer found⟩) :=
      fun body => (later_ahead hw₃).trans (commit_nil_ahead body (by simp))
    have hwrote' : ∀ body, setting.DistinctOwners →
        (((payments setting).commit w₃ ⟨i, body, [], .transfer found⟩).claimOf i).Wrote found.id :=
      fun body hd => by rw [(ha.trans (ha' body)).claim, hfid]; exact hwrote hd
    refine ⟨h₃.guar_nil _ _,
      hok _ found ⟨h₂.toServing.ahead (ha' _) ?_, ?_, ?_, ?_⟩ ?_ (hwrote' _)⟩
    · exact h₃.inv.commit (h₃.guar_nil _ _)
    · exact (ha' _).rows found hmem
    · exact fun hs => (ha' _).reached _ (h₂.inv.reached found hmem hs)
    · exact fun hd => .inl (hwrote' _ hd)
    · obtain ⟨row, hrow, he⟩ := hknown
      obtain ⟨row', hrow', he'⟩ := ha.rows row hrow
      have hid' : row'.id = found.id := by rw [(he.trans he').id_eq, hid, hfid]
      obtain rfl := List.inj_on_of_nodup_map h₂.inv.ids hrow' hmem hid'
      exact he.trans he'

/-- An update either loses its lease or changes the row in memory, which is then read again. -/
lemma wp_updateClaimed {patch : Transfer → Transfer}
    {Φ : World → Except PaymentsError Transfer → Prop}
    (h : Working setting w i job n transfer) (hpatch : Patches setting transfer patch)
    (hcounts : Counts setting transfer patch)
    (hok : ∀ w' row row', Working setting w' i job n row' → row.unleased = transfer.unleased →
      (updated patch row).Evolves row' →
      (setting.DistinctOwners → (w'.claimOf i).Wrote row'.id) → Φ w' (.ok row'))
    (herr : ∀ w' e, Working setting w' i job n transfer → Thrown setting w w' i job e →
      Φ w' (.error e)) :
    (updateClaimed transfer (job.draw.runs n).leaseOwner patch).wp (payments setting)
      (paymentsProtocol setting) i Φ w := by
  simp only [updateClaimed, Prog.bind_eq, Prog.wp_bind, Prog.run]
  intro w₁ hw₁
  have h₁ := h.later hw₁
  refine ⟨?_, fun e he => herr w₁ e h₁ (.of_mayReject (.of_fails he))⟩
  refine wp_updateStatement h₁ (fun w₂ row hm hid _ w₃ hw₃ _ => ?_) fun w₂ h₂ ha₂ w₃ hw₃ _ => ?_
  · have hm' := hm.later (hpatch.lock_updated row) hw₃
    have hadv := hm'.updated_advance hpatch hcounts
    have hlive : (updated patch row).status ≠ .completed := by
      have hstatus : (updated patch row).status = row.status := hpatch.status row
      intro heq
      have hended := hm'.live
      rw [← hstatus, heq] at hended
      cases hended
    obtain ⟨hguar, hnew, hold, hwrote⟩ := hm'.commit [] (.affected 1) hadv (.nothing hlive) (by simp)
    refine ⟨hguar, ?_⟩
    exact wp_readTransfer hold (hadv.advances.evolves.id_eq.trans hid) hnew.knows hwrote
      (fun w' row' hw' he => hok w' row row' hw' hm'.same he)
      fun w' e hw' hreject => herr w' e hw' (.of_mayReject hreject)
  · have h₃ := h₂.later hw₃
    refine ⟨h₃.guar_nil _ _, herr _ _ ?_ (.of_lost ?_)⟩
    · exact h₃.ahead (commit_nil_ahead _ (by simp)) (h₃.inv.commit (h₃.guar_nil _ _))
    · exact ((later_ahead hw₁).trans (ha₂.trans (later_ahead hw₃))).trans
        (commit_nil_ahead _ (by simp))

/-! ### Requests -/

/-- The ledger has executed the command, and this is the body of its answer, unless it got lost. -/
def Responds (setting : Setting) (w : World) (command : Ledger.Command) (body : Body) : Prop :=
  ∃ t request j ljob reply, w.sent[t]? = some request ∧ request.command = command ∧
    w.origin j = some t ∧ w.ledger.world.jobs j = some ljob ∧ ljob.command = command ∧
    Ledger.Answers ljob w.ledger.world j reply ∧
    (body = { reply := some reply } ∨ (body = {} ∧ setting.loses command reply))

/-- A command of a request that has returned has done what it answers. -/
lemma Inv.returned {t : Nat} {request : Request} {reply : Ledger.Reply} (h : Inv setting w)
    (hsent : w.sent[t]? = some request) (hret : w.Returned t reply) :
    ∃ j ljob, w.origin j = some t ∧ w.ledger.world.jobs j = some ljob ∧
      ljob.command = request.command ∧ Ledger.Answers ljob w.ledger.world j reply := by
  obtain ⟨j, horigin, hthread⟩ := hret
  obtain ⟨ljob, request', hjob, hsent', hcommand, -⟩ := h.origin j t horigin
  obtain rfl := Option.some.inj (hsent.symm.trans hsent')
  exact ⟨j, ljob, horigin, hjob, hcommand, (h.ledger.post hthread ljob hjob).ok reply rfl⟩

/-- What a fetch that succeeds says about the ledger. -/
lemma Fetched.responds {t : Nat} {command : Ledger.Command} {ledgerDb : Ledger.Database}
    {outcome : FetchOutcome} {body : Body} (hinv : Inv setting w)
    (hsent : w.sent[t]? = some ⟨command, ledgerDb⟩) (h : Fetched setting w t command outcome)
    (hok : outcome.result = .ok body) : Responds setting w command body := by
  cases h with
  | aborted => cases hok
  | rejected => cases hok
  | refused hstatus => simp [FetchOutcome.result, hstatus] at hok
  | @answered reply status hret hstatus =>
    obtain ⟨j, ljob, horigin, hjob, hcommand, hanswers⟩ := hinv.returned hsent hret
    simp only [FetchOutcome.result, hstatus, if_true] at hok
    exact ⟨t, _, j, ljob, reply, hsent, rfl, horigin, hjob, hcommand, hanswers,
      .inl (Except.ok.inj hok).symm⟩
  | @truncated reply status hret hlost hstatus =>
    obtain ⟨j, ljob, horigin, hjob, hcommand, hanswers⟩ := hinv.returned hsent hret
    simp only [FetchOutcome.result, hstatus, if_true] at hok
    exact ⟨t, _, j, ljob, reply, hsent, rfl, horigin, hjob, hcommand, hanswers,
      .inr ⟨(Except.ok.inj hok).symm, hlost⟩⟩

lemma Leased.ahead {t : String} (h : Leased setting w i t) (ha : Ahead setting i w w') :
    Leased setting w' i t := by
  unfold Leased
  rw [ha.claim]
  refine Or.imp_right ?_ h
  rintro ⟨row, job, hfound, hid, hjob, hexp⟩
  exact ⟨row, job, hfound, hid, ha.jobs i job hjob, hexp⟩

lemma Responds.ahead {command : Ledger.Command} {body : Body}
    (hr : Responds setting w command body) (ha : Ahead setting i w w') (hinv : Inv setting w) :
    Responds setting w' command body := by
  obtain ⟨t, request, j, ljob, reply, hsent, hrequest, horigin, hjob, hcommand, hanswers, hbody⟩ := hr
  exact ⟨t, request, j, ljob, reply, sent_ahead hsent ha, hrequest, ha.origin j t horigin,
    Ledger.reaches_job hinv.ledger ha.ledger hjob, hcommand,
    Ledger.reaches_answers hinv.ledger ha.ledger hanswers, hbody⟩

section Requests

variable {config : Config} {command : Ledger.Command}
  {Φ : World → Except PaymentsError Body → Prop}
  (h : Working setting w i job n transfer)
  (hsend : ∀ w', Working setting w' i job n transfer → Ahead setting i w w' → Sendable w' command)
  (hfor : transferOf command = some transfer.id)
  (hleased : setting.DistinctOwners → Leased setting w i transfer.id)
  (hok : ∀ w' body, Working setting w' i job n transfer → Ahead setting i w w' →
    Responds setting w' command body → Φ w' (.ok body))
  (herr : ∀ w' e, Working setting w' i job n transfer → Ahead setting i w w' → Φ w' (.error e))

include h

/-- A question to the circuit breaker changes nothing. -/
lemma wp_ask {q : Ask} {β : Type} {Ψ : World → Except PaymentsError β → Prop}
    {k : Answer → PaymentsProg β} (hq : ∀ command, q ≠ .fetch command)
    (hk : ∀ w' b, Working setting w' i job n transfer → Ahead setting i w w' →
      (k (.flag b)).wp (payments setting) (paymentsProtocol setting) i Ψ w') :
    (Prog.call q k).wp (payments setting) (paymentsProtocol setting) i Ψ w := by
  intro w₁ hw₁
  cases q with
  | fetch command => exact absurd rfl (hq command)
  | _ =>
    refine ⟨trivial, fun t w₂ hissue w₃ hw₃ u hu => ?_⟩
    obtain rfl : w₂ = w₁ := hissue
    obtain ⟨b, rfl⟩ := hu
    exact hk w₃ b ((h.later hw₁).later hw₃) ((later_ahead hw₁).trans (later_ahead hw₃))

include hsend hfor hleased hok herr

lemma wp_fetchOnce : (fetchOnce config command).wp (payments setting) (paymentsProtocol setting) i
    Φ w := by
  unfold fetchOnce
  split
  · intro w₁ hw₁
    have h₁ := h.later hw₁
    refine ⟨⟨hsend w₁ h₁ (later_ahead hw₁), fun hd => ⟨_, hfor, (hleased hd).ahead (later_ahead hw₁)⟩⟩,
      fun t w₂ hissue w₃ hw₃ u hu => ?_⟩
    have hinv := h₁.inv.issue hissue
    have h₂ := h₁.ahead (issue_ahead hissue) hinv
    have h₃ := h₂.later hw₃
    have ha := (later_ahead hw₁).trans ((issue_ahead hissue).trans (later_ahead hw₃))
    obtain ⟨rfl, rfl⟩ := hissue
    obtain ⟨outcome, rfl, hfetched⟩ := hu
    have hsent : w₃.sent[w₁.sent.length]? = some ⟨command, w₁.ledger.world.db⟩ :=
      sent_ahead (by simp) (later_ahead hw₃)
    change Φ w₃ outcome.result
    cases hres : outcome.result with
    | error e => exact herr w₃ e h₃ ha
    | ok body => exact hok w₃ body h₃ ha (hfetched.responds h₃.inv hsent hres)
  · exact herr w _ h (.refl _ _ _)

/-- The attempts of a request end with an answer of the ledger or with an error. -/
lemma wp_requestAttempts (left : Nat) (lastError : LedgerCommandError) :
    (requestAttempts config command left lastError).wp (payments setting) (paymentsProtocol setting)
      i Φ w := by
  induction left generalizing w lastError with
  | zero => exact herr w _ h (.refl _ _ _)
  | succ left ih =>
    rw [requestAttempts, Prog.wp_attempt]
    refine wp_fetchOnce h hsend hfor hleased (fun w₁ body h₁ ha₁ hr => ?_) fun w₁ e h₁ ha₁ => ?_
    · refine wp_ask h₁ (fun _ hq => nomatch hq) fun w₂ b h₂ ha₂ => ?_
      exact hok w₂ body h₂ (ha₁.trans ha₂) (hr.ahead ha₂ h₁.inv)
    · dsimp only
      split
      · exact herr w₁ _ h₁ ha₁
      · refine wp_ask h₁ (fun _ hq => nomatch hq) fun w₂ b h₂ ha₂ => ?_
        have ha := ha₁.trans ha₂
        split
        · exact ih h₂ (fun w' h' ha' => hsend w' h' (ha.trans ha'))
            (fun hd => (hleased hd).ahead ha)
            (fun w' body h' ha' => hok w' body h' (ha.trans ha'))
            (fun w' e h' ha' => herr w' e h' (ha.trans ha')) _
        · exact herr w₂ _ h₂ ha

lemma wp_request : (request config command).wp (payments setting) (paymentsProtocol setting) i
    Φ w := by
  refine wp_ask h (fun _ hq => nomatch hq) fun w₁ b h₁ ha => ?_
  split
  · exact herr w₁ _ h₁ ha
  · exact wp_requestAttempts h₁ (fun w' h' ha' => hsend w' h' (ha.trans ha')) hfor
      (fun hd => (hleased hd).ahead ha) (fun w' body h' ha' => hok w' body h' (ha.trans ha'))
      (fun w' e h' ha' => herr w' e h' (ha.trans ha')) _ _

end Requests

end Payments

end PeerLedger
