import PeerLedger.Payments.Commits

/-!
# What the workers of the payments service owe each other

`paymentsProtocol` is the protocol of the threads of the payments service.  Every commit is a `Move`;
a request is sent only for a transfer in a state that allows it (`Sendable`); and a thread sends one,
or rejects, only when the claim of its current run wrote the lease, or the row that it read is one of
those for which `run` does something before it updates the row (`exposed`).

`Ahead` is what stays true for a worker whatever the other workers, the ledger and the network do.
-/

namespace PeerLedger

namespace Payments

open Transactions Relation

/-! ### Runs of a thread -/

/-- The row that the writes of a commit save. -/
def savedRow (ws : List Write) : Option Transfer :=
  ws.findSome? fun
    | .saveTransfer row => some row
    | _ => none

/-- The claim of a thread's current run: the row with the lease that it wrote, if any, and the row
that it read. -/
structure Claim where
  wrote : Option Transfer
  found : Option Transfer

/-- The claim after a commit of the thread. -/
def Claim.next (claim : Claim) (c : PaymentsCommit) : Claim :=
  match c.reply with
  | .claimed _ => { wrote := savedRow c.writes, found := none }
  | .found row => { claim with found := some row }
  | _ => claim

/-- Other commits leave the claim alone. -/
lemma Claim.next_eq (claim : Claim) {c : PaymentsCommit}
    (h : (∀ raw, c.reply ≠ .claimed raw) ∧ ∀ row, c.reply ≠ .found row) : claim.next c = claim := by
  unfold Claim.next
  split
  · next raw heq => exact absurd heq (h.1 raw)
  · next row heq => exact absurd heq (h.2 row)
  · rfl

/-- The claim wrote a lease on the row of the transfer. -/
def Claim.Wrote (claim : Claim) (transferId : String) : Prop :=
  ∃ row, claim.wrote = some row ∧ row.id = transferId

/-- The claim of the current run of thread `i`. -/
def World.claimOf (w : World) (i : Nat) : Claim :=
  (w.log.filter fun c => c.thread = i).foldl Claim.next { wrote := none, found := none }

/-- The rows for which `run` does something else than to update the row and, if it has not the lease,
to return: it sends a request first, or it records a failure, where a lost lease leaves it as an
error. -/
def exposed (config : Config) (now : Int) (row : Transfer) : Bool :=
  match row.status with
  | .validating =>
    !(config.validate row now).isOk || row.receiverWalletId.isNone || row.holdMayExist
  | .processing => true
  | .compensating => true
  | _ => false

/-- `randomUUID()` never returns a lease owner twice. -/
def Setting.DistinctOwners (setting : Setting) : Prop :=
  ∀ i j draw draw' n m, setting.draws i draw → setting.draws j draw' →
    (draw.runs n).leaseOwner = (draw'.runs m).leaseOwner → i = j ∧ n = m

/-! ### Answers of requests -/

/-- The transfer `id` answers a request: it was made by the same request, and has its share or its
key. -/
def Resolves (config : Config) (db : Database) (canonical : CanonicalTransferRequest)
    (key id : String) : Prop :=
  ∃ row ∈ db.transfers, row.id = id ∧ row.requestFingerprint = config.fingerprint canonical ∧
    ((canonical.splitBillShareId ≠ none ∧ row.splitBillShareId = canonical.splitBillShareId) ∨
      (row.senderUserId = canonical.senderUserId ∧ row.idempotencyKey = key))

/-- The transfer `id` answers the request of a command. -/
def Granted (config : Config) (db : Database) (command : Command) (id : String) : Prop :=
  ∃ canonical key, Asks config db command canonical key ∧ Resolves config db canonical key id

/-- What a program that returned has established. -/
def Answered (config : Config) (db : Database) (command : Command) : Result → Prop
  | .view view => Granted config db command view.id
  | .paid _ view => Granted config db command view.id
  | _ => True

/-- More bills, and later versions of the rows. -/
structure Database.Extends (db db' : Database) : Prop where
  rows : ∀ row ∈ db.transfers, ∃ row' ∈ db'.transfers, row.Evolves row'
  bills : db.bills ⊆ db'.bills ∧ db.shares ⊆ db'.shares

lemma Database.Extends.refl (db : Database) : db.Extends db :=
  ⟨fun row h => ⟨row, h, .refl row⟩, List.Subset.refl _, List.Subset.refl _⟩

lemma Database.Extends.trans {a b c : Database} (h : a.Extends b) (h' : b.Extends c) :
    a.Extends c := by
  refine ⟨fun row hrow => ?_, List.Subset.trans h.bills.1 h'.bills.1,
    List.Subset.trans h.bills.2 h'.bills.2⟩
  obtain ⟨row', hrow', he⟩ := h.rows row hrow
  obtain ⟨row'', hrow'', he'⟩ := h'.rows row' hrow'
  exact ⟨row'', hrow'', he.trans he'⟩

lemma Asks.extends {config : Config} {db db' : Database} {command : Command}
    {canonical : CanonicalTransferRequest} {key : String} (h : Asks config db command canonical key)
    (he : db.Extends db') : Asks config db' command canonical key := by
  cases h with
  | create hkey hcanonical => exact .create hkey hcanonical
  | sharePayment hkey => exact .sharePayment hkey
  | payShare hkey hshare hbill h₁ h₂ h₃ h₄ =>
    exact .payShare hkey (he.bills.2 hshare) (he.bills.1 hbill) h₁ h₂ h₃ h₄

lemma IsNew.extends {config : Config} {db db' : Database} {job : Job} {row : Transfer}
    (h : IsNew config db job row) (he : db.Extends db') : IsNew config db' job row := by
  obtain ⟨canonical, key, quote, hasks, hrest⟩ := h
  exact ⟨canonical, key, quote, hasks.extends he, hrest⟩

lemma Resolves.extends {config : Config} {db db' : Database} {canonical : CanonicalTransferRequest}
    {key id : String} (h : Resolves config db canonical key id) (he : db.Extends db') :
    Resolves config db' canonical key id := by
  obtain ⟨row, hrow, hid, hrest⟩ := h
  obtain ⟨row', hrow', hevolves⟩ := he.rows row hrow
  have hterms : (row'.requestFingerprint, row'.splitBillShareId, row'.senderUserId,
      row'.idempotencyKey) = (row.requestFingerprint, row.splitBillShareId, row.senderUserId,
      row.idempotencyKey) := Transfer.congr_terms hevolves.terms
    (fun row => (row.requestFingerprint, row.splitBillShareId, row.senderUserId,
      row.idempotencyKey)) fun _ => rfl
  simp only [Prod.mk.injEq] at hterms
  obtain ⟨h₁, h₂, h₃, h₄⟩ := hterms
  exact ⟨row', hrow', hevolves.id_eq.trans hid, by rwa [h₁, h₂, h₃, h₄]⟩

lemma Granted.extends {config : Config} {db db' : Database} {command : Command} {id : String}
    (h : Granted config db command id) (he : db.Extends db') : Granted config db' command id := by
  obtain ⟨canonical, key, hasks, hresolves⟩ := h
  exact ⟨canonical, key, hasks.extends he, hresolves.extends he⟩

/-! ### The protocol -/

/-- The requests that may be sent. -/
inductive Sendable (w : World) : Ledger.Command → Prop
  | validate {row} : row ∈ w.db.transfers → Sendable w (validateCommand row)
  | placeHold {row} : row ∈ w.db.transfers → row.holdMayExist = true →
      Sendable w (placeHoldCommand row)
  | settle {row receiverWalletId} : row ∈ w.db.transfers →
      row.receiverWalletId = some receiverWalletId → w.Reached row.id →
      Sendable w (.settleTransfer row.id (settleDto row receiverWalletId))
  | release {row} : row ∈ w.db.transfers → row.status.isLate = true →
      Sendable w (releaseCommand row)

/-- The invariant of the world. -/
structure Inv (setting : Setting) (w : World) : Prop where
  tables : TablesOk w.db
  ledger : w.ledger.Ok (Ledger.ledger setting.ledger) (Ledger.ledgerProtocol setting.ledger)
  /-- The ledger has only grown since a request was sent. -/
  sent : ∀ request ∈ w.sent, Ledger.Consistent request.ledgerDb ∧
    request.ledgerDb.Grows [] w.ledger.world.db
  /-- A thread of the ledger that executes a request was started after it was sent. -/
  origin : ∀ i n, w.origin i = some n → ∃ job request, w.ledger.world.jobs i = some job ∧
    w.sent[n]? = some request ∧ job.command = request.command ∧
    request.ledgerDb.Grows [] job.startDb
  /-- Money is held or moved only after `FundsHeld`. -/
  reached : ∀ row ∈ w.db.transfers, row.status = .fundsHeld ∨ row.status = .processing →
    w.Reached row.id
  /-- Leases are those of started threads. -/
  owners : ∀ row ∈ w.db.transfers, ∀ o, row.leaseOwner = some o →
    ∃ j job n, w.jobs j = some job ∧ (job.draw.runs n).leaseOwner = o
  draws : ∀ i job, w.jobs i = some job → setting.draws i job.draw

lemma Inv.ids {setting : Setting} {w : World} (h : Inv setting w) :
    (w.db.transfers.map (·.id)).Nodup := h.tables.ids

/-- The claim of the thread allows it to send a request about a transfer. -/
def Leased (setting : Setting) (w : World) (i : Nat) (transferId : String) : Prop :=
  (w.claimOf i).Wrote transferId ∨ ∃ row job, (w.claimOf i).found = some row ∧
    row.id = transferId ∧ w.jobs i = some job ∧
    exposed setting.config job.command.now row = true

/-- The thread has a reason to reject in its current run: the claim wrote the lease, or it has read an
exposed row, or statements may fail by themselves. -/
def MayReject (setting : Setting) (w : World) (i : Nat) (job : Job) : Prop :=
  setting.DistinctOwners → (∀ e, ¬ setting.fails e) →
    (∃ row, (w.claimOf i).wrote = some row) ∨
    ∃ row, (w.claimOf i).found = some row ∧ exposed setting.config job.command.now row = true

/-- The commands that are nothing but runs. -/
def Command.isRun : Command → Bool
  | .run .. => true
  | .recoverDue .. => true
  | _ => false

/-- A claim writes nothing but a lease, and only on a row that it can take; whatever else a run
saves is a step of a row of which it has the lease. -/
structure ClaimLeases (setting : Setting) (w : World) (job : Job) (c : PaymentsCommit) : Prop where
  lease : ∀ raw row', c.reply = .claimed raw → savedRow c.writes = some row' →
    ∃ row ∈ w.db.transfers, ∃ n, claimable job.command.now row = true ∧
      row' = leasedRow setting job n row
  saves : setting.DistinctOwners → (∀ raw, c.reply ≠ .claimed raw) → ∀ row',
    savedRow c.writes = some row' → (w.claimOf c.thread).Wrote row'.id
  advances : (∀ raw, c.reply ≠ .claimed raw) → ∀ row', savedRow c.writes = some row' →
    ∃ row ∈ w.db.transfers, Advance setting w job c.body row row'

/-- What the threads of the payments service owe each other. -/
def paymentsProtocol (setting : Setting) :
    Protocol Nat World Database Write PaymentsError Reply Ask Result where
  inv := Inv setting
  guar w c := ∃ job, w.jobs c.thread = some job ∧ Move setting w job c.body c.writes ∧
    ClaimLeases setting w job c
  callOk w i q :=
    match q with
    | .fetch command => Sendable w command ∧ (setting.DistinctOwners →
        ∃ transferId, transferOf command = some transferId ∧ Leased setting w i transferId)
    | _ => True
  post w i r := (∀ result, r = .ok result →
      ∃ job, w.jobs i = some job ∧ Answered setting.config w.db job.command result) ∧
    ∀ e job, r = .error e → w.jobs i = some job → job.command.isRun = true →
      e = .entityNotFound "Transfer" ∨ MayReject setting w i job

/-! ### What stays true -/

variable {setting : Setting} {i : Nat} {p : List Write} {w w' w'' : World}

/-- What thread `i` can rely on when the world goes from `w` to `w'` without a commit of its own. -/
structure Ahead (setting : Setting) (i : Nat) (w w' : World) : Prop where
  rows : ∀ row ∈ w.db.transfers, ∃ row' ∈ w'.db.transfers, row.Evolves row'
  bills : w.db.bills ⊆ w'.db.bills ∧ w.db.shares ⊆ w'.db.shares
  reached : ∀ t, w.Reached t → w'.Reached t
  claim : w'.claimOf i = w.claimOf i
  sent : w.sent <+: w'.sent
  ledger : Reaches (Ledger.ledger setting.ledger) w.ledger w'.ledger
  origin : ∀ j n, w.origin j = some n → w'.origin j = some n
  jobs : ∀ j job, w.jobs j = some job → w'.jobs j = some job
  noLease : setting.DistinctOwners → ∀ job n, w.jobs i = some job →
    w.NoLease (job.draw.runs n).leaseOwner → w'.NoLease (job.draw.runs n).leaseOwner

lemma Ahead.refl (setting : Setting) (i : Nat) (w : World) : Ahead setting i w w :=
  ⟨fun row h => ⟨row, h, .refl row⟩, ⟨List.Subset.refl _, List.Subset.refl _⟩, fun _ h => h, rfl,
    List.prefix_rfl, .refl, fun _ _ h => h, fun _ _ h => h, fun _ _ _ _ h => h⟩

lemma Ahead.trans (h : Ahead setting i w w') (h' : Ahead setting i w' w'') :
    Ahead setting i w w'' where
  rows row hrow := by
    obtain ⟨row', hrow', he⟩ := h.rows row hrow
    obtain ⟨row'', hrow'', he'⟩ := h'.rows row' hrow'
    exact ⟨row'', hrow'', he.trans he'⟩
  bills := ⟨List.Subset.trans h.bills.1 h'.bills.1, List.Subset.trans h.bills.2 h'.bills.2⟩
  reached t ht := h'.reached t (h.reached t ht)
  claim := h'.claim.trans h.claim
  sent := h.sent.trans h'.sent
  ledger := h.ledger.trans h'.ledger
  origin j n hj := h'.origin j n (h.origin j n hj)
  jobs j job hj := h'.jobs j job (h.jobs j job hj)
  noLease hd job n hj hn := h'.noLease hd job n (h.jobs i job hj) (h.noLease hd job n hj hn)

/-- A world that differs only in its ledger and its network. -/
lemma Ahead.of_ledger (hdb : w'.db = w.db) (hlog : w'.log = w.log) (hjobs : w'.jobs = w.jobs)
    (hsent : w.sent <+: w'.sent)
    (hledger : Reaches (Ledger.ledger setting.ledger) w.ledger w'.ledger)
    (horigin : ∀ j n, w.origin j = some n → w'.origin j = some n) : Ahead setting i w w' where
  rows row hrow := ⟨row, hdb ▸ hrow, .refl row⟩
  bills := by rw [hdb]; exact ⟨List.Subset.refl _, List.Subset.refl _⟩
  reached t ht := by simpa only [World.Reached, hlog] using ht
  claim := by simp only [World.claimOf, hlog]
  sent := hsent
  ledger := hledger
  origin := horigin
  jobs := by rw [hjobs]; exact fun _ _ h => h
  noLease _ job n _ h := by simpa only [World.NoLease, hdb] using h

lemma Ahead.extends (h : Ahead setting i w w') : w.db.Extends w'.db := ⟨h.rows, h.bills⟩

/-! ### Steps of the ledger -/

/-- The ledger's part of a step. -/
lemma LedgerMoves.reaches (h : LedgerMoves setting w w') :
    Reaches (Ledger.ledger setting.ledger) w.ledger w'.ledger := by
  cases h with
  | move hstep => exact .single hstep.of_closed
  | owner _ _ _ hcan => exact .single (.start hcan.idle ⟨hcan.jobs, _, _, hcan.uuid, rfl, rfl⟩)
  | deliver _ hcan => exact .single (.start hcan.idle ⟨hcan.jobs, _, _, hcan.uuid, rfl, rfl⟩)

/-- A thread that can start executes no request yet. -/
lemma Inv.origin_none (h : Inv setting w) {j : Nat} {draw : Nat → Ledger.Draw}
    (hcan : CanStart setting w.ledger j draw) : w.origin j = none := by
  cases ho : w.origin j with
  | none => rfl
  | some n =>
    obtain ⟨job, _, hjob, -⟩ := h.origin j n ho
    rw [hcan.jobs] at hjob
    cases hjob

lemma LedgerMoves.ahead (hinv : Inv setting w) (h : LedgerMoves setting w w') :
    Ahead setting i w w' := by
  have hledger := h.reaches
  cases h with
  | move => exact .of_ledger rfl rfl rfl List.prefix_rfl hledger fun _ _ h => h
  | owner => exact .of_ledger rfl rfl rfl List.prefix_rfl hledger fun _ _ h => h
  | deliver _ hcan =>
    refine .of_ledger rfl rfl rfl List.prefix_rfl hledger fun j n hj => ?_
    have hne : j ≠ _ := fun heq => by rw [heq, hinv.origin_none hcan] at hj; cases hj
    exact (Function.update_of_ne hne _ _).trans hj

/-- The steps of the ledger keep the invariant. -/
lemma Inv.ledgerMoves (h : Inv setting w) (hmove : LedgerMoves setting w w') : Inv setting w' := by
  have hreach := hmove.reaches
  have hok := h.ledger.reaches (Ledger.ledger_sound setting.ledger) hreach
  have hgrows := Ledger.reaches_grows h.ledger hreach
  have hjobs : ∀ {j job}, w.ledger.world.jobs j = some job → w'.ledger.world.jobs j = some job :=
    fun hj => Ledger.reaches_job h.ledger hreach hj
  have hsent : ∀ request ∈ w.sent, Ledger.Consistent request.ledgerDb ∧
      request.ledgerDb.Grows [] w'.ledger.world.db :=
    fun request hr => ⟨(h.sent request hr).1, (h.sent request hr).2.trans hgrows⟩
  have horigin : ∀ j n, w.origin j = some n → ∃ job request,
      w'.ledger.world.jobs j = some job ∧ w.sent[n]? = some request ∧
      job.command = request.command ∧ request.ledgerDb.Grows [] job.startDb := by
    intro j n hj
    obtain ⟨job, request, hjob, hrest⟩ := h.origin j n hj
    exact ⟨job, request, hjobs hjob, hrest⟩
  cases hmove with
  | move => exact ⟨h.tables, hok, hsent, horigin, h.reached, h.owners, h.draws⟩
  | owner => exact ⟨h.tables, hok, hsent, horigin, h.reached, h.owners, h.draws⟩
  | @deliver j n request draw hrequest hcan =>
    refine ⟨h.tables, hok, hsent, fun k m hk => ?_, h.reached, h.owners, h.draws⟩
    change Function.update w.origin j (some n) k = some m at hk
    by_cases hkj : k = j
    · subst hkj
      rw [Function.update_self] at hk
      obtain rfl := Option.some.inj hk
      refine ⟨⟨request.command, draw, w.ledger.world.db⟩, request, ?_, hrequest, rfl, ?_⟩
      · exact Function.update_self _ _ _
      · exact (h.sent request (List.mem_of_getElem? hrequest)).2
    · rw [Function.update_of_ne hkj] at hk
      exact horigin k m hk

/-! ### Commits, requests and starts -/

lemma Reached.commit {c : PaymentsCommit} {t : String} (h : w.Reached t) :
    ((payments setting).commit w c).Reached t := by
  obtain ⟨c', hc', hrest⟩ := h
  exact ⟨c', List.mem_append_left _ hc', hrest⟩

lemma claimOf_commit (c : PaymentsCommit) :
    ((payments setting).commit w c).claimOf i =
      if c.thread = i then (w.claimOf i).next c else w.claimOf i := by
  simp only [World.claimOf, payments, List.filter_append, List.foldl_append]
  by_cases h : c.thread = i <;> simp [h]

/-- The lease that a commit of another thread writes is not one of thread `i`. -/
lemma Move.noLease {job job' : Job} {body : PaymentsTx Reply} {ws : List Write} {j : Nat}
    (h : Move setting w job body ws)
    (hinv : Inv setting w) (hd : setting.DistinctOwners) (hj : w.jobs j = some job)
    (hi : w.jobs i = some job') (hne : j ≠ i) {n : Nat}
    (hno : w.NoLease (job'.draw.runs n).leaseOwner) :
    ∀ row ∈ (view w.db ws).transfers, row.leaseOwner ≠ some (job'.draw.runs n).leaseOwner := by
  intro row' hrow' heq
  rcases h.row_cases hrow' with hmem | ⟨-, hnew, -⟩ | ⟨row, hrow, -, hstep⟩
  · exact hno row' hmem heq
  · rw [hnew.status_eq.2] at heq
    cases heq
  · cases hstep with
    | lease =>
      have hsame := Option.some.inj heq
      exact hne (hd j i _ _ _ _ (hinv.draws j job hj) (hinv.draws i job' hi) hsame).1
    | advance hadv =>
      rcases hadv.advances.lease with hnone | hsame
      · rw [hnone] at heq
        cases heq
      · exact hno row hrow (hsame ▸ heq)

/-- A commit of another thread. -/
lemma commit_ahead {c : PaymentsCommit} (hinv : Inv setting w) (hne : c.thread ≠ i)
    (hguar : (paymentsProtocol setting).guar w c) :
    Ahead setting i w ((payments setting).commit w c) := by
  obtain ⟨job, hjob, hmove, -⟩ := hguar
  exact
    { rows := fun row hrow => hmove.rows hrow hinv.ids
      bills := hmove.bills
      reached := fun t => Reached.commit
      claim := by rw [claimOf_commit, if_neg hne]
      sent := List.prefix_rfl
      ledger := .refl
      origin := fun _ _ h => h
      jobs := fun _ _ h => h
      noLease := fun hd job' n hi => hmove.noLease hinv hd hjob hi hne }

/-- The rows after a commit, and what is known of them. -/
lemma Inv.commit {c : PaymentsCommit} (h : Inv setting w)
    (hguar : (paymentsProtocol setting).guar w c) : Inv setting ((payments setting).commit w c) := by
  obtain ⟨job, hjob, hmove, -⟩ := hguar
  refine ⟨hmove.tables h.tables, h.ledger, h.sent, h.origin, fun row' hrow' hstatus => ?_,
    fun row' hrow' o ho => ?_, h.draws⟩
  · rcases hmove.row_cases hrow' with hmem | ⟨-, hnew, -⟩ | ⟨row, hrow, hsaved, hstep⟩
    · exact Reached.commit (h.reached row' hmem hstatus)
    · rw [hnew.status_eq.1] at hstatus
      rcases hstatus with h | h <;> cases h
    · by_cases hheld : row'.status = .fundsHeld
      · exact ⟨c, by simp [payments], row', hsaved, rfl, hheld⟩
      · rw [hstep.evolves.id_eq]
        refine Reached.commit (h.reached row hrow ?_)
        have hproc := hstatus.resolve_left hheld
        cases hstep with
        | lease => exact .inr hproc
        | advance hadv =>
          rcases hadv.advances.status with heq | hmem
          · exact .inr (heq ▸ hproc)
          · refine .inl ?_
            rw [hproc] at hmem
            revert hmem
            cases row.status <;> simp [TransferStatus.allowedTransitions]
  · rcases hmove.row_cases hrow' with hmem | ⟨-, hnew, -⟩ | ⟨row, hrow, -, hstep⟩
    · exact h.owners row' hmem o ho
    · rw [hnew.status_eq.2] at ho
      cases ho
    · cases hstep with
      | lease => exact ⟨c.thread, job, _, hjob, Option.some.inj ho⟩
      | advance hadv =>
        rcases hadv.advances.lease with hnone | hsame
        · rw [hnone] at ho
          cases ho
        · exact h.owners row hrow o (hsame ▸ ho)

lemma issue_db {j : Nat} {q : Ask} {t : Nat} (hissue : (payments setting).issue w j q t w') :
    w'.db = w.db := by
  cases q with
  | fetch command => obtain ⟨-, rfl⟩ := hissue; rfl
  | circuitOpen => obtain rfl : w' = w := hissue; rfl
  | recordSuccess => obtain rfl : w' = w := hissue; rfl
  | recordFailure => obtain rfl : w' = w := hissue; rfl

/-- A request that is sent changes nothing but the network. -/
lemma issue_ahead {j : Nat} {q : Ask} {t : Nat} (hissue : (payments setting).issue w j q t w') :
    Ahead setting i w w' := by
  cases q with
  | fetch command =>
    obtain ⟨-, rfl⟩ := hissue
    exact .of_ledger rfl rfl rfl (List.prefix_append _ _) .refl fun _ _ h => h
  | circuitOpen => obtain rfl : w' = w := hissue; exact .refl _ _ _
  | recordSuccess => obtain rfl : w' = w := hissue; exact .refl _ _ _
  | recordFailure => obtain rfl : w' = w := hissue; exact .refl _ _ _

lemma Inv.issue {j : Nat} {q : Ask} {t : Nat} (h : Inv setting w)
    (hissue : (payments setting).issue w j q t w') : Inv setting w' := by
  cases q with
  | fetch command =>
    obtain ⟨-, rfl⟩ := hissue
    refine ⟨h.tables, h.ledger, fun request hr => ?_, fun j n hj => ?_, h.reached, h.owners, h.draws⟩
    · rcases List.mem_append.mp hr with hr | hr
      · exact h.sent request hr
      · obtain rfl := List.mem_singleton.mp hr
        exact ⟨h.ledger.inv.1, .refl _ _⟩
    · obtain ⟨job, request, hjob, hreq, hrest⟩ := h.origin j n hj
      refine ⟨job, request, hjob, ?_, hrest⟩
      have hlt := (List.getElem?_eq_some_iff.mp hreq).1
      exact (List.getElem?_append_left hlt).trans hreq
  | circuitOpen => obtain rfl : w' = w := hissue; exact h
  | recordSuccess => obtain rfl : w' = w := hissue; exact h
  | recordFailure => obtain rfl : w' = w := hissue; exact h

/-- The tables after a commit. -/
lemma commit_extends {c : PaymentsCommit} (hinv : Inv setting w)
    (hguar : (paymentsProtocol setting).guar w c) :
    w.db.Extends ((payments setting).commit w c).db := by
  obtain ⟨job, -, hmove, -⟩ := hguar
  exact ⟨fun row hrow => hmove.rows hrow hinv.ids, hmove.bills⟩

/-- Starting another thread changes nothing for thread `i`. -/
lemma start_ahead {j : Nat} {program : PaymentsProg Result}
    (hstart : (payments setting).starts w j program w') : Ahead setting i w w' := by
  obtain ⟨hnone, command, draw, -, -, -, rfl⟩ := hstart
  refine ⟨fun row h => ⟨row, h, .refl row⟩, ⟨List.Subset.refl _, List.Subset.refl _⟩, fun _ h => h,
    rfl, List.prefix_rfl, .refl, fun _ _ h => h, fun k job hk => ?_, fun _ _ _ _ h => h⟩
  have hne : k ≠ j := fun heq => by rw [heq, hnone] at hk; cases hk
  exact (Function.update_of_ne hne _ _).trans hk

lemma Inv.start {j : Nat} {program : PaymentsProg Result} (h : Inv setting w)
    (hstart : (payments setting).starts w j program w') : Inv setting w' := by
  have hahead : Ahead setting j w w' := start_ahead hstart
  obtain ⟨hnone, command, draw, -, hdraw, -, rfl⟩ := hstart
  refine ⟨h.tables, h.ledger, h.sent, h.origin, h.reached, fun row hrow o ho => ?_,
    fun k job hk => ?_⟩
  · obtain ⟨k, job, n, hk, heq⟩ := h.owners row hrow o ho
    exact ⟨k, job, n, hahead.jobs k job hk, heq⟩
  · change Function.update w.jobs j _ k = _ at hk
    by_cases hkj : k = j
    · subst hkj
      rw [Function.update_self] at hk
      obtain rfl := Option.some.inj hk
      exact hdraw
    · rw [Function.update_of_ne hkj] at hk
      exact h.draws k job hk

/-- Whatever the others do, a thread can rely on `Ahead`. -/
lemma later_ahead (h : Later (payments setting) (paymentsProtocol setting) i p w w') :
    Ahead setting i w w' := by
  refine Later.rel (R := Ahead setting i) (Ahead.refl setting i) (fun _ _ _ => Ahead.trans)
    (fun a b hab => ?_) h
  cases hab with
  | env hinv he => exact he.ahead hinv
  | commit hinv hne _ _ _ hguar => exact commit_ahead hinv hne hguar
  | issue _ _ _ hissue => exact issue_ahead hissue
  | start _ _ hstart => exact start_ahead hstart

/-! ### Locked rows -/

/-- A commit that leaves a locked transfer alone. -/
lemma Move.row_locked {job : Job} {body : PaymentsTx Reply} {ws : List Write} {id : String}
    (h : Move setting w job body ws)
    (hlock : Lock.transferId id ∉ locksOf (σ := Database) ws) {row : Transfer} (hid : row.id = id) :
    row ∈ (view w.db ws).transfers ↔ row ∈ w.db.transfers := by
  cases h with
  | none => exact Iff.rfl
  | @insert row' hfresh =>
    rw [view_insert, List.mem_append, List.mem_singleton, or_iff_left]
    rintro rfl
    exact hlock (by simp [locksOf, Store.locks, Write.locks, hid])
  | @save old row' _ hold hstep =>
    have hne : row'.id ≠ id := fun heq => hlock (by simp [locksOf, Store.locks, Write.locks, heq])
    rw [view_save, mem_saveRow]
    constructor
    · rintro (⟨hmem, -⟩ | ⟨rfl, -⟩)
      · exact hmem
      · exact absurd hid hne
    · exact fun hmem => .inl ⟨hmem, fun heq => hne (heq ▸ hid)⟩
  | createBill => rw [view_bill]

/-- The others leave a row alone that a pending write occupies. -/
lemma later_locked {id : String} (hlock : Lock.transferId id ∈ locksOf (σ := Database) p)
    (h : Later (payments setting) (paymentsProtocol setting) i p w w') {row : Transfer}
    (hid : row.id = id) : row ∈ w'.db.transfers ↔ row ∈ w.db.transfers := by
  refine Later.rel (R := fun a b : World => row ∈ b.db.transfers ↔ row ∈ a.db.transfers)
    (fun _ => Iff.rfl) (fun _ _ _ hab hbc => hbc.trans hab) (fun a b hab => ?_) h
  cases hab with
  | env hinv he => cases he <;> rfl
  | commit hinv hne hdisj _ _ hguar =>
    obtain ⟨job, hjob, hmove, -⟩ := hguar
    exact hmove.row_locked (fun hmem => hdisj hlock hmem) hid
  | issue _ _ _ hissue => rw [issue_db hissue]
  | start _ _ hstart => obtain ⟨-, _, _, -, -, -, rfl⟩ := hstart; rfl

/-! ### Keys that a pending insert occupies -/

/-- What a pending write occupies. -/
lemma mem_locksOf {x : Write} {lock : Lock} (hx : x ∈ p) (hlock : lock ∈ x.locks) :
    lock ∈ locksOf (σ := Database) p := List.mem_flatMap.mpr ⟨x, hx, hlock⟩

/-- What only the commits of the others can change in the tables. -/
lemma later_tables {R : Database → Database → Prop} (hrefl : ∀ db, R db db)
    (htrans : ∀ a b c, R a b → R b c → R a c)
    (hcommit : ∀ w job body ws, Inv setting w → Move setting w job body ws →
      List.Disjoint (locksOf (σ := Database) p) (locksOf (σ := Database) ws) →
      R w.db (view w.db ws))
    (h : Later (payments setting) (paymentsProtocol setting) i p w w') : R w.db w'.db := by
  refine Later.rel (R := fun a b : World => R a.db b.db) (fun _ => hrefl _)
    (fun _ _ _ => htrans _ _ _) (fun a b hab => ?_) h
  cases hab with
  | env hinv he => cases he <;> exact hrefl _
  | commit hinv hne hdisj _ _ hguar =>
    obtain ⟨job, -, hmove, -⟩ := hguar
    exact hcommit a job _ _ hinv hmove hdisj
  | issue _ _ _ hissue => rw [issue_db hissue]; exact hrefl _
  | start _ _ hstart => obtain ⟨-, _, _, -, -, -, rfl⟩ := hstart; exact hrefl _

/-- The index entries of a transfer are those of its terms. -/
lemma Transfer.Evolves.locks_eq {a b : Transfer} (h : a.Evolves b) :
    (Write.insertTransfer b).locks = (Write.insertTransfer a).locks :=
  Transfer.congr_terms h.terms (fun row => (Write.insertTransfer row).locks) fun _ => rfl

/-- A transfer of the others is an old one, or has keys that no pending write occupies. -/
lemma later_transfer_cases (h : Later (payments setting) (paymentsProtocol setting) i p w w')
    {row' : Transfer} (hrow' : row' ∈ w'.db.transfers) :
    (∃ row ∈ w.db.transfers, row.Evolves row') ∨
      List.Disjoint (locksOf (σ := Database) p) (Write.insertTransfer row').locks := by
  refine later_tables (R := fun a b : Database => ∀ row' ∈ b.transfers,
    (∃ row ∈ a.transfers, row.Evolves row') ∨
      List.Disjoint (locksOf (σ := Database) p) (Write.insertTransfer row').locks)
    (fun _ row' hrow' => .inl ⟨row', hrow', .refl row'⟩) (fun a b c hab hbc row'' hrow'' => ?_)
    (fun w job body ws hinv hmove hdisj row' hrow' => ?_) h row' hrow'
  · rcases hbc row'' hrow'' with ⟨row', hrow', he'⟩ | hdisj
    · rcases hab row' hrow' with ⟨row, hrow, he⟩ | hdisj
      · exact .inl ⟨row, hrow, he.trans he'⟩
      · exact .inr (he'.locks_eq ▸ hdisj)
    · exact .inr hdisj
  · rcases hmove.row_cases hrow' with hmem | ⟨rfl, -⟩ | ⟨row, hrow, -, hstep⟩
    · exact .inl ⟨row', hmem, .refl row'⟩
    · exact .inr (by simpa [locksOf, Store.locks] using hdisj)
    · exact .inl ⟨row, hrow, hstep.evolves⟩

/-- A new transfer stays fresh while its insert is pending. -/
lemma Fresh.later {row : Transfer} (h : Fresh w.db row)
    (hw : Later (payments setting) (paymentsProtocol setting) i [.insertTransfer row] w w') :
    Fresh w'.db row := by
  have hlocks : locksOf (σ := Database) [Write.insertTransfer row] =
      (Write.insertTransfer row).locks := by simp [locksOf, Store.locks]
  constructor
  case id =>
    intro old hold heq
    rcases later_transfer_cases hw hold with ⟨was, hwas, he⟩ | hdisj
    · exact h.id was hwas (he.id_eq.symm.trans heq)
    · rw [hlocks] at hdisj
      exact hdisj (a := .transferId row.id) (by simp [Write.locks]) (by simp [Write.locks, heq])
  case key =>
    intro old hold hsender hkey
    rcases later_transfer_cases hw hold with ⟨was, hwas, he⟩ | hdisj
    · have hterms : (old.senderUserId, old.idempotencyKey) =
          (was.senderUserId, was.idempotencyKey) :=
        Transfer.congr_terms he.terms (fun row => (row.senderUserId, row.idempotencyKey))
          fun _ => rfl
      exact h.key was hwas ((Prod.mk.inj hterms).1.symm.trans hsender)
        ((Prod.mk.inj hterms).2.symm.trans hkey)
    · rw [hlocks] at hdisj
      exact hdisj (a := .senderIdempotency row.senderUserId row.idempotencyKey)
        (by simp [Write.locks]) (by simp [Write.locks, hsender, hkey])
  case share =>
    intro old hold shareId hrow hshare
    rcases later_transfer_cases hw hold with ⟨was, hwas, he⟩ | hdisj
    · have hterms : old.splitBillShareId = was.splitBillShareId :=
        Transfer.congr_terms he.terms (·.splitBillShareId) fun _ => rfl
      exact h.share was hwas shareId hrow (hterms.symm.trans hshare)
    · rw [hlocks] at hdisj
      exact hdisj (a := .splitBillShare shareId) (by simp [Write.locks, hrow])
        (by simp [Write.locks, hshare])
  case exists_share =>
    intro shareId hrow
    obtain ⟨share, hshare, hid⟩ := h.exists_share shareId hrow
    exact ⟨share, (later_ahead hw).bills.2 hshare, hid⟩

/-- A bill or a share of the others is an old one, or has keys that no pending write occupies. -/
lemma later_bill_cases (h : Later (payments setting) (paymentsProtocol setting) i p w w') :
    (∀ bill ∈ w'.db.bills, bill ∈ w.db.bills ∨ Lock.billId bill.id ∉ locksOf (σ := Database) p) ∧
    ∀ share ∈ w'.db.shares,
      share ∈ w.db.shares ∨ Lock.shareId share.id ∉ locksOf (σ := Database) p := by
  refine later_tables (R := fun a b : Database =>
    (∀ bill ∈ b.bills, bill ∈ a.bills ∨ Lock.billId bill.id ∉ locksOf (σ := Database) p) ∧
    ∀ share ∈ b.shares, share ∈ a.shares ∨ Lock.shareId share.id ∉ locksOf (σ := Database) p)
    (fun _ => ⟨fun _ h => .inl h, fun _ h => .inl h⟩) (fun a b c hab hbc => ?_)
    (fun w job body ws _ hmove hdisj => ?_) h
  · exact ⟨fun bill hbill => (hbc.1 bill hbill).elim (hab.1 bill) .inr,
      fun share hshare => (hbc.2 share hshare).elim (hab.2 share) .inr⟩
  · cases hmove with
    | none => exact ⟨fun _ h => .inl h, fun _ h => .inl h⟩
    | insert => exact ⟨fun _ h => .inl h, fun _ h => .inl h⟩
    | save =>
      rw [view_save]
      exact ⟨fun _ h => .inl h, fun _ h => .inl h⟩
    | @createBill bill shares hnew hfresh =>
      rw [view_bill]
      constructor
      · intro old hold
        rcases List.mem_append.mp hold with hold | hold
        · exact .inl hold
        · obtain rfl := List.mem_singleton.mp hold
          exact .inr fun hmem => hdisj hmem (by simp [billWrites, locksOf, Store.locks, Write.locks])
      · intro share hshare
        rcases List.mem_append.mp hshare with hshare | hshare
        · exact .inl hshare
        · obtain ⟨row, hrow, rfl⟩ := List.mem_map.mp hshare
          refine .inr fun hmem => hdisj hmem ?_
          refine List.mem_flatMap.mpr ⟨.insertShare row.1, ?_, by simp [Store.locks, Write.locks]⟩
          refine List.mem_cons_of_mem _ (List.mem_flatMap.mpr ⟨row, hrow, by simp⟩)

/-- A new bill stays fresh while its inserts are pending. -/
lemma FreshBill.later {bill : SplitBill} {rows : List (SplitBillShare × PaymentOutboxMessage)}
    (h : FreshBill w.db bill rows) (hbill : Write.insertBill bill ∈ p)
    (hshares : ∀ row ∈ rows, Write.insertShare row.1 ∈ p)
    (hw : Later (payments setting) (paymentsProtocol setting) i p w w') :
    FreshBill w'.db bill rows := by
  obtain ⟨hbills, hold⟩ := later_bill_cases hw
  have hnodup := h.shares
  rw [List.map_append, List.nodup_append] at hnodup
  constructor
  case id =>
    intro old holdmem heq
    rcases hbills old holdmem with hmem | hnot
    · exact h.id old hmem heq
    · exact hnot (heq ▸ mem_locksOf hbill (by simp [Write.locks]))
  case shares =>
    rw [List.map_append, List.nodup_append]
    refine ⟨hw.inv.tables.shareIds, hnodup.2.1, fun a ha b hb hab => ?_⟩
    obtain ⟨share, hshare, rfl⟩ := List.mem_map.mp ha
    rcases hold share hshare with hmem | hnot
    · exact hnodup.2.2 _ (List.mem_map_of_mem hmem) b hb hab
    · obtain ⟨share', hshare', rfl⟩ := List.mem_map.mp hb
      obtain ⟨row, hrow, rfl⟩ := List.mem_map.mp hshare'
      exact hnot (hab ▸ mem_locksOf (hshares row hrow) (by simp [Write.locks]))

end Payments

end PeerLedger
