import PeerLedger.Payments.Retries

/-!
# Lost leases

A worker that has lost its lease finds out at its next row update, which matches no row: it throws
`SagaLeaseLostError`, and `run` returns without asking the ledger for anything more.  So it is in the
`try` block of a step; but the updates with which `handleFailure` records a failure are made in the
`catch` block, and there the error leaves `run`.

`lost_lease_ends_run` says exactly this of every execution of `run`: an update that has lost its lease
is its last act, and the run returns if and only if the update did not record a failure.
`recoverDue` therefore runs every transfer that it has selected, as long as no run loses its lease
there.  Otherwise it rejects, and the transfers after it are not run (`recovery_abandoned`).
-/

namespace PeerLedger

namespace Payments

open Transactions

/-- An act of the payments service. -/
abbrev PaymentsAct := Act Database Write PaymentsError Reply Ask Answer

/-- A row update that has lost its lease: it has not changed exactly one row. -/
inductive LosesLease : PaymentsTx Reply → Except PaymentsError Reply → Prop
  | transition {transfer o next patch} :
      LosesLease (transitionTransaction transfer o next patch) (.error .sagaLeaseLost)
  | complete {transfer o draw} :
      LosesLease (completeTransaction transfer o draw) (.error .sagaLeaseLost)
  | update {transfer o patch n} : n ≠ 1 →
      LosesLease (updateStatement transfer o patch) (.ok (.affected n))

/-! ### Row updates -/

variable {config : Config} {draw : RunDraw} {now : Int} {o : String} {transfer : Transfer}

/-- What the transactions that update rows return. -/
def Reply.isOfUpdate : Reply → Bool
  | .affected _ => true
  | .transfer _ => true
  | _ => false

lemma transitionTransaction_returns {next : TransferStatus} {patch : Transfer → Transfer}
    {reply : Reply} {ws : List Write}
    (h : (transitionTransaction transfer o next patch).Returns [] reply ws) :
    ∃ row, reply = .transfer row := by
  obtain ⟨row, p, -, hret⟩ := h.bind_cases
  exact ⟨row, hret.of_ret.1⟩

lemma completeTransaction_returns {draw : CompletionDraw} {reply : Reply} {ws : List Write}
    (h : (completeTransaction transfer o draw).Returns [] reply ws) :
    ∃ row, reply = .transfer row := by
  obtain ⟨row, p, -, h⟩ := h.bind_cases
  obtain ⟨_, p, -, h⟩ := h.bind_cases
  obtain ⟨_, p, -, hret⟩ := h.bind_cases
  exact ⟨row, hret.of_ret.1⟩

lemma updateStatement_returns {patch : Transfer → Transfer} {reply : Reply} {ws : List Write}
    (h : (updateStatement transfer o patch).Returns [] reply ws) : ∃ n, reply = .affected n := by
  obtain ⟨ids, p, -, hret⟩ := h.bind_cases
  exact ⟨ids.length, hret.of_ret.1⟩

/-- Only row updates lose a lease. -/
lemma LosesLease.isOfUpdate {body : PaymentsTx Reply} {r : Except PaymentsError Reply}
    (h : LosesLease body r) {reply : Reply} {ws : List Write} (hret : body.Returns [] reply ws) :
    reply.isOfUpdate = true := by
  cases h with
  | transition =>
    obtain ⟨row, rfl⟩ := transitionTransaction_returns hret
    rfl
  | complete =>
    obtain ⟨row, rfl⟩ := completeTransaction_returns hret
    rfl
  | update =>
    obtain ⟨n, rfl⟩ := updateStatement_returns hret
    rfl

/-- A transaction that returns a row loses its lease with an error. -/
lemma LosesLease.eq_error {body : PaymentsTx Reply} {r : Except PaymentsError Reply}
    (h : LosesLease body r) (hends : body.Ends r)
    (hrow : ∀ reply ws, body.Returns [] reply ws → ∃ row, reply = .transfer row) :
    r = .error .sagaLeaseLost := by
  cases h with
  | transition => rfl
  | complete => rfl
  | update =>
    obtain ⟨ws, hret⟩ := hends _ rfl
    obtain ⟨row, heq⟩ := hrow _ _ hret
    cases heq

/-! ### The parts of a run -/

/-- A transaction that returns a row, and then that row. -/
lemma stops_row {body : PaymentsTx Reply}
    (hrow : ∀ reply ws, body.Returns [] reply ws → ∃ row, reply = .transfer row) :
    (do let reply ← Prog.run body; rowOf reply : PaymentsProg Transfer).Stops LosesLease
      (.error .sagaLeaseLost) := by
  refine Prog.Stops.bind (.transaction (fun r hends hl => ?_) fun r _ => Prog.stopsOr_done r)
    fun acts reply _ => ?_
  · rw [hl.eq_error hends hrow]
  · cases reply with
    | claimed => exact Prog.stopsOr_done _
    | found => exact Prog.stopsOr_done _
    | affected => exact Prog.stopsOr_done _
    | transfer => exact Prog.stopsOr_done _

lemma stops_transitionClaimed {next : TransferStatus} {patch : Transfer → Transfer} :
    (transitionClaimed transfer o next patch).Stops LosesLease (.error .sagaLeaseLost) :=
  stops_row fun _ _ => transitionTransaction_returns

lemma stops_updateClaimed {patch : Transfer → Transfer} :
    (updateClaimed transfer o patch).Stops LosesLease (.error .sagaLeaseLost) := by
  have hread : (do
      let reply ← Prog.run do return .transfer (← findTransfer transfer.id)
      rowOf reply : PaymentsProg Transfer).Stops LosesLease (.error .sagaLeaseLost) := by
    refine stops_row fun reply ws hret => ?_
    obtain ⟨row, p, -, hret⟩ := hret.bind_cases
    exact ⟨row, hret.of_ret.1⟩
  refine .transaction (fun r hends hl => ?_) fun r hends => ?_
  · generalize hbody : updateStatement transfer o patch = body at hl
    cases hl with
    | transition => rfl
    | complete => rfl
    | @update _ _ _ n hn =>
      rcases n with _ | _ | n
      · rfl
      · exact absurd rfl hn
      · rfl
  · cases r with
    | error e => exact Prog.stopsOr_done _
    | ok reply =>
      obtain ⟨ws, hret⟩ := hends _ rfl
      obtain ⟨n, rfl⟩ := updateStatement_returns hret
      rcases n with _ | _ | n
      · exact Prog.stopsOr_done _
      · exact hread
      · exact Prog.stopsOr_done _

lemma stops_scheduleRetry {failure : LedgerCommandError} :
    (scheduleRetry config transfer o failure now).Stops LosesLease (.error .sagaLeaseLost) :=
  .bind stops_updateClaimed fun _ _ _ => Prog.stopsOr_done _

lemma stops_fail {failure : Option LedgerCommandError} :
    (fail transfer o failure).Stops LosesLease (.error .sagaLeaseLost) :=
  .bind stops_transitionClaimed fun _ _ _ => Prog.stopsOr_done _

lemma stops_handleFailure {e : PaymentsError} :
    (handleFailure config transfer o e now).Stops LosesLease (.error .sagaLeaseLost) := by
  unfold handleFailure
  dsimp only
  split_ifs
  · exact .bind stops_scheduleRetry fun _ _ _ => Prog.stopsOr_done _
  · exact .bind stops_scheduleRetry fun _ _ _ => Prog.stopsOr_done _
  · exact .bind stops_transitionClaimed fun _ _ _ => Prog.stopsOr_done _
  · exact .bind stops_fail fun _ _ _ => Prog.stopsOr_done _

/-- A request to the ledger runs no transaction. -/
lemma stops_request (command : Ledger.Command) (e : PaymentsError) :
    (request config command).Stops LosesLease (.error e) := by
  have hfetch : ∀ f : Except PaymentsError Body → PaymentsProg Body,
      (∀ r, (f r).Stops LosesLease (.error e)) →
      ((fetchOnce config command).attempt f).Stops LosesLease (.error e) := by
    intro f hf
    unfold fetchOnce
    split_ifs
    · exact .call fun _ => hf _
    · exact hf _
  have hattempts : ∀ left lastError,
      (requestAttempts config command left lastError).Stops LosesLease (.error e) := by
    intro left
    induction left with
    | zero => exact fun _ => Prog.stopsOr_done _
    | succ left ih =>
      intro lastError
      refine hfetch _ fun r => ?_
      cases r with
      | ok body => exact .call fun _ => Prog.stopsOr_done _
      | error e' =>
        dsimp only
        split_ifs
        · exact Prog.stopsOr_done _
        · refine .call fun closed => ?_
          split_ifs
          · exact ih _
          · exact Prog.stopsOr_done _
  unfold request
  refine .call fun opened => ?_
  split_ifs
  · exact Prog.stopsOr_done _
  · exact hattempts _ _

lemma stops_resolveReceiver :
    (resolveReceiver config o transfer).Stops LosesLease (.error .sagaLeaseLost) := by
  unfold resolveReceiver
  split_ifs
  · refine .bind (.bind (stops_request _ _) fun _ _ _ => Prog.stopsOr_done _) fun _ _ _ => ?_
    exact stops_updateClaimed
  · exact Prog.stopsOr_done _

lemma stops_markHold : (markHold o transfer).Stops LosesLease (.error .sagaLeaseLost) := by
  unfold markHold
  split_ifs
  · exact Prog.stopsOr_done _
  · exact stops_updateClaimed

lemma stops_holdFunds :
    (holdFunds config o transfer).Stops LosesLease (.error .sagaLeaseLost) :=
  .bind (.bind (stops_request _ _) fun _ _ _ => Prog.stopsOr_done _) fun _ _ _ =>
    stops_transitionClaimed

lemma stops_complete {completion : CompletionDraw} :
    (complete transfer o completion).Stops LosesLease (.error .sagaLeaseLost) := by
  refine .bind (.transaction (fun r hends hl => ?_) fun r _ => Prog.stopsOr_done r)
    fun _ _ _ => Prog.stopsOr_done _
  rw [hl.eq_error hends fun _ _ => completeTransaction_returns]

lemma stops_settleAndComplete {completion : CompletionDraw} :
    (settleAndComplete config o transfer completion).Stops LosesLease (.error .sagaLeaseLost) := by
  refine .bind ?_ fun _ _ _ => stops_complete
  unfold settle
  split
  · exact Prog.stopsOr_done _
  · exact .bind (stops_request _ _) fun _ _ _ => Prog.stopsOr_done _

lemma stops_compensate {completion : CompletionDraw} :
    (compensate config o transfer completion).Stops LosesLease (.error .sagaLeaseLost) := by
  refine .bind (.bind (stops_request _ _) fun _ _ _ => Prog.stopsOr_done _) fun _ _ _ => ?_
  split_ifs
  · exact stops_complete
  · exact stops_fail

/-! ### Runs -/

/-- What a run goes on with after a failure was handled. -/
def afterFailure (config : Config) (draw : RunDraw) (now : Int) (left : Nat) :
    Option Transfer → PaymentsProg Unit
  | none => return ()
  | some transfer => sagaLoop config draw now left transfer

/-- The run is about to run a transaction that records a failure: in its `catch` block, or after its
last step. -/
def RecordsFailure (config : Config) (draw : RunDraw) (now : Int) (p : PaymentsProg Unit) : Prop :=
  (∃ left transfer e acts body k, e ≠ .sagaLeaseLost ∧
    (handleFailure config transfer draw.leaseOwner e now).Exec acts (.transaction body k) ∧
    p = (Prog.transaction body k).bind (afterFailure config draw now left)) ∨
  ∃ transfer acts, (sagaLoop config draw now 0 transfer).Exec acts p

/-- The error of a lost lease leaves the `catch` block. -/
lemma RecordsFailure.stops {body : PaymentsTx Reply} {k : Except PaymentsError Reply → PaymentsProg Unit}
    {r : Except PaymentsError Reply} (h : RecordsFailure config draw now (.transaction body k))
    (hends : body.Ends r) (hl : LosesLease body r) : k r = .done (.error .sagaLeaseLost) := by
  rcases h with ⟨left, transfer, e, acts, body', k', -, hexec, heq⟩ | ⟨transfer, acts, hexec⟩
  · obtain ⟨rfl, rfl⟩ := Prog.transaction.inj heq
    have hk := (stops_handleFailure acts body k' r hexec hends hl).resolve_right id
    change (k' r).bind _ = _
    rw [hk]
    rfl
  · exact (stops_scheduleRetry acts body k r hexec hends hl).resolve_right id

lemma stops_caught {left : Nat} {e : PaymentsError}
    (hnext : ∀ row, (sagaLoop config draw now left row).StopsOr LosesLease (.ok ())
      (RecordsFailure config draw now)) :
    (caught config draw.leaseOwner now (sagaLoop config draw now left) transfer e).StopsOr LosesLease
      (.ok ()) (RecordsFailure config draw now) := by
  unfold caught
  split_ifs with hlost
  · exact Prog.stopsOr_done _
  · intro acts body k r hexec hends hl
    change ((handleFailure config transfer draw.leaseOwner e now).bind
      (afterFailure config draw now left)).Exec acts _ at hexec
    rcases hexec.attempt_transaction with ⟨k', hhandler, rfl⟩ | ⟨before, after, r', rfl, -, hafter⟩
    · exact .inr (.inl ⟨left, transfer, e, acts, body, k', hlost, hhandler, rfl⟩)
    · rcases r' with e' | _ | row
      · cases hafter
      · cases hafter
      · exact hnext row after body k r hafter hends hl

lemma stops_sagaStep {left : Nat} {completion : CompletionDraw}
    (hnext : ∀ row, (sagaLoop config draw now left row).StopsOr LosesLease (.ok ())
      (RecordsFailure config draw now)) :
    (sagaStep config draw.leaseOwner now completion (sagaLoop config draw now left) transfer).StopsOr
      LosesLease (.ok ()) (RecordsFailure config draw now) := by
  have hcaught : ∀ row e, (caught config draw.leaseOwner now (sagaLoop config draw now left) row
      e).StopsOr LosesLease (.ok ()) (RecordsFailure config draw now) :=
    fun row e => stops_caught hnext
  have hlost : ∀ row, caught config draw.leaseOwner now (sagaLoop config draw now left) row
      .sagaLeaseLost = .done (.ok ()) := fun row => if_pos rfl
  unfold sagaStep
  dsimp only
  split
  · exact Prog.stopsOr_done _
  · exact Prog.stopsOr_done _
  · refine .attempt stops_transitionClaimed (hlost _) fun _ r _ => ?_
    cases r with
    | ok row => exact hnext row
    | error e => exact hcaught _ e
  · split
    · exact hcaught _ _
    · refine .attempt stops_resolveReceiver (hlost _) fun _ r _ => ?_
      cases r with
      | error e => exact hcaught _ e
      | ok row₁ =>
        refine .attempt stops_markHold (hlost _) fun _ r _ => ?_
        cases r with
        | error e => exact hcaught _ e
        | ok row₂ =>
          refine .attempt stops_holdFunds (hlost _) fun _ r _ => ?_
          cases r with
          | error e => exact hcaught _ e
          | ok row₃ => exact hnext row₃
  · refine .attempt stops_transitionClaimed (hlost _) fun _ r _ => ?_
    cases r with
    | ok row => exact hnext row
    | error e => exact hcaught _ e
  · refine .attempt stops_settleAndComplete (hlost _) fun _ r _ => ?_
    cases r with
    | ok => exact Prog.stopsOr_done _
    | error e => exact hcaught _ e
  · refine .attempt stops_compensate (hlost _) fun _ r _ => ?_
    cases r with
    | ok => exact Prog.stopsOr_done _
    | error e => exact hcaught _ e

lemma stops_sagaLoop (left : Nat) :
    (sagaLoop config draw now left transfer).StopsOr LosesLease (.ok ())
      (RecordsFailure config draw now) := by
  induction left generalizing transfer with
  | zero => exact fun acts body k r hexec _ _ => .inr (.inr ⟨transfer, acts, hexec⟩)
  | succ left ih => exact stops_sagaStep fun row => ih

/-- Claims update rows, but are no updates that can lose a lease. -/
lemma stops_claim {transferId : String} (r₀ : Except PaymentsError (Option Transfer)) :
    (claim config transferId draw now).Stops LosesLease r₀ := by
  have hclaim : ∀ r, ¬ LosesLease (claimStatement config transferId draw now) r := by
    intro r hl
    have hret : (claimStatement config transferId draw now).Returns [] (.claimed (updateResult [])) [] :=
      .stmt Database.initial rfl (.ret _ _)
    cases hl.isOfUpdate hret
  have hfind : ∀ r, ¬ LosesLease (findClaimed transferId) r := by
    intro r hl
    let row := newTransfer transferId ⟨"", "", "", 0, "", "", none⟩ ⟨0, 0, 0, "", 0, 0⟩ "" "" 0
    let db : Database := { Database.initial with transfers := [row] }
    have hfound : db.transferById transferId = some row := by
      simp [Database.transferById, db, row, newTransfer]
    have hret : (findClaimed transferId).Returns [] (.found row) [] := by
      refine .stmt db rfl ?_
      simp only [view_nil, hfound]
      exact .ret _ _
    cases hl.isOfUpdate hret
  have hread : (do
      let reply ← Prog.run (findClaimed transferId)
      return some (← rowOf reply) : PaymentsProg (Option Transfer)).Stops LosesLease r₀ := by
    refine .transaction (fun r _ hl => absurd hl (hfind r)) fun r _ => ?_
    rcases r with e | reply
    · exact Prog.stopsOr_done _
    · cases reply <;> exact Prog.stopsOr_done _
  refine .transaction (fun r _ hl => absurd hl (hclaim r)) fun r _ => ?_
  rcases r with e | ⟨_ | _⟩ | found | affected | transfer
  · exact Prog.stopsOr_done _
  · exact Prog.stopsOr_done _
  · exact hread
  · exact hread
  · exact hread
  · exact hread

lemma stops_run {transferId : String} :
    (run config transferId draw now).StopsOr LosesLease (.ok ())
      (RecordsFailure config draw now) := by
  refine .attempt (stops_claim (.ok none)) rfl fun _ r _ => ?_
  rcases r with e | _ | transfer
  · exact Prog.stopsOr_done _
  · exact Prog.stopsOr_done _
  · exact stops_sagaLoop 8

/-! ### Lost leases -/

/-- When an act of a run has lost its lease, the run has ended; it returns if and only if the act did
not record a failure. -/
lemma run_lost {transferId : String} {acts : List PaymentsAct} {body : PaymentsTx Reply}
    {r : Except PaymentsError Reply} {p p' : PaymentsProg Unit}
    (h : (run config transferId draw now).Exec acts p) (hact : p.Exec [.transaction body r] p')
    (hl : LosesLease body r) :
    (p' = .done (.ok ()) ↔ ¬ RecordsFailure config draw now p) ∧
      (p' = .done (.error .sagaLeaseLost) ↔ RecordsFailure config draw now p) := by
  obtain ⟨k, rfl, hends, rfl⟩ := hact.of_transaction
  by_cases hrecords : RecordsFailure config draw now (.transaction body k)
  · have hk := hrecords.stops hends hl
    simp [hk, hrecords]
  · have hk := (stops_run acts body k r h hends hl).resolve_right hrecords
    simp [hk, hrecords]

/-- A run of a recovery: its transfer, what it drew and what it did. -/
structure RecoveryRun where
  transferId : String
  draw : RunDraw
  acts : List PaymentsAct

/-- The run has lost its lease while it recorded a failure. -/
def RecoveryRun.RecordsLoss (config : Config) (now : Int) (ran : RecoveryRun) : Prop :=
  ∃ before body r after p p', ran.acts = before ++ .transaction body r :: after ∧
    (run config ran.transferId ran.draw now).Exec before p ∧ p.Exec [.transaction body r] p' ∧
    LosesLease body r ∧ RecordsFailure config ran.draw now p

/-- The last act has lost its lease. -/
def EndsLost (acts : List PaymentsAct) : Prop :=
  ∃ before body r, acts = before ++ [.transaction body r] ∧ LosesLease body r

/-- The runs of the transfers, one after the other, up to the first one that rejects; the first one
has number `n`. -/
inductive Recovers (config : Config) (draw : Nat → RunDraw) (now : Int) :
    Nat → List String → List RecoveryRun → Except PaymentsError Unit → Prop
  | nil {n} : Recovers config draw now n [] [] (.ok ())
  | cons {n id ids acts runs r} : (run config id (draw n) now).Exec acts (.done (.ok ())) →
      Recovers config draw now (n + 1) ids runs r →
      Recovers config draw now n (id :: ids) (⟨id, draw n, acts⟩ :: runs) r
  | stop {n id ids acts e} : (run config id (draw n) now).Exec acts (.done (.error e)) →
      Recovers config draw now n (id :: ids) [⟨id, draw n, acts⟩] (.error e)

section Recovery

variable {draws : Nat → RunDraw} {n : Nat} {ids : List String} {acts : List PaymentsAct}
  {runs : List RecoveryRun} {r : Except PaymentsError Unit}

/-- A run rejects for a lost lease if and only if it has lost it while it recorded a failure. -/
lemma run_endsLost {transferId : String}
    (h : (run config transferId draw now).Exec acts (.done r)) :
    ((∃ e, r = .error e) ∧ EndsLost acts) ↔
      RecoveryRun.RecordsLoss config now ⟨transferId, draw, acts⟩ := by
  constructor
  · rintro ⟨⟨e, rfl⟩, before, body, r', rfl, hl⟩
    obtain ⟨p, hp, hact⟩ := h.split
    have hnot := mt (run_lost hp hact hl).1.mpr (by simp)
    exact ⟨before, body, r', [], p, _, rfl, hp, hact, hl, not_not.mp hnot⟩
  · rintro ⟨before, body, r', after, p, p', heq, hp, hact, hl, hrecords⟩
    obtain rfl := (run_lost hp hact hl).2.mpr hrecords
    dsimp only at heq
    subst heq
    obtain ⟨p₁, hp₁, hrest⟩ := h.split
    obtain rfl := hp₁.unique hp
    change p₁.Exec ([.transaction body r'] ++ after) _ at hrest
    obtain ⟨p₂, hp₂, hafter⟩ := hrest.split
    obtain rfl := hp₂.unique hact
    obtain ⟨rfl, hr⟩ := hafter.of_done
    exact ⟨⟨_, Prog.done.inj hr⟩, before, body, r', rfl, hl⟩

lemma runEach_recovers (h : (runEach config draws now n ids).Exec acts (.done r)) :
    ∃ runs, Recovers config draws now n ids runs r ∧ acts = runs.flatMap (·.acts) := by
  induction ids generalizing n acts with
  | nil =>
    obtain ⟨rfl, hr⟩ := h.of_done
    obtain rfl := Prog.done.inj hr
    exact ⟨[], .nil, rfl⟩
  | cons id ids ih =>
    obtain ⟨before, after, r', rfl, hrun, hrest⟩ := h.attempt_done
    cases r' with
    | ok =>
      obtain ⟨runs, hruns, rfl⟩ := ih hrest
      exact ⟨_, .cons hrun hruns, rfl⟩
    | error e =>
      obtain ⟨rfl, hr⟩ := hrest.of_done
      obtain rfl := Prog.done.inj hr
      exact ⟨_, .stop hrun, by simp⟩

/-- A recovery that rejects has run something. -/
lemma Recovers.ne_nil {e : PaymentsError} (h : Recovers config draws now n ids runs (.error e)) :
    runs ≠ [] := by
  rintro rfl
  cases h

/-- A recovery that does not reject has run every transfer. -/
lemma Recovers.all (h : Recovers config draws now n ids runs r) (hr : r = .ok ()) :
    runs.map (·.transferId) = ids := by
  induction h with
  | nil => rfl
  | cons _ _ ih => rw [List.map_cons, ih hr]
  | stop => cases hr

/-- A recovery rejects for a lost lease if and only if one of its runs has lost its lease while it
recorded a failure. -/
lemma Recovers.lost_iff (h : Recovers config draws now n ids runs r) :
    (∃ e ran, r = .error e ∧ runs.getLast? = some ran ∧ EndsLost ran.acts) ↔
      ∃ ran ∈ runs, ran.RecordsLoss config now := by
  induction h with
  | nil => simp
  | @cons n id ids acts runs r hrun hrest ih =>
    have hfirst : ¬ RecoveryRun.RecordsLoss config now ⟨id, draws n, acts⟩ := by
      rw [← run_endsLost hrun]
      rintro ⟨⟨e, he⟩, -⟩
      cases he
    rw [List.exists_mem_cons_iff, or_iff_right hfirst, ← ih]
    refine exists₂_congr fun e ran => and_congr_right ?_
    rintro rfl
    obtain ⟨next, later, rfl⟩ := List.exists_cons_of_ne_nil hrest.ne_nil
    rw [List.getLast?_cons_cons]
  | @stop n id ids acts e hrun =>
    rw [List.exists_mem_cons_iff, ← run_endsLost hrun]
    simp

/-- A recovery selects transfers, and runs them. -/
lemma recoverDue_recovers {limit : Nat} {count : Except PaymentsError Nat}
    (h : (recoverDue config now limit draws).Exec acts (.done count)) :
    (∃ e, acts = [.query (.error e)]) ∨ ∃ db runs r, acts = .query (.ok db) :: runs.flatMap (·.acts) ∧
      Recovers config draws now 0 (db.due now limit) runs r ∧
      count = r.map fun _ => (db.due now limit).length := by
  obtain ⟨before, after, ids, rfl, hread, h⟩ := h.attempt_done
  cases hread with
  | @query _ v _ _ hread =>
    obtain ⟨rfl, hids⟩ := hread.of_done
    cases v with
    | error e =>
      obtain rfl := Prog.done.inj hids
      obtain ⟨rfl, -⟩ := h.of_done
      exact .inl ⟨e, rfl⟩
    | ok db =>
      obtain rfl := Prog.done.inj hids
      obtain ⟨before, after, r, rfl, hruns, hcount⟩ := h.attempt_done
      obtain ⟨runs, hrecovers, rfl⟩ := runEach_recovers hruns
      refine .inr ⟨db, runs, r, ?_, hrecovers, ?_⟩
      · cases r with
        | ok => obtain ⟨rfl, -⟩ := hcount.of_done; simp
        | error e => obtain ⟨rfl, -⟩ := hcount.of_done; simp
      · cases r with
        | ok => exact Prog.done.inj hcount.of_done.2
        | error e => exact Prog.done.inj hcount.of_done.2

end Recovery

/-- Every thread executes the program that it has started.  After an act that has lost its lease, a
run has ended, and it has returned if and only if the act did not record a failure.  A recovery that
does not reject has run every transfer that it selected, and it rejects for a lost lease if and only
if one of its runs has lost its lease while it recorded a failure. -/
theorem lost_lease_ends_run (setting : Setting) (users : List Ledger.User) {s : System}
    (hs : Reaches (payments setting) (Sys.init (.initial users)) s) :
    s.Executing (startedPrograms setting.config) ∧
    (∀ transferId draw now acts body r p p', (run setting.config transferId draw now).Exec acts p →
      p.Exec [.transaction body r] p' → LosesLease body r →
      (p' = .done (.ok ()) ↔ ¬ RecordsFailure setting.config draw now p)) ∧
    ∀ now limit draws acts count, (recoverDue setting.config now limit draws).Exec acts (.done count) →
      (∃ e, acts = [.query (.error e)]) ∨
      ∃ db runs r, acts = .query (.ok db) :: runs.flatMap (·.acts) ∧
        Recovers setting.config draws now 0 (db.due now limit) runs r ∧
        count = (r.map fun _ => (db.due now limit).length) ∧
        (r = .ok () → runs.map (·.transferId) = db.due now limit) ∧
        ((∃ e ran, r = .error e ∧ runs.getLast? = some ran ∧ EndsLost ran.acts) ↔
          ∃ ran ∈ runs, ran.RecordsLoss setting.config now) := by
  refine ⟨reaches_executing hs, fun transferId draw now acts body r p p' hp hact hl => ?_,
    fun now limit draws acts count h => ?_⟩
  · exact (run_lost hp hact hl).1
  · rcases recoverDue_recovers h with herror | ⟨db, runs, r, hacts, hrecovers, hcount⟩
    · exact .inl herror
    · exact .inr ⟨db, runs, r, hacts, hrecovers, hcount, hrecovers.all, hrecovers.lost_iff⟩

/-- There is a second transfer, and a recovery has sent the first request for `t`; then its lease
expires and another worker takes it. -/
def slowRecovery : List Action :=
  opening ++ [.start 1 (.create payment (some "other-key") "ann"), .start 2 (.recoverDue 5 10),
    .breaker 2 false, .send 2, .start 3 (.run "t" 40000)]

/-- The answer comes after the lease was lost: the recovery goes on with the second transfer. -/
theorem lost_lease_ends_run_t : ∃ s,
    Reaches (payments scripted) (Sys.init (.initial Ledger.annAndBob)) s ∧
      (s.world.db.transfers.any fun row =>
        row.id = "t-1" ∧ row.leaseOwner = some (ownerName 2 1)) = true ∧
      s.Executing (startedPrograms scripted.config) := by
  obtain ⟨s, hs, hp⟩ := scriptedRun.exists_reaches Ledger.annAndBob
    (slowRecovery ++ [.deliver 3 0, .respond 2 3 false, .breaker 2 true])
    (fun s => s.world.db.transfers.any fun row =>
      row.id = "t-1" ∧ row.leaseOwner = some (ownerName 2 1)) (by decide +kernel)
  exact ⟨s, hs, hp, (lost_lease_ends_run scripted _ hs).1⟩

/-- Thread `i` has rejected because its lease was lost. -/
def rejectedLost (s : System) (i : Nat) : Bool :=
  match s.threads i with
  | .run (.done (.error .sagaLeaseLost)) => true
  | _ => false

/-- The thread executes `recoverDue`. -/
def isRecovery (s : System) (i : Nat) : Bool :=
  (s.world.jobs i).any fun job =>
    match job.command with
    | .recoverDue .. => true
    | _ => false

/-- The attempts of the request time out after the lease was lost: the recovery rejects, and the
second transfer, which is due, has never been run. -/
theorem recovery_abandoned : ∃ s,
    Reaches (payments scripted) (Sys.init (.initial Ledger.annAndBob)) s ∧
      isRecovery s 2 = true ∧ rejectedLost s 2 = true ∧ "t-1" ∈ s.world.db.due 5 10 ∧
      (versionsOf "t-1" s.world.log).length = 1 := by
  obtain ⟨s, hs, hp⟩ := scriptedRun.exists_reaches Ledger.annAndBob (slowRecovery ++ timingOut 2)
    (fun s => isRecovery s 2 && rejectedLost s 2 && decide ("t-1" ∈ s.world.db.due 5 10) &&
      decide ((versionsOf "t-1" s.world.log).length = 1)) (by decide +kernel)
  simp only [Bool.and_eq_true, decide_eq_true_eq] at hp
  exact ⟨s, hs, hp.1.1.1, hp.1.1.2, hp.1.2, hp.2⟩

end Payments

end PeerLedger
