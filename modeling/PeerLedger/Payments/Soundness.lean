import PeerLedger.Payments.RequestRules

/-!
# Every program of the payments service keeps the protocol

`payments_sound` puts the rules of the programs together.  `reaches_invariant` is the way to the
results about runs of both services: a property of the world that commits, requests, starts and the
steps of the ledger keep holds in every reachable state.
-/

namespace PeerLedger

namespace Payments

open Transactions

variable {setting : Setting} {w w' : World} {i : Nat} {job : Job}

/-! ### Soundness -/

/-- What a program has established when it returns stays so. -/
lemma final_of_answered {result : Result} (hjob : w.jobs i = some job)
    (h : Answered setting.config w.db job.command result) :
    (paymentsProtocol setting).final (payments setting) i w (.ok result) := by
  refine fun w' hw' => ⟨fun _ heq => ?_, fun _ _ heq => nomatch heq⟩
  obtain rfl := Except.ok.inj heq
  have ha := later_ahead hw'
  refine ⟨job, ha.jobs i job hjob, ?_⟩
  cases result with
  | view view => exact Granted.extends h ha.extends
  | paid bill view => exact Granted.extends h ha.extends
  | bill => trivial
  | unit => trivial
  | count => trivial

/-- A run that rejects still may. -/
lemma final_rejected {e : PaymentsError} (hjob : w.jobs i = some job)
    (h : e = .entityNotFound "Transfer" ∨ MayReject setting w i job) :
    (paymentsProtocol setting).final (payments setting) i w (.error e) := by
  refine fun w' hw' => ⟨fun _ heq => (nomatch heq), fun e' job' heq hjob' _ => ?_⟩
  have ha := later_ahead hw'
  obtain rfl := Except.error.inj heq
  obtain rfl := Option.some.inj ((ha.jobs i job hjob).symm.trans hjob')
  exact h.imp_right fun hreject => hreject.ahead ha

/-- The other programs may reject. -/
lemma final_error {e : PaymentsError} (hjob : w.jobs i = some job)
    (hrun : job.command.isRun = false) :
    (paymentsProtocol setting).final (payments setting) i w (.error e) := by
  refine fun w' hw' => ⟨fun _ heq => (nomatch heq), fun e' job' _ hjob' hrun' => ?_⟩
  obtain rfl := Option.some.inj (((later_ahead hw').jobs i job hjob).symm.trans hjob')
  rw [hrun] at hrun'
  cases hrun'

/-- A thread that has just started. -/
lemma Inv.serving {command : Command} {draw : Draw} (h : Inv setting w) (hnone : w.jobs i = none)
    (hdraw : setting.draws i draw)
    (h' : Inv setting { w with jobs := Function.update w.jobs i (some ⟨command, draw⟩) }) :
    Serving setting { w with jobs := Function.update w.jobs i (some ⟨command, draw⟩) } i
      ⟨command, draw⟩ 0 := by
  refine ⟨h', Function.update_self _ _ _, fun hd m _ row hrow heq => ?_⟩
  obtain ⟨j, job, n, hj, howner⟩ := h.owners row hrow _ heq
  have hij := (hd j i _ _ n m (h.draws j job hj) hdraw howner).1
  rw [hij, hnone] at hj
  cases hj

/-- The program of every command meets the protocol. -/
lemma wp_program {command : Command} {draw : Draw} (h : Serving setting w i ⟨command, draw⟩ 0) :
    (command.program setting.config draw).wp (payments setting) (paymentsProtocol setting) i
      ((paymentsProtocol setting).final (payments setting) i) w := by
  cases command with
  | create dto header senderUserId =>
    rw [Command.program, Prog.bind_eq, Prog.wp_bind, create, Prog.bind_eq]
    cases hkey : normalizeIdempotencyKey setting.config header with
    | error e => exact final_error h.job_eq rfl
    | ok key =>
      rw [Prog.wp_bind]
      change ((Prog.done _).bind _ : PaymentsProg TransferView).wp _ _ _ _ _
      cases hcanonical : canonicalRequest setting.config dto senderUserId none with
      | error e => exact final_error h.job_eq rfl
      | ok canonical =>
        have hasks : Asks setting.config w.db (.create dto header senderUserId) canonical key :=
          .create hkey hcanonical
        refine wp_createCanonical h (fun w' e h' _ => final_error h'.job_eq rfl) hasks
          fun w' view h' he hr => ?_
        exact final_of_answered h'.job_eq ⟨canonical, key, hasks.extends he, hr⟩
  | createSplitSharePayment input header =>
    rw [Command.program, Prog.bind_eq, Prog.wp_bind, createSplitSharePayment, Prog.bind_eq]
    cases hkey : normalizeIdempotencyKey setting.config header with
    | error e => exact final_error h.job_eq rfl
    | ok key =>
      have hasks : Asks setting.config w.db (.createSplitSharePayment input header)
          (input.canonical setting.config) key := .sharePayment hkey
      refine wp_createCanonical h (fun w' e h' _ => final_error h'.job_eq rfl) hasks
        fun w' view h' he hr => ?_
      exact final_of_answered h'.job_eq ⟨_, key, hasks.extends he, hr⟩
  | createBill dto creatorUserId creatorReference =>
    have hcreate := wp_createBill h rfl fun _ _ h' => h'
    rw [Command.program, Prog.bind_eq, Prog.wp_bind]
    refine Prog.wp_mono (fun w' r h' => ?_) hcreate
    cases r with
    | error e => exact final_error h'.job_eq rfl
    | ok view => exact final_of_answered h'.job_eq trivial
  | payShare billId shareId userId walletId header now =>
    rw [Command.program, Prog.bind_eq, Prog.wp_bind]
    have hpay := wp_payShare h rfl (Φ := fun w' r =>
      w'.jobs i = some ⟨.payShare billId shareId userId walletId header now, draw⟩ ∧
        ∀ bill view, r = .ok (bill, view) →
          Granted setting.config w'.db (.payShare billId shareId userId walletId header now) view.id)
      (fun w' bill view hjob hgranted => ⟨hjob, fun _ _ heq => ?_⟩)
      fun w' e hjob => ⟨hjob, fun _ _ heq => by cases heq⟩
    · refine Prog.wp_mono (fun w' r hr => ?_) hpay
      cases r with
      | error e => exact final_error hr.1 rfl
      | ok result => exact final_of_answered hr.1 (hr.2 _ _ rfl)
    · obtain ⟨rfl, rfl⟩ := Prod.mk.inj (Except.ok.inj heq)
      exact hgranted
  | run transferId now =>
    rw [Command.program, Prog.bind_eq, Prog.wp_bind]
    refine Prog.wp_mono (fun w' r h' => ?_) (wp_run h rfl rfl)
    cases r with
    | error e => exact final_rejected h'.1.job_eq (h'.2 e rfl)
    | ok => exact final_of_answered h'.1.job_eq trivial
  | recoverDue now limit =>
    rw [Command.program, recoverDue, Prog.bind_eq, Prog.wp_bind, Prog.bind_eq, Prog.wp_bind,
      Prog.wp_read]
    refine fun w₁ hw₁ => ⟨?_, fun e he => ?_⟩
    · have h₁ := h.later hw₁
      dsimp only
      rw [Prog.bind_eq, Prog.wp_bind]
      refine Prog.wp_mono (fun w' r hr => ?_) (wp_runEach _ h₁ rfl rfl)
      cases r with
      | error e => exact final_rejected hr.1 (hr.2 e rfl)
      | ok => exact final_of_answered hr.1 trivial
    · exact final_rejected (h.later hw₁).job_eq (.inr (.of_fails he))

/-- Every program of the payments service meets the protocol. -/
theorem payments_sound (setting : Setting) : (paymentsProtocol setting).Sound (payments setting) where
  inv_env _ _ h := h.ledgerMoves
  inv_commit _ _ h _ := h.commit
  inv_issue _ _ _ _ _ h _ := h.issue
  inv_start _ _ _ _ h := h.start
  start_wp w i p w' hinv hstart := by
    have hinv' := hinv.start hstart
    obtain ⟨hnone, command, draw, -, hdraw, rfl, rfl⟩ := hstart
    exact wp_program (Inv.serving hinv hnone hdraw hinv')

/-! ### Runs of both services -/

/-- The world before any request is in order. -/
lemma Inv.initial (setting : Setting) (users : List Ledger.User) :
    Inv setting (World.initial users) where
  tables := .initial
  ledger := Ledger.reaches_ok .refl
  sent _ h := nomatch h
  origin _ _ h := nomatch h
  reached _ h := nomatch h
  owners _ h := nomatch h
  draws _ _ h := nomatch h

/-- Every reachable state is in order. -/
lemma reaches_ok {users : List Ledger.User} {s : System}
    (hs : Reaches (payments setting) (Sys.init (.initial users)) s) :
    s.Ok (payments setting) (paymentsProtocol setting) :=
  (Sys.Ok.init (Inv.initial setting users)).reaches (payments_sound setting) hs

/-- What a step of the ledger does to the world. -/
inductive LedgerChange (setting : Setting) (w : World) : World → Prop
  /-- No transaction of the ledger ends. -/
  | same {l} : l.world = w.ledger.world → LedgerChange setting w { w with ledger := l }
  | commit {l c job} : setting.ledger.admits w.ledger.world c →
      w.ledger.world.jobs c.thread = some job → ¬ w.ledger.world.Committed c.thread →
      Ledger.Effect job.draw job.startDb w.ledger.world.db job.command c.writes →
      l.world = w.ledger.world.commit c → LedgerChange setting w { w with ledger := l }
  | owner {i command draw} : isPublic command → setting.owners command → setting.allows w command →
      CanStart setting w.ledger i draw →
      LedgerChange setting w { w with ledger := startLedger w.ledger i command draw }
  | deliver {i n request draw} : w.sent[n]? = some request → CanStart setting w.ledger i draw →
      LedgerChange setting w
        { w with
          ledger := startLedger w.ledger i request.command draw
          origin := Function.update w.origin i (some n) }

lemma Inv.ledgerChange (hinv : Inv setting w) (h : LedgerMoves setting w w') :
    LedgerChange setting w w' := by
  cases h with
  | move hstep =>
    rcases Ledger.closed_world_cases hinv.ledger hstep with hsame | ⟨c, job, hadm, hjob, hcom, he, hw⟩
    · exact .same hsame
    · exact .commit hadm hjob hcom he hw
  | owner hpublic howner hallowed hcan => exact .owner hpublic howner hallowed hcan
  | deliver hrequest hcan => exact .deliver hrequest hcan

/-- The world after a request was sent. -/
def World.send (w : World) (command : Ledger.Command) : World :=
  { w with sent := w.sent ++ [⟨command, w.ledger.world.db⟩] }

/-- The world after a thread has started a command. -/
def World.start (w : World) (i : Nat) (command : Command) (draw : Draw) : World :=
  { w with jobs := Function.update w.jobs i (some ⟨command, draw⟩) }

/-- A property of the world that commits, requests, starts and the ledger keep holds along every
run. -/
lemma reaches_invariant {P : World → Prop} {s s' : System}
    (hok : s.Ok (payments setting) (paymentsProtocol setting)) (h0 : P s.world)
    (hcommit : ∀ w c job, Inv setting w → P w → (payments setting).Admits w c →
      w.jobs c.thread = some job → Move setting w job c.body c.writes →
      ClaimLeases setting w job c → P ((payments setting).commit w c))
    (hsend : ∀ w command, Inv setting w → P w → Sendable w command → P (w.send command))
    (hstart : ∀ w i command draw, Inv setting w → P w → w.jobs i = none → setting.serves command →
      setting.draws i draw → P (w.start i command draw))
    (hledger : ∀ w w', Inv setting w → P w → LedgerChange setting w w' → P w')
    (hs : Reaches (payments setting) s s') : P s'.world := by
  refine Sys.Ok.invariant (payments_sound setting) (fun w c hinv hw hadm hguar => ?_)
    (fun w i q t w' hinv hw hcall hissue => ?_) (fun w i p w' hinv hw hst => ?_)
    (fun w w' hinv hw henv => hledger w w' hinv hw (Inv.ledgerChange hinv henv)) hok h0 hs
  · obtain ⟨job, hjob, hmove, hlease⟩ := hguar
    exact hcommit w c job hinv hw hadm hjob hmove hlease
  · cases q with
    | fetch command =>
      obtain ⟨-, rfl⟩ := hissue
      exact hsend w command hinv hw hcall.1
    | circuitOpen => obtain rfl : w' = w := hissue; exact hw
    | recordSuccess => obtain rfl : w' = w := hissue; exact hw
    | recordFailure => obtain rfl : w' = w := hissue; exact hw
  · obtain ⟨hnone, command, draw, hserves, hdraw, -, rfl⟩ := hst
    exact hstart w i command draw hinv hw hnone hserves hdraw

/-! ### The log of the commits -/

/-- The contents of the database after some commits. -/
def Database.after (db : Database) (log : List PaymentsCommit) : Database :=
  log.foldl (fun db c => view db c.writes) db

lemma Database.after_concat (db : Database) (log : List PaymentsCommit) (c : PaymentsCommit) :
    db.after (log ++ [c]) = view (db.after log) c.writes := by
  simp [Database.after]

/-- A place in a log with one more commit is the last one, or a place in the log before. -/
lemma split_concat {log before after : List PaymentsCommit} {c c' : PaymentsCommit}
    (h : log ++ [c] = before ++ c' :: after) :
    (before = log ∧ c' = c ∧ after = []) ∨ ∃ after', log = before ++ c' :: after' := by
  rcases List.eq_nil_or_concat after with rfl | ⟨after', last, rfl⟩
  · obtain ⟨rfl, hlast⟩ := List.append_inj' h rfl
    exact .inl ⟨rfl, (List.singleton_inj.mp hlast).symm, rfl⟩
  · have h' : log ++ [c] = (before ++ c' :: after') ++ [last] := by simpa using h
    exact .inr ⟨after', (List.append_inj' h' rfl).1⟩

lemma savedRow_mem {ws : List Write} {row : Transfer} (h : savedRow ws = some row) :
    Write.saveTransfer row ∈ ws := by
  obtain ⟨write, hmem, hwrite⟩ := List.exists_of_findSome?_eq_some h
  cases write with
  | saveTransfer r => exact Option.some.inj hwrite ▸ hmem
  | _ => cases hwrite

/-- A move saves at most one row. -/
lemma Move.savedRow_eq {body : PaymentsTx Reply} {ws : List Write} {row : Transfer}
    (h : Move setting w job body ws) (hmem : Write.saveTransfer row ∈ ws) :
    savedRow ws = some row := by
  cases h with
  | none => cases hmem
  | insert => simp at hmem
  | @save _ row' =>
    obtain rfl : row = row' := by simpa using hmem
    rfl
  | createBill => simp [billWrites] at hmem

/-- The contents are those that the commits have left. -/
lemma reaches_db {users : List Ledger.User} {s : System}
    (hs : Reaches (payments setting) (Sys.init (.initial users)) s) :
    s.world.db = Database.initial.after s.world.log := by
  refine reaches_invariant (P := fun w => w.db = Database.initial.after w.log) (reaches_ok .refl)
    rfl (fun w c _ _ hw _ _ _ _ => ?_) (fun _ _ _ hw _ => hw) (fun _ _ _ _ _ hw _ _ _ => hw)
    (fun w w' _ hw hledger => ?_) hs
  · change view w.db c.writes = Database.initial.after (w.log ++ [c])
    rw [Database.after_concat, hw]
  · cases hledger <;> exact hw

/-- What every commit does to the contents that it finds. -/
lemma reaches_commits {P : Job → Database → PaymentsCommit → Prop} {users : List Ledger.User}
    {s : System} (hP : ∀ w c job, Inv setting w → (payments setting).Admits w c →
      w.jobs c.thread = some job → Move setting w job c.body c.writes →
      ClaimLeases setting w job c → P job w.db c)
    (hs : Reaches (payments setting) (Sys.init (.initial users)) s) :
    ∀ before c after, s.world.log = before ++ c :: after →
      ∃ job, s.world.jobs c.thread = some job ∧ P job (Database.initial.after before) c := by
  refine (reaches_invariant (P := fun w : World => w.db = Database.initial.after w.log ∧
    ∀ before (c : PaymentsCommit) after, w.log = before ++ c :: after →
      ∃ job, w.jobs c.thread = some job ∧ P job (Database.initial.after before) c)
    (reaches_ok .refl) ⟨rfl, fun _ _ _ hlog => by simp [Sys.init, World.initial] at hlog⟩
    (fun w c job hinv hw hadm hjob hmove hlease => ⟨?_, fun before c' after hlog => ?_⟩)
    (fun _ _ _ hw _ => hw) (fun w i command draw _ hw hnone _ _ => ⟨hw.1, ?_⟩)
    (fun w w' _ hw hledger => ?_) hs).2
  · change view w.db c.writes = Database.initial.after (w.log ++ [c])
    rw [Database.after_concat, ← hw.1]
  · rcases split_concat hlog with ⟨rfl, rfl, -⟩ | ⟨after', hlog'⟩
    · exact ⟨job, hjob, hw.1 ▸ hP w c' job hinv hadm hjob hmove hlease⟩
    · exact hw.2 before c' after' hlog'
  · intro before c after hlog
    obtain ⟨job, hjob, hjobP⟩ := hw.2 before c after hlog
    have hne : c.thread ≠ i := fun heq => by rw [heq, hnone] at hjob; cases hjob
    exact ⟨job, (Function.update_of_ne hne _ _).trans hjob, hjobP⟩
  · cases hledger <;> exact hw

end Payments

end PeerLedger
