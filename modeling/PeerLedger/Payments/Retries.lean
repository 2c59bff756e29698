import PeerLedger.Transactions.Executions
import PeerLedger.Payments.CircuitBreaker

/-!
# Retries of the saga

`scheduleRetry` counts the retries of a status in the row, so that the workers share the count.
`retries_bounded` follows the persisted versions of every transfer: the count stays below
`SAGA_MAX_STEP_ATTEMPTS`, it is set back only when the status changes or the receiver becomes known,
and without such progress no status but `Compensating` has more than `SAGA_MAX_STEP_ATTEMPTS - 1`
retries.  Every step of a run goes up (`TransferStatus.rank`), so that the retry after its eight steps
is never scheduled.

A validation whose response loses its body breaks this: the update that should write the receiver
sets the count back and leaves the receiver unknown (`retries_set_back`).
-/

namespace PeerLedger

namespace Payments

open Transactions

variable {setting : Setting} {w : World} {job : Job}

/-- The runs in which no response of a validation loses its body. -/
def Setting.keepingValidations (setting : Setting) : Setting :=
  { setting with
    loses := fun command reply => setting.loses command reply ∧
      ∀ dto, command ≠ .validateTransfer dto }

/-- The versions of transfer `t` in the order in which they were committed. -/
def versionsOf (t : String) (log : List PaymentsCommit) : List Transfer :=
  log.flatMap fun c => writtenRows t c.writes

/-- Another status, or a receiver that has become known. -/
def Progress (row row' : Transfer) : Prop :=
  row'.status ≠ row.status ∨ (row.receiverWalletId = none ∧ row'.receiverWalletId ≠ none)

/-- The number of retries that successive versions have scheduled. -/
def retries : List Transfer → Nat
  | row :: row' :: rest =>
    (if row.retryCount < row'.retryCount then 1 else 0) + retries (row' :: rest)
  | _ => 0

/-- The statuses with a limited number of attempts. -/
def TransferStatus.isLimited (status : TransferStatus) : Bool :=
  status ∈ [pending, validating, fundsHeld, processing]

/-- The retries of all transfers, as they are persisted. -/
structure BoundedRetries (config : Config) (s : System) : Prop where
  bound : ∀ row ∈ s.world.db.transfers, row.status.isLimited = true →
    row.retryCount ≤ config.sagaMaxStepAttempts - 1
  /-- The last version of a transfer is its row. -/
  last : ∀ t, (versionsOf t s.world.log).getLast? = s.world.db.transferById t
  /-- The count is set back only with progress. -/
  reset : ∀ t row row', [row, row'] <:+: versionsOf t s.world.log →
    row'.retryCount < row.retryCount → Progress row row'
  /-- Without progress, only a transfer that is being compensated has more retries. -/
  limited : ∀ t versions, versions <:+: versionsOf t s.world.log →
    versions.IsChain (fun row row' => ¬ Progress row row') →
    (∀ row ∈ versions, row.status ≠ .compensating) →
    retries versions ≤ config.sagaMaxStepAttempts - 1

/-! ### Steps of a version -/

/-- `row'` is the version after `row`. -/
def NextVersion (setting : Setting) (row row' : Transfer) : Prop :=
  row.status.isTerminal = false ∧ RetryStep setting row row'

lemma RowStep.retryStep {body : PaymentsTx Reply} {row row' : Transfer}
    (h : RowStep setting w job body row row') : RetryStep setting row row' := by
  cases h with
  | lease => exact .kept rfl rfl
  | advance hadv => exact hadv.retried

/-- The count of a version whose status has a limited number of attempts. -/
def WithinLimit (config : Config) (row : Transfer) : Prop :=
  row.status.isLimited = true → row.retryCount < config.sagaMaxStepAttempts

/-- Every step keeps within the limit. -/
lemma RetryStep.withinLimit {row row' : Transfer} (h : RetryStep setting row row')
    (hM : 1 ≤ setting.config.sagaMaxStepAttempts) (hrow : WithinLimit setting.config row) :
    WithinLimit setting.config row' := by
  intro hlimited
  cases h with
  | moved hnext hover =>
    have hlive : row'.status.isTerminal = false := by
      revert hlimited
      cases row'.status <;> decide
    rw [hover hlive]
    exact hM
  | kept hstatus hcount =>
    rw [hcount]
    exact hrow (hstatus ▸ hlimited)
  | retried hstatus hleft hcount =>
    rw [hcount]
    refine hleft.resolve_left fun hcompensating => ?_
    rw [hstatus, hcompensating] at hlimited
    cases hlimited
  | resolved _ _ _ hcount =>
    rw [hcount]
    exact hM

/-- The count goes down only with progress, when no response of a validation loses its body. -/
lemma RetryStep.progress {row row' : Transfer}
    (h : RetryStep setting.keepingValidations row row') (hless : row'.retryCount < row.retryCount) :
    Progress row row' := by
  cases h with
  | moved hnext _ =>
    refine .inl fun heq => ?_
    have hlt := TransferStatus.rank_lt hnext
    rw [heq] at hlt
    exact lt_irrefl _ hlt
  | kept _ hcount => omega
  | retried _ _ hcount => omega
  | resolved _ hnone hknown _ =>
    refine .inr ⟨hnone, hknown.resolve_right ?_⟩
    rintro ⟨id, -, hkeeps⟩
    exact hkeeps _ rfl

/-- Without progress, the count is kept or goes up by one. -/
lemma RetryStep.count_cases {row row' : Transfer}
    (h : RetryStep setting.keepingValidations row row') (hno : ¬ Progress row row') :
    row'.status = row.status ∧
      row'.retryCount = row.retryCount + if row.retryCount < row'.retryCount then 1 else 0 := by
  have hle : row.retryCount ≤ row'.retryCount := by
    by_contra hlt
    exact hno (h.progress (Nat.lt_of_not_le hlt))
  have hstatus : row'.status = row.status := by
    by_contra hne
    exact hno (.inl hne)
  refine ⟨hstatus, ?_⟩
  cases h with
  | moved hnext _ =>
    have hlt := TransferStatus.rank_lt hnext
    rw [hstatus] at hlt
    exact absurd hlt (lt_irrefl _)
  | kept _ hcount => simp [hcount]
  | retried _ _ hcount => simp [hcount]
  | resolved _ _ _ hcount =>
    rw [if_neg (by omega)]
    omega

/-! ### Successive versions -/

section Versions

variable {versions : List Transfer}

/-- Without progress, every retry is still counted in the end. -/
lemma retries_eq {first : Transfer}
    (hchain : (first :: versions).IsChain (NextVersion setting.keepingValidations))
    (hno : (first :: versions).IsChain fun row row' => ¬ Progress row row') :
    ∃ last ∈ first :: versions, last.status = first.status ∧
      last.retryCount = first.retryCount + retries (first :: versions) := by
  induction versions generalizing first with
  | nil => exact ⟨first, List.mem_singleton_self first, rfl, rfl⟩
  | cons next versions ih =>
    rw [List.isChain_cons_cons] at hchain hno
    obtain ⟨hstatus, hcount⟩ := hchain.1.2.count_cases hno.1
    obtain ⟨last, hmem, hlast, heq⟩ := ih hchain.2 hno.2
    refine ⟨last, List.mem_cons_of_mem _ hmem, hlast.trans hstatus, ?_⟩
    rw [heq, hcount, retries]
    split_ifs <;> omega

/-- A transfer that has ended has no further version. -/
lemma retries_ended {first : Transfer} (hended : first.status.isTerminal = true)
    (hchain : (first :: versions).IsChain (NextVersion setting)) :
    retries (first :: versions) = 0 := by
  cases versions with
  | nil => rfl
  | cons next versions =>
    rw [List.isChain_cons_cons] at hchain
    rw [hchain.1.1] at hended
    cases hended

/-- Versions without progress have a limited number of retries, compensations apart. -/
lemma retries_le (hchain : versions.IsChain (NextVersion setting.keepingValidations))
    (hwithin : ∀ row ∈ versions, WithinLimit setting.config row)
    (hno : versions.IsChain fun row row' => ¬ Progress row row')
    (hcompensating : ∀ row ∈ versions, row.status ≠ .compensating) :
    retries versions ≤ setting.config.sagaMaxStepAttempts - 1 := by
  cases versions with
  | nil => exact Nat.zero_le _
  | cons first versions =>
    by_cases hended : first.status.isTerminal = true
    · rw [retries_ended hended hchain]
      exact Nat.zero_le _
    · have hne := hcompensating first List.mem_cons_self
      have hlimited : first.status.isLimited = true := by
        revert hended hne
        cases first.status <;> decide
      obtain ⟨last, hmem, hstatus, hcount⟩ := retries_eq hchain hno
      have hbound := hwithin last hmem (hstatus ▸ hlimited)
      omega

end Versions

/-! ### The versions in the log -/

/-- What the log says about the versions of transfer `t`. -/
structure Versioned (setting : Setting) (w : World) (t : String) : Prop where
  chain : (versionsOf t w.log).IsChain (NextVersion setting)
  within : ∀ row ∈ versionsOf t w.log, WithinLimit setting.config row
  last : (versionsOf t w.log).getLast? = w.db.transferById t

/-- A new transfer has no retries. -/
lemma IsNew.retryCount_eq {config : Config} {db : Database} {row : Transfer}
    (h : IsNew config db job row) : row.retryCount = 0 := by
  obtain ⟨_, _, _, -, -, rfl⟩ := h
  rfl

/-- The row of a transfer that was not there before is new. -/
lemma isNew_of_unborn {body : PaymentsTx Reply} {ws : List Write} {t : String} {row : Transfer}
    (h : Move setting w job body ws) (hnone : w.db.transferById t = none)
    (hrow : (view w.db ws).transferById t = some row) : IsNew setting.config w.db job row := by
  have hno : ∀ old ∈ w.db.transfers, old.id ≠ t := by
    rw [Database.transferById, List.find?_eq_none] at hnone
    intro old hold heq
    exact hnone old hold (by simpa using heq)
  obtain ⟨hmem, hid⟩ := transferById_some hrow
  rcases h.row_cases hmem with hold | ⟨-, hnew, -⟩ | ⟨old, hold, -, hstep⟩
  · exact absurd hid (hno row hold)
  · exact hnew
  · exact absurd (hstep.evolves.id_eq.symm.trans hid) (hno old hold)

/-- The versions after a commit. -/
lemma Versioned.commit {c : PaymentsCommit} {t : String} (h : Versioned setting w t)
    (hM : 1 ≤ setting.config.sagaMaxStepAttempts) (hinv : Inv setting w)
    (hmove : Move setting w job c.body c.writes) :
    Versioned setting ((payments setting).commit w c) t := by
  have hlog : versionsOf t ((payments setting).commit w c).log =
      versionsOf t w.log ++ writtenRows t c.writes := by
    change versionsOf t (w.log ++ [c]) = _
    simp [versionsOf, List.flatMap_append]
  have hdb : ((payments setting).commit w c).db = view w.db c.writes := rfl
  rcases hmove.transfer_cases hinv.tables t with ⟨hnil, hsame⟩ | ⟨row', hone, hnew, hcases⟩
  · -- the commit is about other rows
    rw [hnil, List.append_nil] at hlog
    exact ⟨hlog ▸ h.chain, hlog ▸ h.within, by rw [hlog, hdb, hsame, h.last]⟩
  · rw [hone] at hlog
    -- the version before, if there is one
    have hstep : ∀ row, (versionsOf t w.log).getLast? = some row →
        row ∈ versionsOf t w.log ∧ NextVersion setting row row' := by
      intro row hrow
      refine ⟨List.mem_of_getLast? hrow, ?_⟩
      rw [h.last] at hrow
      rcases hcases with ⟨hnone, -⟩ | ⟨old, hold, -, hstep⟩
      · rw [hnone] at hrow
        cases hrow
      · obtain rfl := Option.some.inj (hold.symm.trans hrow)
        exact ⟨hstep.live hinv.tables (transferById_some hold).1, hstep.retryStep⟩
    constructor
    case chain =>
      rw [hlog, List.isChain_append]
      refine ⟨h.chain, .singleton _, fun row hrow next hnext => ?_⟩
      obtain rfl : row' = next := by simpa using hnext
      exact (hstep row hrow).2
    case within =>
      intro row hrow
      rw [hlog] at hrow
      rcases List.mem_append.mp hrow with hrow | hrow
      · exact h.within row hrow
      · obtain rfl := List.mem_singleton.mp hrow
        rcases hcases with ⟨hnone, -⟩ | ⟨old, hold, -, hstep'⟩
        · have hborn := isNew_of_unborn hmove hnone hnew
          intro _
          rw [hborn.retryCount_eq]
          exact hM
        · rw [← h.last] at hold
          exact hstep'.retryStep.withinLimit hM (h.within old (List.mem_of_getLast? hold))
    case last =>
      rw [hlog, hdb, hnew]
      simp

/-- The versions in every reachable state. -/
lemma reaches_versioned {users : List Ledger.User} {s : System}
    (hM : 1 ≤ setting.config.sagaMaxStepAttempts)
    (hs : Reaches (payments setting) (Sys.init (.initial users)) s) (t : String) :
    Versioned setting s.world t := by
  refine reaches_invariant (P := fun w => Versioned setting w t) (reaches_ok .refl)
    ⟨.nil, (fun _ h => nomatch h), rfl⟩ (fun w c job hinv hw _ _ hmove _ => hw.commit hM hinv hmove)
    (fun _ _ _ hw _ => ⟨hw.chain, hw.within, hw.last⟩)
    (fun _ _ _ _ _ hw _ _ _ => ⟨hw.chain, hw.within, hw.last⟩) (fun w w' _ hw hledger => ?_) hs
  cases hledger <;> exact ⟨hw.chain, hw.within, hw.last⟩

/-- The retries of all transfers in every reachable state. -/
lemma reaches_boundedRetries {users : List Ledger.User} {s : System}
    (hM : 1 ≤ setting.config.sagaMaxStepAttempts)
    (hs : Reaches (payments setting.keepingValidations) (Sys.init (.initial users)) s) :
    BoundedRetries setting.config s := by
  have hM' : 1 ≤ setting.keepingValidations.config.sagaMaxStepAttempts := hM
  have hversioned := fun t => reaches_versioned hM' hs t
  constructor
  case bound =>
    intro row hrow hlimited
    have hlast := (hversioned row.id).last
    rw [transferById_eq (reaches_ok hs).inv.ids hrow] at hlast
    have hlt : row.retryCount < setting.config.sagaMaxStepAttempts :=
      (hversioned row.id).within row (List.mem_of_getLast? hlast) hlimited
    omega
  case last => exact fun t => (hversioned t).last
  case reset =>
    intro t row row' hpart hless
    have hchain := List.IsChain.infix (hversioned t).chain hpart
    rw [List.isChain_cons_cons] at hchain
    exact hchain.1.2.progress hless
  case limited =>
    intro t versions hpart hno hcompensating
    have hchain := List.IsChain.infix (hversioned t).chain hpart
    exact retries_le hchain (fun row hrow => (hversioned t).within row (hpart.subset hrow)) hno
      hcompensating

/-! ### The steps of a run -/

/-- The loop of `run`, when it goes on with `exhausted` once its steps are used up. -/
def sagaLoopOr (exhausted : Transfer → PaymentsProg Unit) (config : Config) (draw : RunDraw)
    (now : Int) : Nat → Transfer → PaymentsProg Unit
  | 0, transfer => exhausted transfer
  | left + 1, transfer =>
    sagaStep config draw.leaseOwner now (draw.completion left)
      (sagaLoopOr exhausted config draw now left) transfer

/-- `run`, when it goes on with `exhausted` once its steps are used up. -/
def runOr (exhausted : Transfer → PaymentsProg Unit) (config : Config) (transferId : String)
    (draw : RunDraw) (now : Int) : PaymentsProg Unit := do
  match ← claim config transferId draw now with
  | none => return ()
  | some transfer => sagaLoopOr exhausted config draw now 8 transfer

section Steps

variable {config : Config} {draw : RunDraw} {completion : CompletionDraw} {now : Int} {o : String}
  {transfer row : Transfer} {next next' : Transfer → PaymentsProg Unit}

lemma sagaLoop_eq (left : Nat) :
    sagaLoop config draw now left transfer = sagaLoopOr (sagaLoop config draw now 0) config draw now
      left transfer := by
  induction left generalizing transfer with
  | zero => rfl
  | succ left ih =>
    have hnext : sagaLoop config draw now left =
        sagaLoopOr (sagaLoop config draw now 0) config draw now left := funext fun _ => ih
    rw [sagaLoop, sagaLoopOr, hnext]

/-- The ids that an update returns are those of the rows that it writes. -/
lemma updateTransfers_returns {matched : Transfer → Bool} {set : Transfer → Transfer}
    {ids : List String} {ws : List Write} (h : (updateTransfers matched set).Returns [] ids ws) :
    ∃ rows : List Transfer, (∀ row ∈ rows, matched row = true) ∧
      ids = (rows.map set).map (·.id) ∧ ws = (rows.map set).map .saveTransfer := by
  unfold updateTransfers at h
  cases h with
  | stmt c hrun hret =>
    obtain ⟨rfl, rfl⟩ := hret.of_ret
    refine ⟨c.transfers.filter matched, fun row hrow => (List.mem_filter.mp hrow).2, rfl, ?_⟩
    rw [← Except.ok.inj hrun]
    rfl

/-- A row that is read after an update of one row, with its id, is the updated one. -/
lemma findTransfer_returns {id : String} {saved : Transfer} {ws : List Write} (hid : saved.id = id)
    (h : (findTransfer id).Returns [.saveTransfer saved] row ws) : row = saved := by
  unfold findTransfer at h
  obtain ⟨found, p, hquery, h⟩ := h.bind_cases
  obtain ⟨c, rfl, rfl⟩ := hquery.of_query
  split at h
  · next row' hfound =>
    obtain ⟨rfl, -⟩ := h.of_ret
    obtain ⟨hmem, hrow⟩ := transferById_some hfound
    rcases mem_saveRow.mp hmem with ⟨-, hne⟩ | ⟨rfl, -⟩
    · exact absurd (hrow.trans hid.symm) hne
    · rfl
  · cases h

/-- What a transition returns. -/
lemma transitionUsingManager_returns {status : TransferStatus} {patch : Transfer → Transfer}
    {ws : List Write} (h : (transitionUsingManager transfer o status patch).Returns [] row ws)
    (hid : ∀ row, (patch row).id = row.id) :
    row.status = status ∧ status ∈ transfer.status.allowedTransitions := by
  unfold transitionUsingManager at h
  obtain ⟨_, p, hassert, h⟩ := h.bind_cases
  obtain ⟨hallowed, rfl⟩ := hassert.of_ofExcept
  have hnext : status ∈ transfer.status.allowedTransitions := by
    by_contra hnot
    simp [assertTransferTransition, hnot] at hallowed
  refine ⟨?_, hnext⟩
  obtain ⟨ids, p, hupdate, h⟩ := h.bind_cases
  obtain ⟨rows, hmatched, rfl, rfl⟩ := updateTransfers_returns hupdate
  split_ifs at h with hone
  · cases h
  · rw [not_not, List.length_map, List.length_map] at hone
    obtain ⟨old, rfl⟩ := List.length_eq_one_iff.mp hone
    have hold := of_decide_eq_true (hmatched old (List.mem_singleton_self old))
    have hrow : row = moved patch status old := findTransfer_returns ((hid old).trans hold.1) h
    rw [hrow]
    rfl

/-- What a transition of a run goes on with. -/
lemma transitionClaimed_exec {status : TransferStatus} {patch : Transfer → Transfer}
    {acts : List (Act Database Write PaymentsError Reply Ask Answer)}
    (h : (transitionClaimed transfer o status patch).Exec acts (.done (.ok row)))
    (hid : ∀ row, (patch row).id = row.id) :
    row.status = status ∧ status ∈ transfer.status.allowedTransitions := by
  unfold transitionClaimed at h
  obtain ⟨before, after, reply, -, hrun, h⟩ := h.bind_ok
  obtain ⟨ws, hreturns⟩ := hrun.run_ok
  unfold transitionTransaction at hreturns
  obtain ⟨row', p, hmoved, hret⟩ := hreturns.bind_cases
  obtain ⟨rfl, -⟩ := hret.of_ret
  obtain ⟨-, heq⟩ := h.of_done
  obtain rfl := Except.ok.inj (Prog.done.inj heq)
  exact transitionUsingManager_returns hmoved hid

/-- After a failure, a run goes on only to compensate. -/
lemma handleFailure_exec {e : PaymentsError}
    {acts : List (Act Database Write PaymentsError Reply Ask Answer)}
    (h : (handleFailure config transfer o e now).Exec acts (.done (.ok (some row)))) :
    row.status = .compensating ∧ transfer.status ≠ .compensating := by
  have hstop : ∀ p : PaymentsProg Unit,
      ¬ (p.bind fun _ => .done (.ok none)).Exec acts (.done (.ok (some row))) := by
    intro p hp
    obtain ⟨_, _, _, -, -, hnone⟩ := hp.bind_ok
    obtain ⟨-, heq⟩ := hnone.of_done
    cases heq
  unfold handleFailure at h
  dsimp only at h
  split_ifs at h with hcompensating
  · exact absurd h (hstop _)
  · exact absurd h (hstop _)
  · obtain ⟨_, _, moved, -, hmoved, hret⟩ := h.bind_ok
    obtain ⟨-, heq⟩ := hret.of_done
    obtain rfl := Option.some.inj (Except.ok.inj (Prog.done.inj heq))
    have hstatus := (transitionClaimed_exec hmoved fun _ => rfl).1
    exact ⟨hstatus, hcompensating⟩
  · exact absurd h (hstop _)

/-- The catch block goes on alike when the rest of the loop does for compensations. -/
lemma caught_agree {e : PaymentsError}
    (h : ∀ row, row.status = .compensating → transfer.status ≠ .compensating →
      (next row).Agree (next' row)) :
    (caught config o now next transfer e).Agree (caught config o now next' transfer e) := by
  unfold caught
  split_ifs
  · exact .refl _
  · refine .bind fun acts stopped hexec => ?_
    cases stopped with
    | none => exact .refl _
    | some row =>
      obtain ⟨hstatus, hne⟩ := handleFailure_exec hexec
      exact h row hstatus hne

/-- A step goes on alike when the rest of the loop does for all transfers that have come further. -/
lemma sagaStep_agree
    (h : ∀ row, transfer.status.rank < row.status.rank → (next row).Agree (next' row)) :
    (sagaStep config o now completion next transfer).Agree
      (sagaStep config o now completion next' transfer) := by
  have hcaught : transfer.status.rank < 4 → ∀ row e,
      (caught config o now next row e).Agree (caught config o now next' row e) := by
    intro hlt row e
    refine caught_agree fun row' hstatus _ => h row' ?_
    rw [hstatus]
    exact hlt
  unfold sagaStep
  dsimp only
  split
  · exact .refl _
  · exact .refl _
  · next hstatus =>
    refine .attempt fun acts r hexec => ?_
    cases r with
    | error e => exact hcaught (by rw [hstatus]; decide) transfer e
    | ok row =>
      obtain ⟨hrow, hmoved⟩ := transitionClaimed_exec hexec fun _ => rfl
      exact h row (hrow ▸ TransferStatus.rank_lt hmoved)
  · next hstatus =>
    have hlt : transfer.status.rank < 4 := by rw [hstatus]; decide
    split
    · exact hcaught hlt transfer _
    · refine .attempt fun _ r _ => ?_
      cases r with
      | error e => exact hcaught hlt transfer e
      | ok row₁ =>
        refine .attempt fun _ r _ => ?_
        cases r with
        | error e => exact hcaught hlt row₁ e
        | ok row₂ =>
          refine .attempt fun acts r hexec => ?_
          cases r with
          | error e => exact hcaught hlt row₂ e
          | ok row₃ =>
            unfold holdFunds at hexec
            obtain ⟨_, _, _, -, -, hmoved⟩ := hexec.bind_ok
            have hrow := (transitionClaimed_exec hmoved fun _ => rfl).1
            refine h row₃ ?_
            rw [hstatus, hrow]
            decide
  · next hstatus =>
    refine .attempt fun acts r hexec => ?_
    cases r with
    | error e => exact hcaught (by rw [hstatus]; decide) transfer e
    | ok row =>
      obtain ⟨hrow, hmoved⟩ := transitionClaimed_exec hexec fun _ => rfl
      exact h row (hrow ▸ TransferStatus.rank_lt hmoved)
  · next hstatus =>
    refine .attempt fun acts r _ => ?_
    cases r with
    | error e => exact hcaught (by rw [hstatus]; decide) transfer e
    | ok => exact .refl _
  · next hstatus =>
    refine .attempt fun acts r _ => ?_
    cases r with
    | error e => exact caught_agree fun _ _ hne => absurd hstatus hne
    | ok => exact .refl _

/-- Whatever the run would go on with once its steps are used up makes no difference. -/
lemma sagaLoopOr_agree (exhausted exhausted' : Transfer → PaymentsProg Unit) (left : Nat)
    (h : 6 ≤ transfer.status.rank + left) :
    (sagaLoopOr exhausted config draw now left transfer).Agree
      (sagaLoopOr exhausted' config draw now left transfer) := by
  induction left generalizing transfer with
  | zero => exact absurd transfer.status.rank_le_five (by omega)
  | succ left ih => exact sagaStep_agree fun row hlt => ih (by omega)

lemma run_agree (exhausted : Transfer → PaymentsProg Unit) (transferId : String) :
    (run config transferId draw now).Agree (runOr exhausted config transferId draw now) := by
  refine .bind fun acts claimed _ => ?_
  cases claimed with
  | none => exact .refl _
  | some transfer =>
    dsimp only
    rw [sagaLoop_eq]
    exact sagaLoopOr_agree _ _ 8 (by omega)

end Steps

/-! ### Bounded retries -/

/-- The programs that the threads have started. -/
def startedPrograms (config : Config) (w : World) (i : Nat) : Option (PaymentsProg Result) :=
  (w.jobs i).map fun job => job.command.program config job.draw

lemma records_startedPrograms (setting : Setting) :
    (payments setting).Records (startedPrograms setting.config) where
  commit _ _ := rfl
  issue w i q t w' h := by
    cases q with
    | fetch command =>
      obtain ⟨-, rfl⟩ := h
      rfl
    | circuitOpen =>
      obtain rfl : w' = w := h
      rfl
    | recordSuccess =>
      obtain rfl : w' = w := h
      rfl
    | recordFailure =>
      obtain rfl : w' = w := h
      rfl
  env w w' h := by
    cases h with
    | move => rfl
    | owner => rfl
    | deliver => rfl
  starts w i p w' h := by
    obtain ⟨-, command, draw, -, -, rfl, rfl⟩ := h
    funext j
    by_cases hj : j = i
    · subst hj
      simp [startedPrograms]
    · simp [startedPrograms, Function.update_of_ne hj]

/-- Every thread is in an execution of the program that it has started. -/
lemma reaches_executing {users : List Ledger.User} {s : System}
    (hs : Reaches (payments setting) (Sys.init (.initial users)) s) :
    s.Executing (startedPrograms setting.config) := by
  refine reaches_executes (records_startedPrograms setting) (fun i p hp => ?_) hs
  cases hp

/-- In every run in which no response of a validation loses its body, the retries of every transfer
are bounded; every thread executes the program that it has started; and no execution of `run` uses
up its eight steps: it does the same whatever program follows them. -/
theorem retries_bounded (setting : Setting) (hM : 1 ≤ setting.config.sagaMaxStepAttempts)
    (users : List Ledger.User) {s : System}
    (hs : Reaches (payments setting.keepingValidations) (Sys.init (.initial users)) s) :
    BoundedRetries setting.config s ∧ s.Executing (startedPrograms setting.config) ∧
      ∀ exhausted transferId draw now, (run setting.config transferId draw now).Agree
        (runOr exhausted setting.config transferId draw now) := by
  refine ⟨reaches_boundedRetries hM hs, ?_, fun exhausted transferId draw now => ?_⟩
  · have hexecuting := reaches_executing hs
    exact hexecuting
  · exact run_agree exhausted transferId

/-- The scripts in which no response of a validation loses its body. -/
def keepingValidationsRun : Script scripted.keepingValidations where
  draw := scriptedDraw
  ledgerDraw j := Ledger.drawFor (ledgerName j)
  test _ _ := true
  ledgerTest _ _ := true
  serves _ := true
  owners _ := true
  loses _ _ := false
  draw_ok := scripted_draws
  uuid_ok _ _ := trivial
  test_ok _ _ _ := trivial
  serves_ok _ _ := trivial
  ledgerTest_ok _ _ _ := trivial
  owners_ok _ _ := ⟨trivial, fun _ => trivial⟩
  loses_ok _ _ h := nomatch h

/-- A run of the transfer `t` whose request for a hold times out: its first retry is scheduled. -/
theorem retries_bounded_t : ∃ s,
    Reaches (payments scripted.keepingValidations) (Sys.init (.initial Ledger.annAndBob)) s ∧
      (s.world.db.transfers.any fun row => row.status = .validating ∧ row.retryCount = 1) = true ∧
      BoundedRetries scripted.config s := by
  obtain ⟨s, hs, hp⟩ := keepingValidationsRun.exists_reaches Ledger.annAndBob
    (opening ++ .start 1 (.run "t" 5) :: asking 1 3 0 ++ [.breaker 1 false, .send 1] ++ timingOut 1)
    (fun s => s.world.db.transfers.any fun row => row.status = .validating ∧ row.retryCount = 1)
    (by decide +kernel)
  exact ⟨s, hs, hp, (retries_bounded scripted (by decide) _ hs).1⟩

/-- The count is set back between two versions without progress. -/
def setBack (versions : List Transfer) : Bool :=
  match versions with
  | row :: row' :: _ => decide (row'.retryCount < row.retryCount ∧ row'.status = row.status ∧
      row'.receiverWalletId = none)
  | _ => false

/-- Two runs in which the body of the answer to the validation is lost: the second one sets the count
back, and the receiver is still unknown. -/
theorem retries_set_back : ∃ s,
    Reaches (payments scripted) (Sys.init (.initial Ledger.annAndBob)) s ∧
      ¬ BoundedRetries scripted.config s := by
  obtain ⟨s, hs, hp⟩ := scriptedRun.exists_reaches Ledger.annAndBob
    (opening ++ [.start 1 (.run "t" 5), .breaker 1 false, .send 1, .deliver 3 0, .respond 1 3 true,
      .breaker 1 true, .breaker 1 false, .send 1] ++ timingOut 1 ++
      [.start 2 (.run "t" 2000), .breaker 2 false, .send 2, .deliver 4 4, .respond 2 4 true,
        .breaker 2 true])
    (fun s => setBack ((versionsOf "t" s.world.log).drop 6)) (by decide +kernel)
  refine ⟨s, hs, fun h => ?_⟩
  unfold setBack at hp
  split at hp
  · next row row' rest hdrop =>
    obtain ⟨hless, hstatus, hnone⟩ := of_decide_eq_true hp
    have hpart : [row, row'] <:+: versionsOf "t" s.world.log := by
      refine List.IsInfix.trans ?_ (List.drop_suffix 6 _).isInfix
      rw [hdrop]
      exact (List.prefix_append [row, row'] rest).isInfix
    rcases h.reset "t" row row' hpart hless with hne | ⟨-, hsome⟩
    · exact hne hstatus
    · exact hsome hnone
  · cases hp

end Payments

end PeerLedger
