import PeerLedger.Payments.SettledBills

/-!
# The intent to hold is written first

`run` writes `holdMayExist` before it asks the ledger for a hold, so that whoever takes the transfer
over knows that there may be one to release.  `hold_intent` says that the flag is there before the
request and stays, that a transfer past `Validating` has it and knows its receiver, and that a transfer
for which a hold was ever requested fails only after a release was answered `released`.

Two responses that lose their body break this: a validation without a body leaves the receiver unknown
and the saga goes on all the same (`funds_held_without_receiver`), and a release that was answered
`already_settled` fails the transfer.
-/

namespace PeerLedger

namespace Payments

open Transactions

variable {setting : Setting} {w w' : World} {job : Job}

/-- The runs in which no response of a validation and no response `already_settled` loses its body. -/
def Setting.keepingBodies (setting : Setting) : Setting :=
  { setting with
    loses := fun command reply => setting.loses command reply ∧
      (∀ dto, command ≠ .validateTransfer dto) ∧
      ∀ t dto, command = .releaseTransferHold t dto → reply ≠ .alreadySettled }

/-- The ledger has answered `released` to a release of the transfer. -/
def World.AnsweredReleased (w : World) (row : Transfer) : Prop :=
  ∃ n request i job, w.sent[n]? = some request ∧ request.command = releaseCommand row ∧
    w.origin i = some n ∧ w.ledger.world.jobs i = some job ∧
    Ledger.Answers job w.ledger.world i .released

/-- The statuses of a transfer that may have a hold, and has not failed. -/
def TransferStatus.isHolding (status : TransferStatus) : Bool :=
  status ∈ [fundsHeld, processing, compensating, completed]

/-- The intent to hold, as it is persisted. -/
structure HoldIntent (s : System) : Prop where
  /-- The intent is there when the request is about to be sent. -/
  before : ∀ i t dto k, s.threads i = .run (.call (.fetch (.placeTransferHold t dto)) k) →
    ∃ row ∈ s.world.db.transfers, row.id = t ∧ row.holdMayExist = true
  /-- It stays from then on. -/
  after : ∀ request ∈ s.world.sent, ∀ t dto, request.command = .placeTransferHold t dto →
    ∃ row ∈ s.world.db.transfers, row.id = t ∧ row.holdMayExist = true
  holding : ∀ row ∈ s.world.db.transfers, row.status.isHolding = true →
    row.holdMayExist = true ∧ row.receiverWalletId ≠ none
  /-- A transfer for which a hold was requested fails only after its release. -/
  failed : ∀ row ∈ s.world.db.transfers, row.status = .failed →
    (∃ request ∈ s.world.sent, ∃ dto, request.command = .placeTransferHold row.id dto) →
    s.world.AnsweredReleased row

/-! ### Steps of the ledger -/

lemma LedgerChange.jobs (h : LedgerChange setting w w') {i : Nat} {job : Ledger.Job}
    (hjob : w.ledger.world.jobs i = some job) : w'.ledger.world.jobs i = some job := by
  have hstart : ∀ {j command draw}, CanStart setting w.ledger j draw →
      (startLedger w.ledger j command draw).world.jobs i = some job := by
    intro j command draw hcan
    have hne : i ≠ j := fun heq => by rw [heq, hcan.jobs] at hjob; cases hjob
    exact (Function.update_of_ne hne _ _).trans hjob
  cases h with
  | @same l hworld =>
    change l.world.jobs i = some job
    rwa [hworld]
  | @commit l c _ _ _ _ _ hworld =>
    change l.world.jobs i = some job
    rwa [hworld]
  | owner _ _ _ hcan => exact hstart hcan
  | deliver _ hcan => exact hstart hcan

lemma LedgerChange.origin (hinv : Inv setting w) (h : LedgerChange setting w w') {i n : Nat}
    (hi : w.origin i = some n) : w'.origin i = some n := by
  cases h with
  | same => exact hi
  | commit => exact hi
  | owner => exact hi
  | @deliver j _ _ _ _ hcan =>
    have hne : i ≠ j := fun heq => by rw [heq, hinv.origin_none hcan] at hi; cases hi
    exact (Function.update_of_ne hne _ _).trans hi

lemma LedgerChange.answers (hinv : Inv setting w) (h : LedgerChange setting w w') {i : Nat}
    {job : Ledger.Job} {reply : Ledger.Reply} (ha : Ledger.Answers job w.ledger.world i reply) :
    Ledger.Answers job w'.ledger.world i reply := by
  refine ha.forward (fun hc => ?_) (fun receipt hmem => ?_) fun hhold => h.hold hinv hhold
  · cases h with
    | @same l hworld =>
      change l.world.Committed i
      rwa [hworld]
    | @commit l c _ _ _ _ _ hworld =>
      change l.world.Committed i
      rw [hworld]
      obtain ⟨c', hc', hthread⟩ := hc
      exact ⟨c', List.mem_append_left _ hc', hthread⟩
    | owner => exact hc
    | deliver => exact hc
  · exact h.settlements hmem

/-! ### Releases -/

/-- What the ledger has answered stays. -/
lemma World.AnsweredReleased.forward {row row' : Transfer} (h : w.AnsweredReleased row)
    (hcommand : releaseCommand row' = releaseCommand row) (hsent : w.sent <+: w'.sent)
    (horigin : ∀ i n, w.origin i = some n → w'.origin i = some n)
    (hjobs : ∀ i job, w.ledger.world.jobs i = some job → w'.ledger.world.jobs i = some job)
    (hanswers : ∀ i job, Ledger.Answers job w.ledger.world i .released →
      Ledger.Answers job w'.ledger.world i .released) : w'.AnsweredReleased row' := by
  obtain ⟨n, request, i, job, hrequest, hrelease, hi, hjob, ha⟩ := h
  have hlt := (List.getElem?_eq_some_iff.mp hrequest).1
  obtain ⟨more, hmore⟩ := hsent
  refine ⟨n, request, i, job, ?_, hcommand ▸ hrelease, horigin i n hi, hjobs i job hjob,
    hanswers i job ha⟩
  rw [← hmore, List.getElem?_append_left hlt, hrequest]

/-- A release that was answered without `already_settled` was answered `released`. -/
lemma World.ReleaseAnswered.released {row : Transfer} (hinv : Inv setting w)
    (h : w.ReleaseAnswered setting row)
    (hloses : ∀ t dto, ¬ setting.loses (.releaseTransferHold t dto) .alreadySettled) :
    w.AnsweredReleased row := by
  obtain ⟨n, request, i, job, reply, hsent, hcommand, horigin, hjob, hanswers, hlost⟩ := h
  refine ⟨n, request, i, job, hsent, hcommand, horigin, hjob, ?_⟩
  obtain ⟨job', request', hjob', hsent', hsame, -⟩ := hinv.origin i n horigin
  obtain rfl := Option.some.inj (hjob.symm.trans hjob')
  obtain rfl := Option.some.inj (hsent.symm.trans hsent')
  have hreply : reply = .released := by
    unfold Ledger.Answers at hanswers
    rw [hsame, hcommand] at hanswers
    rcases hanswers with ⟨hsettled, -⟩ | ⟨hreleased, -⟩
    · have hlost := hlost hsettled
      rw [hcommand, hsettled] at hlost
      exact absurd hlost (hloses _ _)
    · exact hreleased
  exact hreply ▸ hanswers

/-! ### The invariant -/

/-- What the rows of the transfers keep. -/
structure Intends (w : World) : Prop where
  known : ∀ row ∈ w.db.transfers, row.holdMayExist = true → row.receiverWalletId ≠ none
  holding : ∀ row ∈ w.db.transfers, row.status.isHolding = true → row.holdMayExist = true
  failed : ∀ row ∈ w.db.transfers, row.status = .failed → row.holdMayExist = true →
    w.AnsweredReleased row

/-- A new transfer intends nothing. -/
lemma IsNew.holdMayExist_eq {config : Config} {db : Database} {row : Transfer}
    (h : IsNew config db job row) : row.holdMayExist = false := by
  obtain ⟨_, _, _, -, -, rfl⟩ := h
  rfl

section Commit

variable {c : PaymentsCommit} {body : PaymentsTx Reply} {row row' : Transfer}

/-- The receiver is known before the intent is written, and stays known. -/
lemma Intends.known_step (h : Intends w) (hrow : row ∈ w.db.transfers)
    (hstep : RowStep setting w job body row row')
    (hloses : ∀ dto reply, ¬ setting.loses (.validateTransfer dto) reply)
    (hmay : row'.holdMayExist = true) : row'.receiverWalletId ≠ none := by
  have hstays : row.receiverWalletId ≠ none → row'.receiverWalletId ≠ none := by
    intro hne
    obtain ⟨id, hid⟩ := Option.ne_none_iff_exists'.mp hne
    rw [hstep.evolves.receiver id hid]
    exact Option.some_ne_none id
  refine hstays ?_
  cases hbefore : row.holdMayExist with
  | true => exact h.known row hrow hbefore
  | false =>
    cases hstep with
    | lease =>
      change row.holdMayExist = true at hmay
      rw [hbefore] at hmay
      cases hmay
    | advance hadv =>
      rcases hadv.marked hbefore hmay with hknown | ⟨id, hlost⟩
      · exact hknown
      · exact absurd hlost (hloses _ _)

/-- Only a transfer that intends to hold gets past its validation. -/
lemma Intends.holding_step (h : Intends w) (hrow : row ∈ w.db.transfers)
    (hstep : RowStep setting w job body row row') (hstatus : row'.status.isHolding = true) :
    row'.holdMayExist = true := by
  refine hstep.evolves.holdMayExist ?_
  by_cases hbefore : row.status.isHolding = true
  · exact h.holding row hrow hbefore
  · cases hstep with
    | lease => exact absurd hstatus hbefore
    | advance hadv =>
      have hne : row'.status ≠ row.status := fun heq => hbefore (heq ▸ hstatus)
      have hjust := hadv.justified hne
      have hmem := hadv.advances.status.resolve_left hne
      revert hjust hmem hstatus hbefore
      -- of the other statuses, only `Validating` leads to one of these
      cases row.status <;> cases row'.status <;>
        simp +contextual [TransferStatus.isHolding, TransferStatus.allowedTransitions, Justified]

/-- Every commit keeps the intents. -/
lemma Intends.commit (h : Intends w) (hinv : Inv setting w)
    (hmove : Move setting w job c.body c.writes)
    (hvalidate : ∀ dto reply, ¬ setting.loses (.validateTransfer dto) reply)
    (hrelease : ∀ t dto, ¬ setting.loses (.releaseTransferHold t dto) .alreadySettled) :
    Intends ((payments setting).commit w c) := by
  constructor
  case known =>
    intro row' hrow' hmay
    rcases hmove.row_cases hrow' with hmem | ⟨-, hnew, -⟩ | ⟨row, hrow, -, hstep⟩
    · exact h.known row' hmem hmay
    · rw [hnew.holdMayExist_eq] at hmay
      cases hmay
    · exact h.known_step hrow hstep hvalidate hmay
  case holding =>
    intro row' hrow' hstatus
    rcases hmove.row_cases hrow' with hmem | ⟨-, hnew, -⟩ | ⟨row, hrow, -, hstep⟩
    · exact h.holding row' hmem hstatus
    · rw [hnew.status_eq.1] at hstatus
      cases hstatus
    · exact h.holding_step hrow hstep hstatus
  case failed =>
    intro row' hrow' hstatus hmay
    change w.AnsweredReleased row'
    rcases hmove.row_cases hrow' with hmem | ⟨-, hnew, -⟩ | ⟨row, hrow, -, hstep⟩
    · exact h.failed row' hmem hstatus hmay
    · rw [hnew.status_eq.1] at hstatus
      cases hstatus
    · have hended : row'.status.isTerminal = true := by rw [hstatus]; rfl
      have hjust := hstep.justified hinv.tables hrow hended
      rw [hstatus] at hjust
      rcases hjust with hnot | ⟨-, hanswered⟩
      · cases hstep with
        | lease =>
          change row.holdMayExist = true at hmay
          rw [hnot] at hmay
          cases hmay
        | advance hadv =>
          rw [hadv.unmarked hended, hnot] at hmay
          cases hmay
      · exact (hanswered.released hinv hrelease).forward hstep.evolves.releaseCommand_eq
          List.prefix_rfl (fun _ _ h => h) (fun _ _ h => h) fun _ _ h => h

end Commit

/-- The intents in every reachable state. -/
lemma reaches_intends {users : List Ledger.User} {s : System}
    (hvalidate : ∀ dto reply, ¬ setting.loses (.validateTransfer dto) reply)
    (hrelease : ∀ t dto, ¬ setting.loses (.releaseTransferHold t dto) .alreadySettled)
    (hs : Reaches (payments setting) (Sys.init (.initial users)) s) : Intends s.world := by
  have hinit : Intends (World.initial users) :=
    ⟨(fun _ h => nomatch h), (fun _ h => nomatch h), fun _ h => nomatch h⟩
  refine reaches_invariant (reaches_ok .refl) hinit
    (fun w c job hinv hw _ _ hmove _ => hw.commit hinv hmove hvalidate hrelease)
    (fun w command _ hw _ => ?_) (fun w i command draw _ hw _ _ _ => ?_)
    (fun w w' hinv hw hledger => ?_) hs
  · refine ⟨hw.known, hw.holding, fun row hrow hstatus hmay => ?_⟩
    exact (hw.failed row hrow hstatus hmay).forward rfl (List.prefix_append _ _) (fun _ _ h => h)
      (fun _ _ h => h) fun _ _ h => h
  · exact ⟨hw.known, hw.holding, hw.failed⟩
  · have hdb : w'.db = w.db := by cases hledger <;> rfl
    have hsent : w'.sent = w.sent := by cases hledger <;> rfl
    refine ⟨hdb ▸ hw.known, hdb ▸ hw.holding, fun row hrow hstatus hmay => ?_⟩
    exact (hw.failed row (hdb ▸ hrow) hstatus hmay).forward rfl (hsent ▸ List.prefix_rfl)
      (fun i n => hledger.origin hinv) (fun i job => hledger.jobs) fun i job => hledger.answers hinv

/-! ### The intent to hold -/

/-- The hold of a transfer that can be requested. -/
lemma Sendable.placeHold_cases {command : Ledger.Command} {t : String}
    {dto : Ledger.HoldInternalTransferDto} (h : Sendable w command)
    (hcommand : command = .placeTransferHold t dto) :
    ∃ row ∈ w.db.transfers, row.id = t ∧ row.holdMayExist = true := by
  cases h with
  | @placeHold row hrow hmay =>
    obtain ⟨rfl, -⟩ := Ledger.Command.placeTransferHold.inj hcommand
    exact ⟨row, hrow, rfl, hmay⟩
  | validate => cases hcommand
  | settle => cases hcommand
  | release => cases hcommand

/-- In every run in which no response of a validation and no response `already_settled` loses its
body, the intent to hold is persisted before a hold is requested and stays; a transfer that may have a
hold knows its receiver; and a transfer for which a hold was requested fails only after a release that
was answered `released`. -/
theorem hold_intent (setting : Setting) (users : List Ledger.User) {s : System}
    (hs : Reaches (payments setting.keepingBodies) (Sys.init (.initial users)) s) :
    HoldIntent s := by
  have hvalidate : ∀ dto reply, ¬ setting.keepingBodies.loses (.validateTransfer dto) reply :=
    fun dto reply h => h.2.1 dto rfl
  have hrelease : ∀ t dto, ¬ setting.keepingBodies.loses (.releaseTransferHold t dto) .alreadySettled :=
    fun t dto h => h.2.2 t dto rfl rfl
  have hok := reaches_ok hs
  have htraffic := reaches_traffic hs
  have hintends := reaches_intends hvalidate hrelease hs
  constructor
  case before =>
    intro i t dto k hi
    obtain ⟨hsend, -⟩ := hok.callOk hi
    exact hsend.placeHold_cases rfl
  case after =>
    intro request hrequest t dto hcommand
    exact (htraffic.sent request hrequest).placeHold_cases hcommand
  case holding =>
    intro row hrow hstatus
    have hmay := hintends.holding row hrow hstatus
    exact ⟨hmay, hintends.known row hrow hmay⟩
  case failed =>
    rintro row hrow hstatus ⟨request, hrequest, dto, hcommand⟩
    obtain ⟨other, hother, hid, hmay⟩ := (htraffic.sent request hrequest).placeHold_cases hcommand
    obtain rfl := List.inj_on_of_nodup_map hok.inv.ids hother hrow hid
    exact hintends.failed other hrow hstatus hmay

/-- The scripts in which no response loses its body. -/
def keepingBodiesRun : Script scripted.keepingBodies where
  draw := scriptedDraw
  ledgerDraw j := Ledger.drawFor (ledgerName j)
  test _ _ := true
  ledgerTest _ _ := true
  serves _ := true
  owners _ := true
  loses _ _ := false
  draw_ok := scripted_draws
  uuid_ok _ _ := trivial
  test_ok _ _ _ := trivial
  serves_ok _ _ := trivial
  ledgerTest_ok _ _ _ := trivial
  owners_ok _ _ := ⟨trivial, fun _ => trivial⟩
  loses_ok _ _ h := nomatch h

/-- The transfer `t` is completed after its hold was requested. -/
theorem hold_intent_t : ∃ s,
    Reaches (payments scripted.keepingBodies) (Sys.init (.initial Ledger.annAndBob)) s ∧
      (s.world.db.transfers.any fun row => row.status = .completed) = true ∧ HoldIntent s := by
  obtain ⟨s, hs, hp⟩ := keepingBodiesRun.exists_reaches Ledger.annAndBob (opening ++ settling)
    (fun s => s.world.db.transfers.any fun row => row.status = .completed) (by decide +kernel)
  exact ⟨s, hs, hp, hold_intent scripted _ hs⟩

/-- The body of the answer to a validation is lost: the funds of the transfer are held all the same,
and its receiver is unknown. -/
theorem funds_held_without_receiver : ∃ s,
    Reaches (payments scripted) (Sys.init (.initial Ledger.annAndBob)) s ∧ ¬ HoldIntent s := by
  obtain ⟨s, hs, hp⟩ := scriptedRun.exists_reaches Ledger.annAndBob
    (opening ++ [.start 1 (.run "t" 5), .breaker 1 false, .send 1, .deliver 3 0, .respond 1 3 true,
      .breaker 1 true] ++ asking 1 4 1)
    (fun s => s.world.db.transfers.any fun row => row.status.isHolding ∧ row.receiverWalletId = none)
    (by decide +kernel)
  obtain ⟨row, hrow, hstatus⟩ := List.any_eq_true.mp hp
  obtain ⟨hstatus, hnone⟩ := of_decide_eq_true hstatus
  exact ⟨s, hs, fun h => (h.holding row hrow hstatus).2 hnone⟩

end Payments

end PeerLedger
