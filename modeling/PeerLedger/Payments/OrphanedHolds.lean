import PeerLedger.Payments.Amounts
import PeerLedger.Payments.HoldIntent

/-!
# Orphaned holds

A transfer that failed should leave no active hold behind.  A request that the client has given up can
break this: a release that finds no hold is answered `released`, the transfer fails, and then the
ledger executes the request for the hold that was still on its way (`orphaned_hold`).

In every run in which the ledger does not place the hold of a transfer after or while it releases it,
and in which owners do not use the ids of transfers for holds in the sender's wallet, there is no such
hold (`no_orphaned_hold`).
-/

namespace PeerLedger

namespace Ledger

open Transactions

/-- The command releases the hold of the transfer in the wallet. -/
def Command.isTransferRelease (walletId transferId : String) : Command → Bool
  | .releaseTransferHold transferId' dto =>
    transferId' = transferId ∧ dto.senderWalletId = walletId
  | _ => false

/-- A release of the transfer's hold in the wallet has committed, with or without a hold. -/
def LedgerWorld.releasedTransfer (w : LedgerWorld) (walletId transferId : String) : Bool :=
  w.log.any fun c =>
    (w.jobs c.thread).any fun job => job.command.isTransferRelease walletId transferId

/-- A commit that does not place the hold of a transfer after its release, and no release that
changes nothing while the hold is active. -/
def placesFirst (w : LedgerWorld) (c : LedgerCommit) : Bool :=
  (w.jobs c.thread).all fun job => match job.command with
    | .placeTransferHold transferId dto =>
      c.writes.isEmpty || !w.releasedTransfer dto.senderWalletId transferId
    | .releaseTransferHold transferId dto =>
      !c.writes.isEmpty ||
        (w.db.hold dto.senderWalletId transferId).all fun hold => hold.status ≠ .active
    | _ => true

lemma Command.isTransferRelease_iff {command : Command} {walletId transferId : String} :
    command.isTransferRelease walletId transferId = true ↔
      ∃ dto, command = .releaseTransferHold transferId dto ∧ dto.senderWalletId = walletId := by
  cases command <;> simp [Command.isTransferRelease]

/-- The releases after a commit. -/
lemma releasedTransfer_commit {w : LedgerWorld} {c : LedgerCommit} {job : Job}
    {walletId transferId : String} (hjob : w.jobs c.thread = some job) :
    (w.commit c).releasedTransfer walletId transferId = true ↔
      w.releasedTransfer walletId transferId = true ∨
        job.command.isTransferRelease walletId transferId = true := by
  simp [LedgerWorld.releasedTransfer, LedgerWorld.commit, hjob]

/-- Starting a command releases nothing. -/
lemma releasedTransfer_start {setting : Setting} {w : LedgerWorld} {i : Nat} {command : Command}
    {draw : Nat → Draw} (hinv : (ledgerProtocol setting).inv w) (hnone : w.jobs i = none)
    (walletId transferId : String) :
    (w.start i command draw).releasedTransfer walletId transferId =
      w.releasedTransfer walletId transferId := by
  rw [Bool.eq_iff_iff, LedgerWorld.releasedTransfer, LedgerWorld.releasedTransfer, List.any_eq_true,
    List.any_eq_true]
  refine exists_congr fun c => and_congr_right fun hc => ?_
  rw [jobs_start hinv hnone hc]

/-- A release that changes something leaves the hold released. -/
lemma Effect.transferHold_released {draw : Nat → Draw} {startDb db : Database} {transferId : String}
    {dto : ReleaseInternalTransferDto} {command : Command} {ws : List Write}
    (h : Effect draw startDb db command ws) (hcommand : command = .releaseTransferHold transferId dto)
    (hws : ws ≠ []) :
    ∃ n, (view db ws).hold dto.senderWalletId transferId = some ⟨n, .released⟩ := by
  cases h with
  | noop _ => exact absurd rfl hws
  | created hcreates =>
    subst hcommand
    cases hcreates
  | @recorded _ wallet a a' event now carrier hdecides hrecorded =>
    obtain ⟨change, hmade, rfl, rfl, hmakes⟩ := hdecides.makes hrecorded
    have hafter := hmakes.hold_cases carrier dto.senderWalletId transferId
    cases hmade with
    | held hplaces =>
      subst hcommand
      cases hplaces
    | released hreleases =>
      subst hcommand
      obtain ⟨hwallet, hid⟩ := hreleases.unique .releaseTransferHold
      exact ⟨_, hafter.trans (if_pos ⟨hwallet.symm, hid.symm⟩)⟩
    | _ => cases hcommand
  | settled => cases hcommand

/-- After a release of a transfer, its hold is not active. -/
lemma placesFirst_release {w : LedgerWorld} {c : LedgerCommit} {job : Job}
    (hfirst : placesFirst w c = true) (hjob : w.jobs c.thread = some job)
    (heffect : Effect job.draw job.startDb w.db job.command c.writes) {walletId transferId : String}
    (hrelease : job.command.isTransferRelease walletId transferId = true) (n : Int) :
    (w.commit c).db.hold walletId transferId ≠ some ⟨n, .active⟩ := by
  obtain ⟨dto, hcommand, rfl⟩ := Command.isTransferRelease_iff.mp hrelease
  change (view w.db c.writes).hold dto.senderWalletId transferId ≠ _
  intro hactive
  by_cases hws : c.writes = []
  · rw [placesFirst, hjob, Option.all_some, hcommand] at hfirst
    rw [hws, view_nil] at hactive
    simp [hws, hactive] at hfirst
  · obtain ⟨m, hreleased⟩ := heffect.transferHold_released hcommand hws
    rw [hreleased] at hactive
    cases hactive

/-- No hold of a transfer is placed after its release. -/
lemma placesFirst_place {w : LedgerWorld} {c : LedgerCommit} {job : Job} {transferId : String}
    {dto : HoldInternalTransferDto} (hfirst : placesFirst w c = true)
    (hjob : w.jobs c.thread = some job) (hcommand : job.command = .placeTransferHold transferId dto)
    (hws : c.writes ≠ []) : w.releasedTransfer dto.senderWalletId transferId = false := by
  rw [placesFirst, hjob, Option.all_some, hcommand] at hfirst
  simpa [hws] using hfirst

end Ledger

namespace Payments

open Transactions

variable {setting : Setting} {users : List Ledger.User} {s s' : System} {w w' : World} {job : Job}

/-- The command is no hold under the id of a transfer, unless the transfer is there and is not paid from
the wallet of the hold. -/
def KeepsApart (setting : Setting) (w : World) (command : Ledger.Command) : Prop :=
  ∀ walletId ownerId holdId amount, command = .placeHold walletId ownerId holdId amount →
    ∀ i draw, setting.draws i draw → draw.id = holdId →
      ∃ row ∈ w.db.transfers, row.id = holdId ∧ row.senderWalletId ≠ walletId

/-- The runs in which the ledger places the hold of a transfer before it releases it, or never, and
owners place no hold under the id of a transfer in the sender's wallet, nor under an id that a transfer
gets later. -/
def Setting.placingFirst (setting : Setting) : Setting :=
  { setting with
    ledger := { setting.ledger with
      admits := fun w c => setting.ledger.admits w c ∧ Ledger.placesFirst w c = true }
    allows := fun w command => setting.allows w command ∧ KeepsApart setting w command }

/-- Transfers stay, and so do their wallets. -/
lemma KeepsApart.rows {command : Ledger.Command} (h : KeepsApart setting w command)
    (hrows : ∀ row ∈ w.db.transfers, ∃ row' ∈ w'.db.transfers, row.Evolves row') :
    KeepsApart setting w' command := by
  intro walletId ownerId holdId amount hcommand i draw hdraw hid
  obtain ⟨row, hrow, hrowid, hother⟩ := h walletId ownerId holdId amount hcommand i draw hdraw hid
  obtain ⟨row', hrow', hevolves⟩ := hrows row hrow
  exact ⟨row', hrow', hevolves.id_eq.trans hrowid, hevolves.senderWalletId_eq ▸ hother⟩

/-- What is known of the holds of transfers. -/
structure HoldsFollowed (setting : Setting) (w : World) : Prop where
  ids : ∀ row ∈ w.db.transfers, ∃ i draw, setting.draws i draw ∧ draw.id = row.id
  owners : ∀ i job, w.ledger.world.jobs i = some job → KeepsApart setting w job.command
  /-- A hold under the id of a transfer was asked for by the transfer, if it is in its wallet. -/
  placed : ∀ walletId i draw, setting.draws i draw →
    w.ledger.world.db.hold walletId draw.id ≠ none →
    ∃ row ∈ w.db.transfers, row.id = draw.id ∧
      (row.senderWalletId = walletId → row.holdMayExist = true)
  released : ∀ walletId transferId,
    w.ledger.world.releasedTransfer walletId transferId = true →
    ∀ n, w.ledger.world.db.hold walletId transferId ≠ some ⟨n, .active⟩
  failed : ∀ row ∈ w.db.transfers, row.status = .failed → row.holdMayExist = false ∨
    w.ledger.world.releasedTransfer row.senderWalletId row.id = true ∨
    ∃ hold, w.ledger.world.db.hold row.senderWalletId row.id = some hold ∧ hold.status ≠ .active

/-- A failed transfer has no active hold. -/
lemma HoldsFollowed.not_active (h : HoldsFollowed setting w) (hok : TablesOk w.db) {row : Transfer}
    (hrow : row ∈ w.db.transfers) (hstatus : row.status = .failed) (n : Int) :
    w.ledger.world.db.hold row.senderWalletId row.id ≠ some ⟨n, .active⟩ := by
  intro hactive
  rcases h.failed row hrow hstatus with hnot | hreleased | ⟨hold, hhold, hended⟩
  · obtain ⟨i, draw, hdraw, hid⟩ := h.ids row hrow
    have hexists : w.ledger.world.db.hold row.senderWalletId draw.id ≠ none := by
      rw [hid, hactive]
      exact Option.some_ne_none _
    obtain ⟨other, hother, hotherid, hmay⟩ := h.placed _ i draw hdraw hexists
    obtain rfl := List.inj_on_of_nodup_map hok.ids hother hrow (hotherid.trans hid)
    rw [hmay rfl] at hnot
    cases hnot
  · exact h.released _ _ hreleased n hactive
  · rw [hhold] at hactive
    obtain rfl := Option.some.inj hactive
    exact hended rfl

/-- Only the tables and the ledger matter. -/
lemma HoldsFollowed.congr (h : HoldsFollowed setting w) (hdb : w'.db = w.db)
    (hworld : w'.ledger.world = w.ledger.world) : HoldsFollowed setting w' := by
  obtain ⟨hids, howners, hplaced, hreleased, hfailed⟩ := h
  constructor
  case ids => rwa [hdb]
  case owners =>
    intro i job hjob
    rw [hworld] at hjob
    exact (howners i job hjob).rows fun row hrow => ⟨row, hdb ▸ hrow, .refl _⟩
  case placed => rwa [hworld, hdb]
  case released => rwa [hworld]
  case failed => rwa [hworld, hdb]

/-! ### Steps of the payments service -/

/-- A transfer that fails was never to hold, or its hold was released or consumed. -/
lemma HoldsFollowed.failed_step {body : PaymentsTx Reply} {row row' : Transfer}
    (htraffic : Traffic w) (hinv : Inv setting w) (hrow : row ∈ w.db.transfers)
    (hstep : RowStep setting w job body row row') (hstatus : row'.status = .failed) :
    row'.holdMayExist = false ∨
    w.ledger.world.releasedTransfer row'.senderWalletId row'.id = true ∨
    ∃ hold, w.ledger.world.db.hold row'.senderWalletId row'.id = some hold ∧
      hold.status ≠ .active := by
  have hended : row'.status.isTerminal = true := by rw [hstatus]; rfl
  have hjust := hstep.justified hinv.tables hrow hended
  rw [hstatus] at hjust
  rw [hstep.evolves.senderWalletId_eq, hstep.evolves.id_eq]
  rcases hjust with hnot | ⟨-, hanswered⟩
  · refine .inl ?_
    cases hstep with
    | lease => exact hnot
    | advance hadv => rw [hadv.unmarked hended, hnot]
  · obtain ⟨n, request, i, ledgerJob, reply, hsent, hcommand, horigin, hjob, hanswers, -⟩ := hanswered
    obtain ⟨job', request', hjob', hsent', hsame, -⟩ := hinv.origin i n horigin
    obtain rfl := Option.some.inj (hjob.symm.trans hjob')
    obtain rfl := Option.some.inj (hsent.symm.trans hsent')
    have hrelease := hsame.trans hcommand
    unfold Ledger.Answers at hanswers
    rw [hrelease] at hanswers
    rcases hanswers with ⟨-, receipt, hreceipt, hid⟩ | ⟨-, ⟨c, hc, hthread⟩, -⟩
    · -- the settlement has consumed the hold
      obtain ⟨other, hother, hof⟩ := htraffic.receiptOf hreceipt
      obtain ⟨-, ⟨m, hconsumed⟩, -⟩ := htraffic.receipts receipt hreceipt
      obtain rfl := List.inj_on_of_nodup_map hinv.ids hother hrow (hof.transferId.symm.trans hid)
      rw [hof.senderWalletId, hid] at hconsumed
      exact .inr (.inr ⟨_, hconsumed, by simp⟩)
    · refine .inr (.inl (List.any_eq_true.mpr ⟨c, hc, ?_⟩))
      rw [hthread, hjob, Option.any_some]
      exact Ledger.Command.isTransferRelease_iff.mpr ⟨_, hrelease, rfl⟩

lemma HoldsFollowed.commit {c : PaymentsCommit} (h : HoldsFollowed setting w) (hinv : Inv setting w)
    (htraffic : Traffic w) (hjob : w.jobs c.thread = some job)
    (hmove : Move setting w job c.body c.writes) :
    HoldsFollowed setting ((payments setting).commit w c) := by
  constructor
  case ids =>
    intro row' hrow'
    rcases hmove.row_cases hrow' with hmem | ⟨-, hnew, -⟩ | ⟨row, hrow, -, hstep⟩
    · exact h.ids row' hmem
    · obtain ⟨_, _, _, -, -, rfl⟩ := hnew
      exact ⟨_, _, hinv.draws _ job hjob, rfl⟩
    · rw [hstep.evolves.id_eq]
      exact h.ids row hrow
  case owners => exact fun i job hjob => (h.owners i job hjob).rows fun _ h => hmove.rows h hinv.ids
  case placed =>
    intro walletId i draw hdraw hhold
    obtain ⟨row, hrow, hid, hmay⟩ := h.placed walletId i draw hdraw hhold
    obtain ⟨row', hrow', hevolves⟩ := hmove.rows hrow hinv.ids
    refine ⟨row', hrow', hevolves.id_eq.trans hid, fun hwallet => ?_⟩
    exact hevolves.holdMayExist (hmay (hevolves.senderWalletId_eq ▸ hwallet))
  case released => exact h.released
  case failed =>
    intro row' hrow' hstatus
    rcases hmove.row_cases hrow' with hmem | ⟨-, hnew, -⟩ | ⟨row, hrow, -, hstep⟩
    · exact h.failed row' hmem hstatus
    · rw [hnew.status_eq.1] at hstatus
      cases hstatus
    · exact failed_step (w := w) htraffic hinv hrow hstep hstatus

/-! ### Steps of the ledger -/

/-- The payments service places no holds of owners. -/
lemma Sendable.keepsApart {command : Ledger.Command} (h : Sendable w command) :
    KeepsApart setting w command := by
  intro walletId ownerId holdId amount hcommand
  cases h <;> cases hcommand

/-- A new hold under the id of a transfer is placed by the transfer, if it is in its wallet. -/
lemma HoldsFollowed.placed_by (h : HoldsFollowed setting.placingFirst w) (htraffic : Traffic w)
    {j : Nat} {ledgerJob : Ledger.Job} (hjob : w.ledger.world.jobs j = some ledgerJob)
    {walletId ownerId transferId : String} {amount : ℚ}
    (hplaces : ledgerJob.command.Places walletId ownerId transferId amount) {i : Nat} {draw : Draw}
    (hdraw : setting.draws i draw) (hid : draw.id = transferId) :
    ∃ row ∈ w.db.transfers, row.id = transferId ∧ (row.senderWalletId = walletId →
      row.holdMayExist = true ∧ ∃ dto, ledgerJob.command = .placeTransferHold transferId dto ∧
        dto.senderWalletId = walletId) := by
  have howner := h.owners j ledgerJob hjob
  have hjobs := htraffic.jobs j ledgerJob hjob
  generalize ledgerJob.command = command at hplaces howner hjobs
  cases hplaces with
  | placeHold =>
    obtain ⟨row, hrow, hrowid, hother⟩ := howner _ _ _ _ rfl i draw hdraw hid
    exact ⟨row, hrow, hrowid, fun hwallet => absurd hwallet hother⟩
  | @placeTransferHold _ dto =>
    rcases hjobs with hpublic | ⟨request, hrequest, heq⟩
    · cases hpublic
    · obtain ⟨row, hrow, hrowid, hmay⟩ := (htraffic.sent request hrequest).placeHold_cases heq.symm
      exact ⟨row, hrow, hrowid, fun _ => ⟨hmay, dto, rfl, rfl⟩⟩

/-- Only transfers are released, in the wallets that they are paid from. -/
lemma Traffic.released_row (htraffic : Traffic w) {walletId transferId : String}
    (hreleased : w.ledger.world.releasedTransfer walletId transferId = true) :
    ∃ row ∈ w.db.transfers, row.id = transferId ∧ row.senderWalletId = walletId := by
  obtain ⟨c, -, hany⟩ := List.any_eq_true.mp hreleased
  obtain ⟨ledgerJob, hjob, hrelease⟩ := (Option.any_eq_true _ _).mp hany
  obtain ⟨dto, hcommand, rfl⟩ := Ledger.Command.isTransferRelease_iff.mp hrelease
  rcases htraffic.jobs _ ledgerJob hjob with hpublic | ⟨request, hrequest, heq⟩
  · rw [hcommand] at hpublic
    cases hpublic
  · obtain ⟨row, hrow, hid, hwallet, -⟩ :=
      (htraffic.sent request hrequest).release_cases (heq.symm.trans hcommand)
    exact ⟨row, hrow, hid, hwallet⟩

section LedgerCommit

variable {c : Ledger.LedgerCommit} {ledgerJob : Ledger.Job}

/-- The hold of a transfer does not become active again. -/
lemma HoldsFollowed.commit_released (h : HoldsFollowed setting.placingFirst w)
    (hinv : Inv setting.placingFirst w) (htraffic : Traffic w)
    (hfirst : Ledger.placesFirst w.ledger.world c = true)
    (hjob : w.ledger.world.jobs c.thread = some ledgerJob)
    (heffect : Ledger.Effect ledgerJob.draw ledgerJob.startDb w.ledger.world.db ledgerJob.command
      c.writes) {walletId transferId : String}
    (hreleased : (w.ledger.world.commit c).releasedTransfer walletId transferId = true) (n : Int) :
    (w.ledger.world.commit c).db.hold walletId transferId ≠ some ⟨n, .active⟩ := by
  rcases (Ledger.releasedTransfer_commit hjob).mp hreleased with hbefore | hnow
  · have hended := h.released walletId transferId hbefore n
    obtain ⟨row, hrow, hrowid, hwallet⟩ := htraffic.released_row hbefore
    obtain ⟨i, draw, hdraw, hid⟩ := h.ids row hrow
    change (view w.ledger.world.db c.writes).hold walletId transferId ≠ _
    have hstep := heffect.holdStep walletId transferId
    generalize hcommand : ledgerJob.command = command at hstep
    cases hstep with
    | same heq => rwa [heq]
    | placed hplaces _ hnone hplaced =>
      obtain ⟨other, hother, hotherid, hby⟩ :=
        h.placed_by htraffic hjob (hcommand ▸ hplaces) hdraw (hid.trans hrowid)
      obtain rfl := List.inj_on_of_nodup_map hinv.ids hother hrow (hotherid.trans hrowid.symm)
      obtain ⟨-, dto, hplace, rfl⟩ := hby hwallet
      -- the commit writes, since it places the hold
      have hws : c.writes ≠ [] := fun hnil => by
        rw [hnil, view_nil, hnone] at hplaced
        cases hplaced
      have hnot := Ledger.placesFirst_place hfirst hjob hplace hws
      rw [hbefore] at hnot
      cases hnot
    | released _ _ hafter => rw [hafter]; simp
    | consumed _ hafter => rw [hafter]; simp
    | settled _ _ _ _ hafter => rw [hafter]; simp
  · exact Ledger.placesFirst_release hfirst hjob heffect hnow n

/-- A commit of the ledger. -/
lemma HoldsFollowed.ledgerCommit {l : Ledger.LedgerSys} (h : HoldsFollowed setting.placingFirst w)
    (hinv : Inv setting.placingFirst w) (htraffic : Traffic w)
    (hfirst : Ledger.placesFirst w.ledger.world c = true)
    (hjob : w.ledger.world.jobs c.thread = some ledgerJob)
    (heffect : Ledger.Effect ledgerJob.draw ledgerJob.startDb w.ledger.world.db ledgerJob.command
      c.writes) (hworld : l.world = w.ledger.world.commit c) :
    HoldsFollowed setting.placingFirst { w with ledger := l } := by
  constructor
  case ids => exact h.ids
  case owners =>
    intro i job' hjob'
    change l.world.jobs i = some job' at hjob'
    rw [hworld] at hjob'
    exact h.owners i job' hjob'
  case placed =>
    intro walletId i draw hdraw hhold
    change l.world.db.hold walletId draw.id ≠ none at hhold
    rw [hworld] at hhold
    by_cases hbefore : w.ledger.world.db.hold walletId draw.id = none
    · have hstep := heffect.holdStep walletId draw.id
      generalize hcommand : ledgerJob.command = command at hstep
      cases hstep with
      | same heq => exact absurd (heq.trans hbefore) hhold
      | placed hplaces =>
        obtain ⟨row, hrow, hid, hby⟩ := h.placed_by htraffic hjob (hcommand ▸ hplaces) hdraw rfl
        exact ⟨row, hrow, hid, fun hwallet => (hby hwallet).1⟩
      | released _ hactive => cases hbefore.symm.trans hactive
      | consumed hactive => cases hbefore.symm.trans hactive
      | settled _ _ _ hactive => cases hbefore.symm.trans hactive
    · exact h.placed walletId i draw hdraw hbefore
  case released =>
    intro walletId transferId
    change l.world.releasedTransfer walletId transferId = true → ∀ n, l.world.db.hold _ _ ≠ _
    rw [hworld]
    exact fun hreleased n => h.commit_released hinv htraffic hfirst hjob heffect hreleased n
  case failed =>
    intro row hrow hstatus
    change row.holdMayExist = false ∨ l.world.releasedTransfer row.senderWalletId row.id = true ∨
      ∃ hold, l.world.db.hold row.senderWalletId row.id = some hold ∧ _
    rw [hworld]
    rcases h.failed row hrow hstatus with hnot | hreleased | ⟨hold, hhold, hended⟩
    · exact .inl hnot
    · exact .inr (.inl ((Ledger.releasedTransfer_commit hjob).mpr (.inl hreleased)))
    · have hc := hinv.ledger.inv.1
      obtain ⟨hold', hhold', -, hsame⟩ :=
        hc.hold_grows (heffect.consistent hc) (.of_writes _ c.writes) hhold
      exact .inr (.inr ⟨hold', hhold', hsame hended ▸ hended⟩)

end LedgerCommit

/-- The start of a command of the ledger. -/
lemma HoldsFollowed.ledgerStart (h : HoldsFollowed setting.placingFirst w)
    (hinv : Inv setting.placingFirst w) {i : Nat} {command : Ledger.Command}
    {draw : Nat → Ledger.Draw} (hnone : w.ledger.world.jobs i = none)
    (hapart : KeepsApart setting w command)
    (horigin : Nat → Option Nat) :
    HoldsFollowed setting.placingFirst
      { w with ledger := startLedger w.ledger i command draw, origin := horigin } := by
  have hreleased : ∀ walletId transferId,
      (w.ledger.world.start i command draw).releasedTransfer walletId transferId =
        w.ledger.world.releasedTransfer walletId transferId :=
    Ledger.releasedTransfer_start hinv.ledger.inv hnone
  constructor
  case ids => exact h.ids
  case owners =>
    intro j job hjob
    rcases startLedger_jobs hjob with heq | hold
    · rw [heq]
      exact hapart
    · exact h.owners j job hold
  case placed => exact h.placed
  case released =>
    intro walletId transferId hbefore
    exact h.released walletId transferId ((hreleased walletId transferId).symm.trans hbefore)
  case failed =>
    intro row hrow hstatus
    refine (h.failed row hrow hstatus).imp_right (Or.imp_left fun hbefore => ?_)
    exact (hreleased row.senderWalletId row.id).trans hbefore

lemma HoldsFollowed.ledger (h : HoldsFollowed setting.placingFirst w)
    (hinv : Inv setting.placingFirst w) (htraffic : Traffic w)
    (hchange : LedgerChange setting.placingFirst w w') : HoldsFollowed setting.placingFirst w' := by
  cases hchange with
  | same hworld => exact h.congr rfl hworld
  | commit hadm hjob _ heffect hworld =>
    exact h.ledgerCommit hinv htraffic hadm.2 hjob heffect hworld
  | owner _ _ hallowed hcan => exact h.ledgerStart hinv hcan.jobs hallowed.2 w.origin
  | @deliver i n request draw hrequest hcan =>
    have hsent := htraffic.sent request (List.mem_of_getElem? hrequest)
    exact h.ledgerStart hinv hcan.jobs hsent.keepsApart _

/-! ### No orphaned hold -/

lemma reaches_holdsFollowed
    (hs : Reaches (payments setting.placingFirst) (Sys.init (.initial users)) s) :
    HoldsFollowed setting.placingFirst s.world := by
  have hinit : HoldsFollowed setting.placingFirst (World.initial users) :=
    ⟨(fun _ h => nomatch h), (fun _ _ h => nomatch h), (fun _ _ _ _ h => absurd rfl h),
      (fun _ _ h => nomatch h), fun _ h => nomatch h⟩
  have htraffic : Traffic (World.initial users) :=
    reaches_traffic (show Reaches (payments setting) (Sys.init (.initial users)) _ from .refl)
  refine (reaches_invariant (P := fun w => Traffic w ∧ HoldsFollowed setting.placingFirst w)
    (reaches_ok .refl) ⟨htraffic, hinit⟩ (fun w c job hinv hw _ hjob hmove _ => ⟨?_, ?_⟩)
    (fun w command hinv hw hsend => ⟨hw.1.send hsend, ?_⟩)
    (fun w i command draw _ hw _ _ _ => ⟨?_, ?_⟩)
    (fun w w' hinv hw hledger => ⟨hw.1.ledger hledger, hw.2.ledger hinv hw.1 hledger⟩) hs).2
  · exact hw.1.of_same rfl rfl (hmove.extends hinv.tables) fun _ => Reached.commit
  · exact hw.2.commit hinv hw.1 hjob hmove
  · exact hw.2.congr rfl rfl
  · exact hw.1.of_same rfl rfl (.refl _) fun _ h => h
  · exact hw.2.congr rfl rfl

/-- In every run in which the ledger places the holds of transfers before it releases them, and owners
place no holds under the ids of transfers in the wallets that these are paid from: a transfer that
failed has no active hold, now and in every later state. -/
theorem no_orphaned_hold (setting : Setting) (users : List Ledger.User) {s : System}
    (hs : Reaches (payments setting.placingFirst) (Sys.init (.initial users)) s) :
    ∀ row ∈ s.world.db.transfers, row.status = .failed →
      ∀ s', Reaches (payments setting.placingFirst) s s' → ∀ n,
        s'.world.ledger.world.db.hold row.senderWalletId row.id ≠ some ⟨n, .active⟩ := by
  intro row hrow hstatus s' hs' n
  have hreach := hs.trans hs'
  obtain ⟨row', hrow', hevolves⟩ := (reaches_extends (reaches_ok hs) hs').rows row hrow
  have hstatus' : row'.status = .failed := by
    refine hevolves.status.closed (S := fun status => status = .failed) (fun a b ha hb => ?_) hstatus
    rw [ha] at hb
    cases hb
  rw [← hevolves.senderWalletId_eq, ← hevolves.id_eq]
  exact (reaches_holdsFollowed hreach).not_active (reaches_ok hreach).inv.tables hrow' hstatus' n

/-- Three runs of `t` in which all requests for the hold time out. -/
def givingUp : List Action :=
  .start 1 (.run "t" 5) :: (asking 1 3 0 ++ [.breaker 1 false, .send 1] ++ timingOut 1 ++
    [.start 2 (.run "t" 2000), .breaker 2 false, .send 2] ++ timingOut 2 ++
    [.start 3 (.run "t" 10000), .breaker 3 false, .send 3] ++ timingOut 3)

/-- The release of `t`, which is answered. -/
def releasing : List Action :=
  [.breaker 3 false, .send 3, .deliver 4 10, .respond 3 4 false, .breaker 3 true]

/-- The first request for the hold of `t`. -/
def placing : Action := .deliver 5 1

/-- The scripts in which holds of transfers are placed before they are released. -/
def placingFirstRun : Script scripted.placingFirst where
  draw := scriptedDraw
  ledgerDraw j := Ledger.drawFor (ledgerName j)
  test _ _ := true
  ledgerTest := Ledger.placesFirst
  serves _ := true
  owners
    | .placeHold .. => false
    | _ => true
  loses _ _ := true
  draw_ok := scripted_draws
  uuid_ok _ _ := trivial
  test_ok _ _ _ := trivial
  serves_ok _ _ := trivial
  ledgerTest_ok _ _ h := ⟨trivial, h⟩
  owners_ok _ h := ⟨trivial, fun _ => ⟨trivial, fun _ _ _ _ heq => by rw [heq] at h; cases h⟩⟩
  loses_ok _ _ _ := trivial

/-- The hold of `t` is placed before the release, and is gone when the transfer has failed. -/
theorem no_orphaned_hold_t : ∃ s,
    Reaches (payments scripted.placingFirst) (Sys.init (.initial Ledger.annAndBob)) s ∧
      ∃ row ∈ s.world.db.transfers, row.status = .failed ∧
        s.world.ledger.world.db.hold row.senderWalletId row.id ≠ none ∧
        ∀ n, s.world.ledger.world.db.hold row.senderWalletId row.id ≠ some ⟨n, .active⟩ := by
  obtain ⟨s, hs, hp⟩ := placingFirstRun.exists_reaches Ledger.annAndBob
    (opening ++ givingUp ++ [placing] ++ releasing)
    (fun s => s.world.db.transfers.any fun row => row.status = .failed ∧
      s.world.ledger.world.db.hold row.senderWalletId row.id ≠ none) (by decide +kernel)
  obtain ⟨row, hrow, hboth⟩ := List.any_eq_true.mp hp
  obtain ⟨hstatus, hhold⟩ := of_decide_eq_true hboth
  exact ⟨s, hs, row, hrow, hstatus, hhold,
    no_orphaned_hold scripted _ hs row hrow hstatus s .refl⟩

/-- The hold of `t` is placed after the release: the transfer has failed, and its hold is active. -/
theorem orphaned_hold : ∃ s,
    Reaches (payments scripted) (Sys.init (.initial Ledger.annAndBob)) s ∧
      ∃ row ∈ s.world.db.transfers, row.status = .failed ∧
        ∃ n, s.world.ledger.world.db.hold row.senderWalletId row.id = some ⟨n, .active⟩ := by
  obtain ⟨s, hs, hp⟩ := scriptedRun.exists_reaches Ledger.annAndBob
    (opening ++ givingUp ++ releasing ++ [placing])
    (fun s => s.world.db.transfers.any fun row => row.status = .failed ∧
      s.world.ledger.world.db.hold row.senderWalletId row.id = some ⟨400, .active⟩)
    (by decide +kernel)
  obtain ⟨row, hrow, hboth⟩ := List.any_eq_true.mp hp
  obtain ⟨hstatus, hhold⟩ := of_decide_eq_true hboth
  exact ⟨s, hs, row, hrow, hstatus, 400, hhold⟩

end Payments

end PeerLedger
