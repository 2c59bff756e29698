import PeerLedger.Ledger.Provenance
import PeerLedger.Payments.Conservation
import PeerLedger.Payments.Idempotency

/-!
# Who can take money out of a wallet

The ledger trusts the payments service: its internal commands name the sender and the sender's wallet
themselves.  `debits_authorized` follows an event that takes funds out of a wallet back to its cause
over both services.  It is a public command of the wallet's owner, or a transfer from this wallet that
the owner asked the payments service for; and the amount is the one that was asked for.
-/

namespace PeerLedger

namespace Payments

open Transactions

variable {setting : Setting} {users : List Ledger.User} {w w' : World}

/-- The user in whose name a command asks for a transfer. -/
def Command.payer : Command → Option String
  | .create _ _ senderUserId => some senderUserId
  | .createSplitSharePayment input _ => some input.participantUserId
  | .payShare _ _ participantUserId _ _ _ => some participantUserId
  | .createBill .. => none
  | .run .. => none
  | .recoverDue .. => none

/-- An owner gave the ledger this command. -/
def OwnerGave (setting : Setting) (w : World) (command : Ledger.Command) : Prop :=
  setting.owners command ∧ ∃ j job, w.ledger.world.jobs j = some job ∧ job.command = command

/-- The transfer pays from the wallet, and the owner of the wallet asked for it. -/
structure AskedByOwner (setting : Setting) (w : World) (wallet : Ledger.Wallet) (row : Transfer) :
    Prop where
  mem : row ∈ w.db.transfers
  senderWalletId : row.senderWalletId = wallet.id
  asked : ∃ i job, w.jobs i = some job ∧ job.command.payer = some wallet.ownerId ∧
    Asks setting.config w.db job.command row.canonical row.idempotencyKey

/-- The event lowers the balance of the wallet, or puts funds of it under a hold. -/
def Takes (wallet : Ledger.Wallet) (e : Ledger.StoredEvent) : Prop :=
  (∃ n ∈ Ledger.ownPostings wallet.id e, n < 0) ∨
    ∃ holdId n, Ledger.holdEvent e = some (holdId, .held n)

/-- The event consumes a hold of `n` minor units that an event of the wallet has placed. -/
structure Consumes (w : World) (wallet : Ledger.Wallet) (e : Ledger.StoredEvent) (holdId : String)
    (n : Int) : Prop where
  consumed : Ledger.holdEvent e = some (holdId, .consumed)
  posting : Ledger.ownPostings wallet.id e = [-n]
  placed : ∃ e' ∈ w.ledger.world.db.stream wallet.id, Ledger.holdEvent e' = some (holdId, .held n)

/-- What allows an event that takes funds out of the wallet. -/
inductive Authorized (setting : Setting) (w : World) (wallet : Ledger.Wallet)
    (e : Ledger.StoredEvent) : Prop
  | withdrawn {amount n} : OwnerGave setting w (.withdraw wallet.id wallet.ownerId amount) →
      Ledger.toMinorUnits "Сума повинна бути додатною" amount = .ok n →
      Ledger.ownPostings wallet.id e = [-n] → Authorized setting w wallet e
  | held {holdId amount n} : OwnerGave setting w (.placeHold wallet.id wallet.ownerId holdId amount) →
      Ledger.toMinorUnits "Сума повинна бути додатною" amount = .ok n →
      Ledger.holdEvent e = some (holdId, .held n) → Authorized setting w wallet e
  | consumed {holdId n} : OwnerGave setting w (.consumeHold wallet.id wallet.ownerId holdId) →
      Consumes w wallet e holdId n → Authorized setting w wallet e
  | transferHeld {row} : AskedByOwner setting w wallet row →
      Ledger.holdEvent e = some (row.id, .held row.amountMinor) → Authorized setting w wallet e
  | transferred {row} : AskedByOwner setting w wallet row →
      Consumes w wallet e row.id row.amountMinor → Authorized setting w wallet e

/-! ### The commands of the ledger -/

/-- The command of a thread of the ledger is a public one of an owner, or one that was sent. -/
def Commanded (setting : Setting) (w : World) : Prop :=
  ∀ j job, w.ledger.world.jobs j = some job →
    (isPublic job.command = true ∧ setting.owners job.command) ∨
    ∃ request ∈ w.sent, job.command = request.command

lemma LedgerChange.commanded (h : LedgerChange setting w w') (hw : Commanded setting w) :
    Commanded setting w' := by
  cases h with
  | @same l hworld =>
    change ∀ j job, l.world.jobs j = some job → _
    rw [hworld]
    exact hw
  | @commit l c _ _ _ _ _ hworld =>
    change ∀ j job, l.world.jobs j = some job → _
    rw [hworld]
    exact hw
  | owner hpublic howner =>
    intro j job hjob
    rcases startLedger_jobs hjob with heq | hold
    · exact .inl ⟨heq ▸ hpublic, heq ▸ howner⟩
    · exact hw j job hold
  | deliver hrequest =>
    intro j job hjob
    rcases startLedger_jobs hjob with heq | hold
    · exact .inr ⟨_, List.mem_of_getElem? hrequest, heq⟩
    · exact hw j job hold

/-- Every command of the ledger has its cause, in every reachable state. -/
lemma reaches_commanded {s : System}
    (hs : Reaches (payments setting) (Sys.init (.initial users)) s) : Commanded setting s.world := by
  refine reaches_invariant (P := Commanded setting) (reaches_ok .refl) (fun _ _ h => nomatch h)
    (fun _ _ _ _ hw _ _ _ _ => hw) (fun w command _ hw _ j job hjob => ?_)
    (fun _ _ _ _ _ hw _ _ _ => hw) (fun _ _ _ hw hledger => hledger.commanded hw) hs
  rcases hw j job hjob with howner | ⟨request, hrequest, heq⟩
  · exact .inl howner
  · exact .inr ⟨request, List.mem_append_left _ hrequest, heq⟩

/-- A run of both services is a run of the ledger. -/
lemma reaches_ledgerRun {s s' : System} (hok : s.Ok (payments setting) (paymentsProtocol setting))
    (hs : Reaches (payments setting) s s') :
    Reaches (Ledger.ledger setting.ledger) s.world.ledger s'.world.ledger := by
  refine Sys.Ok.invariant (P := fun w : World =>
    Reaches (Ledger.ledger setting.ledger) s.world.ledger w.ledger)
    (payments_sound setting) (fun _ _ _ hw _ _ => hw) (fun w i q t w' _ hw _ hissue => ?_)
    (fun w i p w' _ hw hst => ?_) (fun _ _ _ hw henv => hw.trans henv.reaches) hok .refl hs
  · rw [issue_ledger hissue]
    exact hw
  · obtain ⟨-, _, _, -, -, -, rfl⟩ := hst
    exact hw

/-- The ledger of a reachable state is a reachable ledger. -/
lemma reaches_ledger {s : System} (hs : Reaches (payments setting) (Sys.init (.initial users)) s) :
    Reaches (Ledger.ledger setting.ledger) (Sys.init (.initial users)) s.world.ledger :=
  reaches_ledgerRun (s := Sys.init (.initial users)) (reaches_ok .refl) hs

/-! ### From the events to the commands -/

section Events

variable {wallet : Ledger.Wallet} {e : Ledger.StoredEvent}

/-- A public command of the ledger is one that an owner gave. -/
lemma Commanded.ownerGave (h : Commanded setting w) (htraffic : Traffic w)
    {j : Nat} {job : Ledger.Job} {command : Ledger.Command}
    (hjob : w.ledger.world.jobs j = some job) (hcommand : job.command = command)
    (hpublic : isPublic command = true) : OwnerGave setting w command := by
  subst hcommand
  rcases h j job hjob with ⟨-, howner⟩ | ⟨request, hrequest, heq⟩
  · exact ⟨howner, j, job, hjob, rfl⟩
  · -- requests are not public commands
    have hsend := htraffic.sent request hrequest
    rw [← heq] at hsend
    generalize job.command = command at hsend hpublic
    cases hsend <;> cases hpublic

/-- An internal command of the ledger is one that may be sent. -/
lemma Commanded.sendable (h : Commanded setting w) (htraffic : Traffic w) {j : Nat}
    {job : Ledger.Job} (hjob : w.ledger.world.jobs j = some job)
    (hpublic : isPublic job.command = false) : Sendable w job.command := by
  rcases h j job hjob with ⟨hpublic', -⟩ | ⟨request, hrequest, heq⟩
  · rw [hpublic] at hpublic'
    cases hpublic'
  · exact heq ▸ htraffic.sent request hrequest

/-- The payer of a command is the sender of its transfer. -/
lemma Asks.payer {config : Config} {db : Database} {command : Command}
    {canonical : CanonicalTransferRequest} {key : String} (h : Asks config db command canonical key) :
    command.payer = some canonical.senderUserId := by
  cases h with
  | create _ hcanonical =>
    obtain ⟨n, -, hcanonical⟩ := except_bind_ok.mp hcanonical
    obtain rfl := Except.ok.inj hcanonical
    rfl
  | sharePayment => rfl
  | payShare => rfl

/-- The hold of a transfer that can be asked for. -/
lemma Sendable.hold_cases {command : Ledger.Command} {t : String}
    {dto : Ledger.HoldInternalTransferDto} (h : Sendable w command)
    (hcommand : command = .placeTransferHold t dto) :
    ∃ row ∈ w.db.transfers, row.id = t ∧ dto =
      { senderUserId := row.senderUserId, senderWalletId := row.senderWalletId,
        amount := amount row.amountMinor } := by
  cases h with
  | placeHold hrow =>
    obtain ⟨rfl, rfl⟩ := Ledger.Command.placeTransferHold.inj hcommand
    exact ⟨_, hrow, rfl, rfl⟩
  | validate => cases hcommand
  | settle => cases hcommand
  | release => cases hcommand

lemma toMinorUnits_amount {message : String} {n m : Int}
    (h : Ledger.toMinorUnits message (amount n) = .ok m) : m = n := by
  have hround := Ledger.toMinorUnits_eq h
  rw [amount, div_mul_cancel₀ _ (by norm_num), mathRound_intCast] at hround
  exact hround.symm

/-- The two commands that place a hold. -/
lemma places_cases {command : Ledger.Command} {walletId ownerId holdId : String} {amount : ℚ}
    (h : command.Places walletId ownerId holdId amount) :
    command = .placeHold walletId ownerId holdId amount ∨
      ∃ dto, command = .placeTransferHold holdId dto ∧ dto.senderWalletId = walletId ∧
        dto.senderUserId = ownerId ∧ dto.amount = amount := by
  cases h with
  | placeHold => exact .inl rfl
  | placeTransferHold => exact .inr ⟨_, rfl, rfl, rfl, rfl⟩

/-- The event of a change takes what the change takes. -/
lemma Takes.of_shows {db : Ledger.Database} {c : Ledger.Change} (h : Takes wallet e)
    (hshows : Ledger.Shows db wallet c e) :
    (∃ n ∈ c.postings, n < 0) ∨ ∃ holdId n, c.action = some (holdId, .held n) := by
  rwa [Takes, hshows.postings_eq, hshows.holdEvent_eq] at h

/-- A transfer that its sender asked for. -/
lemma Requested.askedByOwner (h : Requested setting.config w) {row : Transfer}
    (hrow : row ∈ w.db.transfers) (hid : row.senderWalletId = wallet.id)
    (howner : row.senderUserId = wallet.ownerId) : AskedByOwner setting w wallet row := by
  obtain ⟨-, i, job, hjob, hasks⟩ := h row hrow
  exact ⟨hrow, hid, i, job, hjob, by rw [hasks.payer, ← howner]; rfl, hasks⟩

/-- An event that shows how a hold is consumed. -/
lemma Consumes.of_shows {holdId transactionId : String} {n : Int}
    (h : Ledger.Shows w.ledger.world.db wallet (.consumed holdId n transactionId) e) :
    Consumes w wallet e holdId n := by
  refine ⟨h.holdEvent_eq, h.postings_eq, ?_⟩
  obtain ⟨e', he', hheld⟩ := List.mem_filterMap.mp
    (show (holdId, Ledger.HoldAction.held n) ∈ Ledger.holdLog _ from h.backed)
  exact ⟨e', he', hheld⟩

/-- A change of a command that takes funds out of the wallet is authorized. -/
lemma Authorized.of_change (hcommanded : Commanded setting w) (htraffic : Traffic w)
    (hrequested : Requested setting.config w) {j : Nat} {job : Ledger.Job} {c : Ledger.Change}
    (hjob : w.ledger.world.jobs j = some job)
    (hmade : c.MadeBy (job.draw 0) wallet.id wallet.ownerId job.command)
    (hshows : Ledger.Shows w.ledger.world.db wallet c e) (htakes : Takes wallet e) :
    Authorized setting w wallet e := by
  have htaken := htakes.of_shows hshows
  generalize hcommand : job.command = command at hmade
  cases hmade with
  | deposited hn =>
    have hpositive := Ledger.toMinorUnits_pos hn
    simp [Ledger.Change.postings, Ledger.Change.action] at htaken
    omega
  | withdrawn hn =>
    exact .withdrawn (hcommanded.ownerGave htraffic hjob hcommand rfl) hn hshows.postings_eq
  | @held _ holdId amount n hplaces hn =>
    rcases places_cases hplaces with rfl | ⟨dto, rfl, hid, howner, rfl⟩
    · exact .held (hcommanded.ownerGave htraffic hjob hcommand rfl) hn hshows.holdEvent_eq
    · have hsend := hcommanded.sendable htraffic hjob (by rw [hcommand]; rfl)
      obtain ⟨row, hrow, rfl, rfl⟩ := hsend.hold_cases hcommand
      obtain rfl := toMinorUnits_amount hn
      exact .transferHeld (hrequested.askedByOwner hrow hid howner) hshows.holdEvent_eq
  | released => simp [Ledger.Change.postings, Ledger.Change.action] at htaken
  | consumed =>
    exact .consumed (hcommanded.ownerGave htraffic hjob hcommand rfl) (.of_shows hshows)

/-- A settlement debits the wallet of a transfer that its owner asked for. -/
lemma Authorized.of_debit (hcommanded : Commanded setting w) (htraffic : Traffic w)
    (hrequested : Requested setting.config w) {j : Nat} {job : Ledger.Job} {transferId : String}
    {dto : Ledger.SettleInternalTransferDto} {n : Int} (hjob : w.ledger.world.jobs j = some job)
    (hcommand : job.command = .settleTransfer transferId dto)
    (hid : dto.senderWalletId = wallet.id) (howner : dto.senderUserId = wallet.ownerId)
    (hn : Ledger.toPositiveMinorUnits dto.amount = .ok n)
    (hshows : Ledger.Shows w.ledger.world.db wallet (.consumed transferId n transferId) e) :
    Authorized setting w wallet e := by
  have hsend := hcommanded.sendable htraffic hjob (by rw [hcommand]; rfl)
  obtain ⟨row, hrow, receiverWalletId, rfl, -, rfl, -⟩ := hsend.settle_cases hcommand
  obtain rfl := toPositiveMinorUnits_amount hn
  exact .transferred (hrequested.askedByOwner hrow hid howner) (.of_shows hshows)

end Events

/-- In every reachable state of both services: an event that takes funds out of a wallet comes from a
public command of the wallet's owner, or from a transfer that the owner asked for; and it takes the
amount that was asked for. -/
theorem debits_authorized (setting : Setting) (users : List Ledger.User) {s : System}
    (hs : Reaches (payments setting) (Sys.init (.initial users)) s) {wallet : Ledger.Wallet}
    (hwallet : wallet ∈ s.world.ledger.world.db.wallets) {e : Ledger.StoredEvent}
    (he : e ∈ s.world.ledger.world.db.stream wallet.id) (htakes : Takes wallet e) :
    Authorized setting s.world wallet e := by
  have hcommanded := reaches_commanded hs
  have htraffic := reaches_traffic hs
  have hrequested := reaches_requested hs
  obtain ⟨c, -, job, hjob, -, horigin⟩ :=
    Ledger.reaches_sourced (reaches_ledger hs) wallet hwallet e he
  cases horigin with
  | created _ htype =>
    exfalso
    rcases htakes with ⟨n, hn, -⟩ | ⟨holdId, n, hheld⟩
    · simp [Ledger.ownPostings, htype, Ledger.WALLET_CREATED, Ledger.MONEY_DEPOSITED,
        Ledger.WITHDRAWAL_COMPLETED, Ledger.HOLD_CONSUMED] at hn
    · simp [Ledger.holdEvent, htype, Ledger.WALLET_CREATED, Ledger.FUNDS_HELD,
        Ledger.HOLD_RELEASED, Ledger.HOLD_CONSUMED] at hheld
  | changed hmade hshows => exact .of_change hcommanded htraffic hrequested hjob hmade hshows htakes
  | debited hcommand hid howner hn hshows =>
    exact .of_debit hcommanded htraffic hrequested hjob hcommand hid howner hn hshows
  | credited _ _ hn hshows =>
    have hpositive := Ledger.toMinorUnits_pos hn
    have htaken := htakes.of_shows hshows
    simp [Ledger.Change.postings, Ledger.Change.action] at htaken
    omega

/-- The settlement of `t` takes four dollars from Ann, who has asked for it. -/
theorem debits_authorized_ann : ∃ s,
    Reaches (payments scripted) (Sys.init (.initial Ledger.annAndBob)) s ∧
      ∃ wallet ∈ s.world.ledger.world.db.wallets,
        ∃ e ∈ s.world.ledger.world.db.stream wallet.id,
          wallet.ownerId = "ann" ∧ -400 ∈ Ledger.ownPostings wallet.id e ∧
            Authorized scripted s.world wallet e := by
  obtain ⟨s, hs, hp⟩ := scriptedRun.exists_reaches Ledger.annAndBob (opening ++ settling)
    (fun s => s.world.ledger.world.db.wallets.any fun wallet =>
      (s.world.ledger.world.db.stream wallet.id).any fun e =>
        wallet.ownerId = "ann" ∧ -400 ∈ Ledger.ownPostings wallet.id e) (by decide +kernel)
  obtain ⟨wallet, hwallet, hp⟩ := List.any_eq_true.mp hp
  obtain ⟨e, he, hp⟩ := List.any_eq_true.mp hp
  obtain ⟨howner, hposting⟩ := of_decide_eq_true hp
  exact ⟨s, hs, wallet, hwallet, e, he, howner, hposting,
    debits_authorized scripted _ hs hwallet he (.inl ⟨-400, hposting, by norm_num⟩)⟩

end Payments

end PeerLedger
