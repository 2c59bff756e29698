import PeerLedger.Ledger.Soundness

/-!
# Where the events of a wallet come from

Every event in the stream of a wallet was recorded by the commit of a command, and `Origin` says what
the command had to be: one that creates wallets, one that names the wallet together with its owner, or
a settlement that names it as the sender's with its owner, or as the receiver's.
-/

namespace PeerLedger

namespace Ledger

open Transactions WalletAggregate

/-- Funds that a change takes out of a hold were put under it before. -/
def Change.Backed (log : List (String × HoldAction)) : Change → Prop
  | consumed holdId n _ => (holdId, .held n) ∈ log
  | _ => True

/-- An event of the wallet is that of a change, and the events before it back the change. -/
structure Shows (db : Database) (wallet : Wallet) (c : Change) (e : StoredEvent) : Prop where
  event : ∃ eventId version now, e = nextEvent wallet.id version (c.event wallet.id eventId) now
  holdEvent_eq : holdEvent e = c.action
  backed : c.Backed (holdLog (db.stream wallet.id))

/-- The command of `job` accounts for an event of the wallet. -/
inductive Origin (db : Database) (job : Job) (wallet : Wallet) (e : StoredEvent) : Prop
  | created : job.command.Creates → e.eventType = WALLET_CREATED → Origin db job wallet e
  | changed {c : Change} : c.MadeBy (job.draw 0) wallet.id wallet.ownerId job.command →
      Shows db wallet c e → Origin db job wallet e
  | debited {transferId dto n} : job.command = .settleTransfer transferId dto →
      dto.senderWalletId = wallet.id → dto.senderUserId = wallet.ownerId →
      toPositiveMinorUnits dto.amount = .ok n →
      Shows db wallet (.consumed transferId n transferId) e → Origin db job wallet e
  | credited {transferId dto n} : job.command = .settleTransfer transferId dto →
      dto.receiverWalletId = wallet.id →
      toPositiveMinorUnits (dto.destinationAmount.getD dto.amount) = .ok n →
      Shows db wallet (.deposited n transferId) e → Origin db job wallet e

/-- Every event of a wallet was recorded by a commit whose command accounts for it. -/
def Sourced (w : LedgerWorld) : Prop :=
  ∀ wallet ∈ w.db.wallets, ∀ e ∈ w.db.stream wallet.id, ∃ c ∈ w.log, ∃ job,
    w.jobs c.thread = some job ∧ e ∈ insertedEvents c.writes ∧ Origin w.db job wallet e

/-- Amounts are positive. -/
lemma toMinorUnits_pos {message : String} {amount : ℚ} {n : Int}
    (h : toMinorUnits message amount = .ok n) : 0 < n := by
  rw [toMinorUnits] at h
  split at h
  · cases h
  · split at h
    · cases h
    · exact Except.ok.inj h ▸ not_le.mp ‹_›

section Shows

variable {db db' : Database} {wallet : Wallet} {c : Change} {e : StoredEvent}

lemma Change.Backed.mono {log log' : List (String × HoldAction)} (h : c.Backed log)
    (hsub : log ⊆ log') : c.Backed log' := by
  cases c with
  | consumed holdId n t => exact hsub h
  | _ => trivial

lemma Shows.postings_eq (h : Shows db wallet c e) : ownPostings wallet.id e = c.postings := by
  obtain ⟨eventId, version, now, rfl⟩ := h.event
  exact ownPostings_change c wallet.id wallet.id version

lemma Shows.grows {locked : List Lock} (h : Shows db wallet c e) (hg : db.Grows locked db') :
    Shows db' wallet c e := by
  refine ⟨h.event, h.holdEvent_eq, h.backed.mono ?_⟩
  obtain ⟨more, hmore⟩ := hg.stream wallet.id
  rw [← hmore, holdLog, holdLog, List.filterMap_append]
  exact List.subset_append_left _ _

lemma Origin.grows {locked : List Lock} {job : Job} (h : Origin db job wallet e)
    (hg : db.Grows locked db') : Origin db' job wallet e := by
  cases h with
  | created hcreates htype => exact .created hcreates htype
  | changed hmade hshows => exact .changed hmade (hshows.grows hg)
  | debited hcommand hid howner hn hshows => exact .debited hcommand hid howner hn (hshows.grows hg)
  | credited hcommand hid hn hshows => exact .credited hcommand hid hn (hshows.grows hg)

/-- The event of a change that is made shows it. -/
lemma Makes.shows {a : WalletAggregate} {eventId : String} {now : Int}
    (h : Makes db wallet a c eventId now) :
    Shows db wallet c (nextEvent wallet.id a.version (c.event wallet.id eventId) now) := by
  refine ⟨⟨eventId, a.version, now, rfl⟩, h.holdEvent_eq, ?_⟩
  cases c with
  | consumed holdId n t =>
    -- the hold is active, and so the history has placed it
    have hactive : a.holds.lookup holdId = some ⟨n, .active⟩ := h.allowed
    have hactions := (rehydrate_replayed h.recorded.rehydrated).actions holdId
    rw [hactive] at hactions
    have hmem : HoldAction.held n ∈ holdActions holdId (holdLog (db.stream wallet.id)) := by
      rw [hactions]
      exact List.mem_singleton_self _
    obtain ⟨⟨key, action⟩, hentry, rfl⟩ := List.mem_map.mp hmem
    obtain ⟨hlog, hkey⟩ := List.mem_filter.mp hentry
    obtain rfl : key = holdId := of_decide_eq_true hkey
    exact hlog
  | _ => trivial

end Shows

section Settlement

variable {db : Database} {transferId currency : String} {dto : SettleInternalTransferDto}
variable {n d : Int} {draw : Draw} {reply : Reply} {ws : List Write}

/-- A settlement that is not yet done looks for the sender's wallet by its id and its owner. -/
lemma settleTransferAttempt_sender
    (h : (settleTransferAttempt transferId dto n d currency draw).alone db [] = .ok (reply, ws))
    (hnone : db.settlementOf transferId = none) :
    ∃ sender ∈ db.wallets, sender.id = dto.senderWalletId ∧ sender.ownerId = dto.senderUserId := by
  rw [settleTransferAttempt_eq, Tx.alone_bind, Tx.alone_query, view_nil, hnone] at h
  simp only [Except.bind, Tx.alone_bind, Tx.alone_query, view_nil] at h
  cases hfind : db.wallets.find? fun wallet => wallet.id = dto.senderWalletId ∧
      wallet.ownerId = dto.senderUserId ∧ wallet.currency = dto.currency with
  | none =>
    rw [hfind] at h
    cases h
  | some sender =>
    have hfound := List.find?_some hfind
    simp only [decide_eq_true_eq] at hfound
    exact ⟨sender, List.mem_of_find?_eq_some hfind, hfound.1, hfound.2.1⟩

/-- The owner of the wallet that a settlement debits gave the settlement's user id. -/
lemma Settles.sender_owner {job : Job} {body : LedgerTx Reply} {receipt : LedgerTransferSettlement}
    {sender receiver : Wallet} {s s' r r' : WalletAggregate} {debit credit : StoredEvent}
    (h : Settles db transferId dto receipt sender receiver s s' r r' debit credit)
    (hc : Consistent db) (hcommand : job.command = .settleTransfer transferId dto)
    (hattempt : job.command.Attempts job.draw body) (hserial : Serial job.command db body ws) :
    sender.ownerId = dto.senderUserId := by
  rw [hcommand] at hattempt hserial
  rcases hserial with ⟨-, _, _, hrelease⟩ | ⟨reply, halone⟩
  · cases hrelease
  cases hattempt with
  | hold hruns =>
    cases hruns with
    | place hplaces => cases hplaces
    | release hreleases => cases hreleases
  | create hcreates => cases hcreates
  | settle hn hd =>
    have hnone : db.settlementOf transferId = none :=
      List.find?_eq_none.mpr fun row hrow => by simpa using h.unsettled row hrow
    obtain ⟨wallet, hwallet, hid, howner⟩ := settleTransferAttempt_sender halone hnone
    -- ids of wallets are unique
    have hsame := List.inj_on_of_nodup_map hc.walletIds hwallet h.debit_recorded.wallet_mem
      (hid.trans (h.dto_matches.1.symm.trans h.sender_id.symm))
    exact hsame ▸ howner

end Settlement

section Commit

variable {db : Database} {job : Job} {body : LedgerTx Reply} {ws : List Write}

/-- The command of a commit accounts for the events that it records. -/
lemma Effect.origin (heffect : Effect job.draw job.startDb db job.command ws) (hc : Consistent db)
    (hattempt : job.command.Attempts job.draw body) (hserial : Serial job.command db body ws)
    {wallet : Wallet} (hwallet : wallet ∈ (view db ws).wallets) {e : StoredEvent}
    (he : e ∈ insertedEvents ws) (hstream : e.streamId = wallet.id) :
    Origin (view db ws) job wallet e := by
  have hids := (heffect.consistent hc).walletIds
  have hgrows : db.Grows [] (view db ws) := .of_writes db ws
  -- the wallet of an event is the one with its stream
  have hunique : ∀ {other : Wallet}, other ∈ db.wallets → e.streamId = other.id →
      other = wallet := by
    intro other hother hid
    refine List.inj_on_of_nodup_map hids ?_ hwallet (hid.symm.trans hstream)
    rw [wallets_view]
    exact List.mem_append_left _ hother
  generalize hcommand : job.command = command at heffect
  cases heffect with
  | noop _ => cases he
  | created hcreates =>
    obtain rfl := List.mem_singleton.mp (show e ∈ [_] from he)
    exact .created (hcommand ▸ hcreates) rfl
  | @recorded _ other a a' event now carrier hdecides hrecorded =>
    obtain rfl := List.mem_singleton.mp (show e ∈ [_] from he)
    obtain rfl := hunique hrecorded.wallet_mem rfl
    obtain ⟨c, hmade, rfl, -, hmakes⟩ := hdecides.makes hrecorded
    exact .changed (hcommand ▸ hmade) (hmakes.shows.grows hgrows)
  | @settled transferId dto receipt sender receiver s s' r r' debit credit carrier hsettles =>
    obtain ⟨hsender, hreceiver, hn, -, hd, -⟩ := hsettles.dto_matches
    obtain ⟨_, _, -, hdebit, hdebits⟩ := hsettles.debit_makes
    obtain ⟨_, _, -, hcredit, hcredits⟩ := hsettles.credit_makes
    rcases List.mem_pair.mp (show e ∈ [debit, credit] from he) with rfl | rfl
    · obtain rfl := hunique hsettles.debit_recorded.wallet_mem hsettles.debit_recorded.streamId
      refine .debited hcommand (hsender.symm.trans hsettles.sender_id.symm)
        (hsettles.sender_owner hc hcommand hattempt hserial).symm hn ?_
      exact Shows.grows (by rw [hdebit]; exact hdebits.shows) hgrows
    · obtain rfl := hunique hsettles.credit_recorded.wallet_mem hsettles.credit_recorded.streamId
      refine .credited hcommand (hreceiver.symm.trans hsettles.receiver_id.symm) hd ?_
      exact Shows.grows (by rw [hcredit]; exact hcredits.shows) hgrows

/-- Every commit keeps the sources. -/
lemma Sourced.commit {w : LedgerWorld} {c : LedgerCommit} (h : Sourced w) (hc : Consistent w.db)
    (hjob : w.jobs c.thread = some job) (hattempt : job.command.Attempts job.draw c.body)
    (heffect : Effect job.draw job.startDb w.db job.command c.writes)
    (hserial : Serial job.command w.db c.body c.writes) : Sourced (w.commit c) := by
  intro wallet hwallet e he
  change wallet ∈ (view w.db c.writes).wallets at hwallet
  change e ∈ (view w.db c.writes).stream wallet.id at he
  rw [stream_view] at he
  rcases List.mem_append.mp he with hold | hnew
  · -- an event that was there has its wallet from before
    obtain ⟨hevent, hid⟩ := List.mem_filter.mp hold
    obtain ⟨other, hother, hotherId⟩ := hc.streams e hevent
    have hmem : other ∈ (view w.db c.writes).wallets := by
      rw [wallets_view]
      exact List.mem_append_left _ hother
    obtain rfl := List.inj_on_of_nodup_map (heffect.consistent hc).walletIds hmem hwallet
      (hotherId.trans (of_decide_eq_true hid))
    obtain ⟨c', hc', job', hjob', hinserted, horigin⟩ := h other hother e hold
    exact ⟨c', List.mem_append_left _ hc', job', hjob', hinserted,
      horigin.grows (.of_writes w.db c.writes)⟩
  · obtain ⟨hinserted, hid⟩ := List.mem_filter.mp hnew
    exact ⟨c, List.mem_append_right _ (List.mem_singleton_self c), job, hjob, hinserted,
      heffect.origin hc hattempt hserial hwallet hinserted (of_decide_eq_true hid)⟩

end Commit

/-- Every event of a wallet has its source, in every reachable state. -/
lemma reaches_sourced {setting : Setting} {users : List User} {s : LedgerSys}
    (hs : Reaches (ledger setting) (Sys.init (.initial users)) s) : Sourced s.world := by
  refine reaches_invariant (P := Sourced) (reaches_ok .refl) (fun _ h => nomatch h)
    (fun w c job hinv hw _ hjob _ hattempt heffect hserial =>
      hw.commit hinv.1 hjob hattempt heffect hserial)
    (fun w i command draw hinv hw hnone _ wallet hwallet e he => ?_) hs
  obtain ⟨c, hc, job, hjob, hrest⟩ := hw wallet hwallet e he
  exact ⟨c, hc, job, (jobs_start hinv hnone hc).trans hjob, hrest⟩

end Ledger

end PeerLedger
