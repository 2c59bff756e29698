import PeerLedger.Messaging.Encoding
import PeerLedger.Ledger.Provenance

/-!
# What the ledger puts into its outbox

In every reachable state each message of the ledger's outbox reports an event of a wallet's stream, and
the payload of every event is a value that JSON has (`reaches_reported`).
-/

namespace PeerLedger

namespace Ledger

open Transactions WalletAggregate

/-- The message reports an event of a wallet. -/
def Reports (db : Database) (message : OutboxMessage) : Prop :=
  ∃ wallet ∈ db.wallets, ∃ e ∈ db.stream wallet.id, ∃ carrier,
    message = outboxMessage e wallet carrier

/-- Every message reports an event of a wallet, and every event can be written as JSON. -/
structure Reported (db : Database) : Prop where
  representable : ∀ e ∈ db.events, e.payload.Representable
  messages : ∀ message ∈ db.outbox, Reports db message

/-! ### Payloads -/

lemma Posting.representable (p : Posting) : p.toJson.Representable := by
  have hkeys : ["accountId", "amountMinor"].Nodup := by decide
  refine .obj hkeys ?_
  simp only [List.forall_mem_cons, List.not_mem_nil, false_implies, implies_true, and_true]
  exact ⟨.str _, .str _⟩

lemma representable_postings (postings : List Posting) :
    (Json.arr (postings.map Posting.toJson)).Representable := by
  refine .arr fun x hx => ?_
  obtain ⟨p, -, rfl⟩ := List.mem_map.mp hx
  exact p.representable

lemma representable_movementFields (walletId transactionId : String) (n : Int) :
    ∀ field ∈ Change.movementFields walletId n transactionId, field.2.Representable := by
  change ∀ field ∈ [("transactionId", Json.str transactionId),
    ("postings", Json.arr ((movement walletId n).map Posting.toJson))], field.2.Representable
  simp only [List.forall_mem_cons, List.not_mem_nil, false_implies, implies_true, and_true]
  exact ⟨.str _, representable_postings _⟩

/-- The payload of a change. -/
lemma Change.representable (c : Change) (walletId eventId : String) :
    (c.event walletId eventId).payload.Representable := by
  have hmoney : ["transactionId", "postings"].Nodup := by decide
  have hholds : ["holdId", "amountMinor"].Nodup := by decide
  have hreleases : ["holdId"].Nodup := by decide
  have hconsumes : ["holdId", "transactionId", "postings"].Nodup := by decide
  cases c with
  | deposited n t => exact .obj hmoney (representable_movementFields walletId t _)
  | withdrawn n t => exact .obj hmoney (representable_movementFields walletId t _)
  | held holdId n =>
    refine .obj hholds ?_
    simp only [List.forall_mem_cons, List.not_mem_nil, false_implies, implies_true, and_true]
    exact ⟨.str _, .str _⟩
  | released holdId n =>
    refine .obj hreleases ?_
    simp only [List.forall_mem_cons, List.not_mem_nil, false_implies, implies_true, and_true]
    exact .str _
  | consumed holdId n t =>
    exact .obj hconsumes (List.forall_mem_cons.mpr
      ⟨.str _, representable_movementFields walletId t _⟩)

/-- The payload of the first event of a wallet. -/
lemma representable_created (eventId ownerId currency : String) :
    (createdEvent eventId ownerId currency).payload.Representable := by
  have hkeys : ["ownerId", "currencyCode"].Nodup := by decide
  refine .obj hkeys ?_
  simp only [List.forall_mem_cons, List.not_mem_nil, false_implies, implies_true, and_true]
  exact ⟨.str _, .str _⟩

/-! ### Commits -/

section Commit

variable {db : Database} {ws : List Write}

lemma Reports.view {message : OutboxMessage} (h : Reports db message) :
    Reports (view db ws) message := by
  obtain ⟨wallet, hwallet, e, he, hmessage⟩ := h
  refine ⟨wallet, ?_, e, ?_, hmessage⟩
  · rw [wallets_view]
    exact List.mem_append_left _ hwallet
  · rw [stream_view]
    exact List.mem_append_left _ he

/-- A commit whose messages report the events that it inserts. -/
lemma Reported.view (h : Reported db)
    (hevents : ∀ e ∈ insertedEvents ws, e.payload.Representable)
    (hmessages : ∀ message ∈ insertedOutbox ws, ∃ wallet ∈ (view db ws).wallets,
      ∃ e ∈ insertedEvents ws, e.streamId = wallet.id ∧
        ∃ carrier, message = outboxMessage e wallet carrier) : Reported (view db ws) := by
  refine ⟨fun e he => ?_, fun message hmessage => ?_⟩
  · rw [events_view] at he
    rcases List.mem_append.mp he with he | he
    · exact h.representable e he
    · exact hevents e he
  · rw [outbox_view] at hmessage
    rcases List.mem_append.mp hmessage with hmessage | hmessage
    · exact (h.messages message hmessage).view
    · obtain ⟨wallet, hwallet, e, he, hid, hreport⟩ := hmessages message hmessage
      refine ⟨wallet, hwallet, e, ?_, hreport⟩
      rw [stream_view]
      exact List.mem_append_right _ (List.mem_filter.mpr ⟨he, decide_eq_true hid⟩)

/-- Every commit of a command keeps the outbox. -/
lemma Effect.reported {job : Job} (heffect : Effect job.draw job.startDb db job.command ws)
    (h : Reported db) : Reported (Transactions.view db ws) := by
  generalize job.command = command at heffect
  cases heffect with
  | noop _ => exact h.view (fun _ he => nomatch he) fun _ hm => nomatch hm
  | @created _ wallet eventId now carrier =>
    refine h.view (fun e he => ?_) fun message hmessage => ?_
    · obtain rfl := List.mem_singleton.mp (show e ∈ [_] from he)
      exact representable_created eventId _ _
    · obtain rfl := List.mem_singleton.mp (show message ∈ [_] from hmessage)
      refine ⟨wallet, ?_, _, List.mem_singleton_self _, rfl, carrier, rfl⟩
      rw [wallets_view]
      exact List.mem_append_right _ (List.mem_singleton_self _)
  | @recorded _ wallet a a' event now carrier hdecides hrecorded =>
    obtain ⟨c, -, rfl, -, -⟩ := hdecides.makes hrecorded
    refine h.view (fun e he => ?_) fun message hmessage => ?_
    · obtain rfl := List.mem_singleton.mp (show e ∈ [_] from he)
      exact c.representable _ _
    · obtain rfl := List.mem_singleton.mp (show message ∈ [_] from hmessage)
      refine ⟨wallet, ?_, _, List.mem_singleton_self _, rfl, carrier, rfl⟩
      rw [wallets_view]
      exact List.mem_append_left _ hrecorded.wallet_mem
  | @settled transferId dto receipt sender receiver s s' r r' debit credit carrier hsettles =>
    obtain ⟨debitId, _, -, hdebit, -⟩ := hsettles.debit_makes
    obtain ⟨creditId, _, -, hcredit, -⟩ := hsettles.credit_makes
    have hwallets : sender ∈ (Transactions.view db (settlementWrites sender receiver debit credit s' r'
        carrier receipt)).wallets ∧ receiver ∈ (Transactions.view db (settlementWrites sender receiver
        debit credit s' r' carrier receipt)).wallets := by
      rw [wallets_view]
      exact ⟨List.mem_append_left _ hsettles.debit_recorded.wallet_mem,
        List.mem_append_left _ hsettles.credit_recorded.wallet_mem⟩
    refine h.view (fun e he => ?_) fun message hmessage => ?_
    · rcases List.mem_pair.mp (show e ∈ [debit, credit] from he) with rfl | rfl
      · rw [hdebit]
        exact Change.representable (.consumed _ _ _) sender.id debitId
      · rw [hcredit]
        exact Change.representable (.deposited _ _) receiver.id creditId
    · rcases List.mem_pair.mp (show message ∈ [_, _] from hmessage) with rfl | rfl
      · exact ⟨sender, hwallets.1, debit, List.mem_cons_self, hsettles.debit_recorded.streamId,
          carrier, rfl⟩
      · exact ⟨receiver, hwallets.2, credit, List.mem_cons_of_mem _ List.mem_cons_self,
          hsettles.credit_recorded.streamId, carrier, rfl⟩

end Commit

/-- The versions of a stream start with 1. -/
lemma Contiguous.one_le {events : List StoredEvent} (h : Contiguous events) {e : StoredEvent}
    (he : e ∈ events) : 1 ≤ e.streamVersion := by
  have hmem : e.streamVersion ∈ events.map (·.streamVersion) := List.mem_map_of_mem he
  rw [h.versions] at hmem
  obtain ⟨k, -, hk⟩ := List.mem_map.mp hmem
  omega

/-- In every reachable state the outbox reports events of wallets. -/
lemma reaches_reported {setting : Setting} {users : List User} {s : LedgerSys}
    (hs : Reaches (ledger setting) (Sys.init (.initial users)) s) : Reported s.world.db :=
  reaches_invariant (P := fun w => Reported w.db) (reaches_ok .refl)
    ⟨(fun _ h => nomatch h), fun _ h => nomatch h⟩
    (fun _ _ _ _ hw _ _ _ _ heffect _ => heffect.reported hw) (fun _ _ _ _ _ hw _ _ => hw) hs

end Ledger

end PeerLedger
