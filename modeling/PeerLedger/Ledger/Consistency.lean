import PeerLedger.Ledger.Changes

/-!
# The invariant of the ledger's tables

`Consistent` is the invariant of the committed tables: streams are contiguous, every wallet has one
projection row, which agrees with the replayed stream, and every event has its outbox message and posts
to no other wallet.  `Effect.consistent` shows that every effect keeps it.

An id that is spelled otherwise than the database prints it names the same wallet, but not the same
account: under such an id a stream is not replayed beyond its first event (`rehydrate_other`).
-/

namespace PeerLedger

namespace Ledger

open Transactions WalletAggregate

/-! ### The invariant of the committed tables -/

/-- The event posts to the account of no other wallet. -/
def PostsTo (walletId : String) (e : StoredEvent) : Prop :=
  ∀ postings, readPostings e.payload = .ok postings →
    ∀ other, other ≠ walletId → walletPostings other postings = []

/-- The committed tables agree with each other. -/
structure Consistent (db : Database) : Prop where
  gapFree : GapFree db
  walletIds : (db.wallets.map (·.id)).Nodup
  uuids : ∀ wallet ∈ db.wallets, uuid wallet.id = wallet.id
  streams : ∀ e ∈ db.events, ∃ wallet ∈ db.wallets, wallet.id = e.streamId
  postings : ∀ e ∈ db.events, PostsTo e.streamId e
  projected : db.projections.map (·.walletId) = db.wallets.map (·.id)
  aggregate : ∀ wallet ∈ db.wallets, ∃ a, rehydrate wallet.id (db.stream wallet.id) = .ok a ∧
    a.ownerId = some wallet.ownerId ∧ a.currency = some wallet.currency ∧
    projectionFromAggregate a ∈ db.projections
  outbox : db.outbox.map (·.eventId) = db.events.map (·.eventId)
  receipts : (db.settlements.map (·.transferId)).Nodup
  receiptWallets : ∀ receipt ∈ db.settlements,
    (∃ wallet ∈ db.wallets, wallet.id = receipt.senderWalletId) ∧
    ∃ wallet ∈ db.wallets, wallet.id = receipt.receiverWalletId

lemma Consistent.initial (users : List User) : Consistent (Database.initial users) where
  gapFree _ := Contiguous.nil
  walletIds := List.nodup_nil
  uuids := by simp [Database.initial]
  streams := by simp [Database.initial]
  postings := by simp [Database.initial]
  projected := rfl
  aggregate := by simp [Database.initial]
  outbox := rfl
  receipts := List.nodup_nil
  receiptWallets := by simp [Database.initial]

/-! ### The postings of events -/

/-- The first event of a wallet posts nothing. -/
lemma postsTo_created (walletId eventId ownerId currency : String) (now : Int) :
    PostsTo walletId (nextEvent walletId 0 (createdEvent eventId ownerId currency) now) :=
  fun _ h => nomatch h

/-- A movement posts to the account of its wallet and to the clearing account. -/
lemma postsTo_movement {walletId : String} {n : Int} {e : StoredEvent}
    {fields : List (String × Json)} (hpayload : e.payload = .obj fields)
    (h : fields.lookup "postings" = some (.arr ((movement walletId n).map Posting.toJson))) :
    PostsTo walletId e := by
  intro postings hread other hne
  rw [hpayload, readPostings_movement h] at hread
  obtain rfl := Except.ok.inj hread
  have haccount : walletAccountId walletId ≠ walletAccountId other :=
    fun heq => hne (walletAccountId_injective heq).symm
  simp [walletPostings, movement, haccount, walletAccountId_ne_external]

/-- A change posts to its wallet, if it posts anything. -/
lemma postsTo_change (c : Change) (streamId walletId eventId : String) (version now : Int) :
    PostsTo walletId (nextEvent streamId version (c.event walletId eventId) now) := by
  cases c with
  | deposited n transactionId => exact postsTo_movement (n := n) rfl rfl
  | withdrawn n transactionId => exact postsTo_movement (n := -n) rfl rfl
  | held holdId n => exact fun _ h => nomatch h
  | released holdId n => exact fun _ h => nomatch h
  | consumed holdId n transactionId => exact postsTo_movement (n := -n) rfl rfl

/-! ### What keeps the invariant -/

section Record

variable {db : Database} {wallet : Wallet} {a a' : WalletAggregate} {e : StoredEvent}
variable {carrier : TraceCarrier}

/-- Recording an event of a wallet keeps the tables consistent. -/
lemma Consistent.record (hc : Consistent db) (h : Recorded db wallet a e a')
    (hposts : PostsTo wallet.id e) : Consistent (view db (records wallet e a' carrier)) where
  gapFree streamId := by
    rw [stream_records h.streamId]
    split_ifs
    · exact h.contiguous
    · exact hc.gapFree streamId
  walletIds := hc.walletIds
  uuids := hc.uuids
  streams row hrow := by
    simp only [events_view, List.mem_append] at hrow
    rcases hrow with hrow | hrow
    · exact hc.streams row hrow
    · have : row = e := by simpa [records, insertedEvents] using hrow
      exact ⟨wallet, h.wallet_mem, by rw [this, h.streamId]⟩
  postings row hrow := by
    simp only [events_view, List.mem_append] at hrow
    rcases hrow with hrow | hrow
    · exact hc.postings row hrow
    · obtain rfl : row = e := by simpa [records, insertedEvents] using hrow
      rw [h.streamId]
      exact hposts
  projected := by
    have hmem : (projectionFromAggregate a').walletId ∈ db.projections.map (·.walletId) := by
      rw [hc.projected]
      exact List.mem_map.mpr ⟨wallet, h.wallet_mem, h.id_eq.symm⟩
    change (saveRow _ db.projections).map _ = _
    rw [map_walletId_saveRow, if_pos hmem]
    exact hc.projected
  aggregate other hother := by
    change other ∈ db.wallets at hother
    change ∃ b, _ ∧ _ ∧ _ ∧ _ ∈ saveRow _ db.projections
    rw [stream_records h.streamId]
    by_cases hid : other.id = wallet.id
    · obtain rfl := List.inj_on_of_nodup_map hc.walletIds hother h.wallet_mem hid
      rw [if_pos rfl]
      exact ⟨a', h.rehydrated_concat, h.identity_eq.1, h.identity_eq.2, mem_saveRow.mpr (.inl rfl)⟩
    · obtain ⟨b, hb, ho, hcur, hp⟩ := hc.aggregate other hother
      rw [if_neg hid]
      refine ⟨b, hb, ho, hcur, mem_saveRow.mpr (.inr ⟨hp, ?_⟩)⟩
      simpa [projectionFromAggregate, h.id_eq, (rehydrate_replayed hb).id] using hid
  outbox := by
    simp only [outbox_view, events_view, List.map_append, hc.outbox]
    rfl
  receipts := hc.receipts
  receiptWallets := hc.receiptWallets

end Record

/-- A receipt of a new transfer between two wallets keeps the tables consistent. -/
lemma Consistent.receipt {db : Database} (hc : Consistent db) {receipt : LedgerTransferSettlement}
    (hnew : ∀ row ∈ db.settlements, row.transferId ≠ receipt.transferId)
    (hs : ∃ wallet ∈ db.wallets, wallet.id = receipt.senderWalletId)
    (hr : ∃ wallet ∈ db.wallets, wallet.id = receipt.receiverWalletId) :
    Consistent (view db [Write.insertSettlement receipt]) where
  gapFree := hc.gapFree
  walletIds := hc.walletIds
  uuids := hc.uuids
  streams := hc.streams
  postings := hc.postings
  projected := hc.projected
  aggregate := hc.aggregate
  outbox := hc.outbox
  receipts := by
    change ((db.settlements ++ [receipt]).map _).Nodup
    rw [List.map_append, List.nodup_append]
    refine ⟨hc.receipts, by simp, fun x hx y hy => ?_⟩
    obtain ⟨row, hrow, rfl⟩ := List.mem_map.mp hx
    rw [List.map_singleton, List.mem_singleton] at hy
    exact hy ▸ hnew row hrow
  receiptWallets row hrow := by
    change row ∈ db.settlements ++ [receipt] at hrow
    rcases List.mem_append.mp hrow with hrow | hrow
    · exact hc.receiptWallets row hrow
    · rw [List.mem_singleton.mp hrow]
      exact ⟨hs, hr⟩

/-- A new wallet with its first event keeps the tables consistent. -/
lemma Consistent.created {db : Database} (hc : Consistent db) {wallet : Wallet} {eventId : String}
    {now : Int} {carrier : TraceCarrier} (hid : uuid wallet.id = wallet.id)
    (hfresh : ∀ row ∈ db.wallets, row.id ≠ wallet.id) (hempty : db.stream wallet.id = []) :
    Consistent (view db (creationWrites wallet eventId now carrier)) := by
  unfold creationWrites
  set e := nextEvent wallet.id 0
    (createdEvent eventId wallet.ownerId wallet.currency) now
  set a : WalletAggregate := { empty wallet.id with
    version := 1, ownerId := some wallet.ownerId, currency := some wallet.currency }
  have hstream : ∀ streamId, (view db (.insertWallet wallet :: records wallet e a carrier)).stream
      streamId = if streamId = wallet.id then [e] else db.stream streamId := fun streamId => by
    rw [view_cons, stream_records rfl]
    change (if streamId = wallet.id then db.stream wallet.id ++ [e] else db.stream streamId) = _
    rw [hempty, List.nil_append]
  have hprojection : (projectionFromAggregate a).walletId = wallet.id := rfl
  have hnot : wallet.id ∉ db.wallets.map (·.id) := fun hmem => by
    obtain ⟨row, hrow, hrid⟩ := List.mem_map.mp hmem
    exact hfresh row hrow hrid
  constructor
  case gapFree =>
    intro streamId
    rw [hstream]
    split_ifs
    · exact Contiguous.nil.concat rfl (by simp)
    · exact hc.gapFree streamId
  case walletIds =>
    change ((db.wallets ++ [wallet]).map _).Nodup
    rw [List.map_append, List.map_singleton, ← List.concat_eq_append]
    exact hc.walletIds.concat hnot
  case uuids =>
    intro row hrow
    change row ∈ db.wallets ++ [wallet] at hrow
    rcases List.mem_append.mp hrow with hrow | hrow
    · exact hc.uuids row hrow
    · rw [List.mem_singleton.mp hrow]
      exact hid
  case streams =>
    intro row hrow
    change row ∈ db.events ++ [e] at hrow
    change ∃ w ∈ db.wallets ++ [wallet], _
    rcases List.mem_append.mp hrow with hrow | hrow
    · obtain ⟨w, hw, hwid⟩ := hc.streams row hrow
      exact ⟨w, by simp [hw], hwid⟩
    · exact ⟨wallet, by simp, by rw [List.mem_singleton.mp hrow]; rfl⟩
  case postings =>
    intro row hrow
    change row ∈ db.events ++ [e] at hrow
    rcases List.mem_append.mp hrow with hrow | hrow
    · exact hc.postings row hrow
    · rw [List.mem_singleton.mp hrow]
      exact postsTo_created wallet.id eventId wallet.ownerId wallet.currency now
  case projected =>
    change (saveRow _ db.projections).map _ = (db.wallets ++ [wallet]).map _
    rw [map_walletId_saveRow, hc.projected, hprojection, if_neg hnot, List.map_append,
      List.map_singleton]
  case aggregate =>
    intro other hother
    change other ∈ db.wallets ++ [wallet] at hother
    change ∃ b, _ ∧ _ ∧ _ ∧ _ ∈ saveRow _ db.projections
    rw [hstream]
    rcases List.mem_append.mp hother with hother | hother
    · obtain ⟨b, hb, ho, hcur, hp⟩ := hc.aggregate other hother
      have hne := hfresh other hother
      rw [if_neg hne]
      refine ⟨b, hb, ho, hcur, mem_saveRow.mpr (.inr ⟨hp, ?_⟩)⟩
      rw [hprojection]
      exact fun h => hne ((rehydrate_replayed hb).id ▸ h)
    · obtain rfl := List.mem_singleton.mp hother
      rw [if_pos rfl]
      exact ⟨a, rehydrate_created other eventId now, rfl, rfl, mem_saveRow.mpr (.inl rfl)⟩
  case outbox =>
    simp only [outbox_view, events_view, List.map_append, hc.outbox]
    rfl
  case receipts => exact hc.receipts
  case receiptWallets =>
    intro row hrow
    obtain ⟨⟨s, hs, hsid⟩, r, hr, hrid⟩ := hc.receiptWallets row hrow
    change (∃ w ∈ db.wallets ++ [wallet], _) ∧ ∃ w ∈ db.wallets ++ [wallet], _
    exact ⟨⟨s, by simp [hs], hsid⟩, r, by simp [hr], hrid⟩

/-- Every effect keeps the tables consistent. -/
lemma Effect.consistent {draw : Nat → Draw} {startDb db : Database} {command : Command}
    {ws : List Write} (hc : Consistent db) (h : Effect draw startDb db command ws) :
    Consistent (view db ws) := by
  cases h with
  | noop _ => exact hc
  | created _ hid hfresh hempty => exact hc.created hid hfresh hempty
  | recorded hdecides h =>
    obtain ⟨c, -, rfl, rfl, hmakes⟩ := hdecides.makes h
    exact hc.record hmakes.recorded (postsTo_change c _ _ _ _ _)
  | @settled t dto receipt sender receiver s s' r r' debit credit carrier h =>
    rw [view_settlement]
    have hcredit := h.credit_recorded.frame h.debit_recorded.streamId h.distinct.symm s' carrier
    have hposts : PostsTo sender.id debit ∧ PostsTo receiver.id credit := by
      obtain ⟨_, _, -, rfl, -⟩ := h.debit_makes
      obtain ⟨_, _, -, rfl, -⟩ := h.credit_makes
      exact ⟨postsTo_change _ _ _ _ _ _, postsTo_change _ _ _ _ _ _⟩
    exact ((hc.record h.debit_recorded hposts.1).record hcredit hposts.2).receipt
      (by rw [h.transfer]; exact h.unsettled)
      ⟨sender, h.debit_recorded.wallet_mem, h.sender_id⟩
      ⟨receiver, h.credit_recorded.wallet_mem, h.receiver_id⟩

/-! ### Replays under another id -/

/-- A stream that posts to another wallet is not replayed beyond its first event. -/
lemma rehydrate_other {walletId other : String} {events : List StoredEvent} {a : WalletAggregate}
    (hne : other ≠ walletId) (hposts : ∀ e ∈ events, PostsTo walletId e)
    (h : rehydrate other events = .ok a) : a.balanceMinor = 0 ∧ a.holds = ∅ := by
  induction events using List.reverseRecOn generalizing a with
  | nil =>
    cases h
    exact ⟨rfl, rfl⟩
  | append_singleton events e ih =>
    rw [rehydrate_concat] at h
    obtain ⟨b, hb, h⟩ := except_bind_ok.mp h
    obtain ⟨hbalance, hholds⟩ := ih (fun e' he' => hposts e' (by simp [he'])) hb
    have hid : b.id = other := (rehydrate_replayed hb).id
    have hnone : ∀ postings, readPostings e.payload = .ok postings →
        walletPostings b.id postings = [] := fun postings hread =>
      hposts e (by simp) postings hread b.id (hid ▸ hne)
    have hfunds : b.availableMinor = 0 := by
      simp [availableMinor, heldMinor, hbalance, hholds]
    obtain ⟨-, happlied⟩ := apply_ok h
    cases happlied with
    | created ownerId currency => exact ⟨rfl, rfl⟩
    | money postings posting n _ hread hown =>
      rw [hnone postings hread] at hown
      cases hown
    | held holdId n _ _ _ hpos hle => omega
    | released holdId n _ _ hlookup =>
      rw [hholds] at hlookup
      cases hlookup
    | consumed holdId n postings posting _ _ hlookup =>
      rw [hholds] at hlookup
      cases hlookup

end Ledger

end PeerLedger
