import PeerLedger.Payments.OrphanedHolds

/-!
# Idempotent requests

A sender's idempotency key has at most one transfer, and so has a share of a bill; whoever asks for
either and succeeds gets that transfer, with a request that is its own (`requests_idempotent`).

The two kinds of uniqueness meet in one place.  A payment of a share is answered with the transfer of
the share whatever its own key is, and leaves the key free.  Another request of the same sender can
then use the key for another transfer (`key_used_twice`).
-/

namespace PeerLedger

namespace Payments

open Transactions

variable {setting : Setting} {w w' : World} {job : Job}

/-- The request that a row was created for. -/
def Transfer.canonical (row : Transfer) : CanonicalTransferRequest :=
  { senderUserId := row.senderUserId, senderWalletId := row.senderWalletId,
    receiverReference := row.receiverReference, amountMinor := row.amountMinor,
    currency := row.currency, destinationCurrency := row.destinationCurrency,
    splitBillShareId := row.splitBillShareId }

/-- The fingerprints of the requests that were made do not collide. -/
def Uncollided (config : Config) (w : World) : Prop :=
  ∀ i j job job' canonical canonical' key key', w.jobs i = some job → w.jobs j = some job' →
    Asks config w.db job.command canonical key → Asks config w.db job'.command canonical' key' →
    config.fingerprint canonical = config.fingerprint canonical' → canonical = canonical'

/-- Thread `i` has returned the transfer `id` for a request with a key. -/
def Succeeds (config : Config) (s : System) (i : Nat) (canonical : CanonicalTransferRequest)
    (key id : String) : Prop :=
  ∃ job view, s.world.jobs i = some job ∧ Asks config s.world.db job.command canonical key ∧
    (s.threads i = .run (.done (.ok (.view view))) ∨
      ∃ bill, s.threads i = .run (.done (.ok (.paid bill view)))) ∧ view.id = id

/-- Thread `i` has returned the transfer `id` for a request with a key, at some time of a run. -/
def HasSucceeded (setting : Setting) (users : List Ledger.User) (s : System) (i : Nat)
    (canonical : CanonicalTransferRequest) (key id : String) : Prop :=
  ∃ s₀, Reaches (payments setting) (Sys.init (.initial users)) s₀ ∧
    Reaches (payments setting) s₀ s ∧ Succeeds setting.config s₀ i canonical key id

/-- What the transfers and the answered requests have in common. -/
structure Idempotent (setting : Setting) (users : List Ledger.User) (s : System) : Prop where
  /-- A sender's key has one transfer. -/
  keys : ∀ a ∈ s.world.db.transfers, ∀ b ∈ s.world.db.transfers, a.senderUserId = b.senderUserId →
    a.idempotencyKey = b.idempotencyKey → a = b
  /-- A share has one transfer. -/
  shares : ∀ a ∈ s.world.db.transfers, ∀ b ∈ s.world.db.transfers, ∀ shareId,
    a.splitBillShareId = some shareId → b.splitBillShareId = some shareId → a = b
  /-- A request succeeds with a transfer of its own. -/
  own : ∀ i canonical key id, HasSucceeded setting users s i canonical key id →
    ∃ row ∈ s.world.db.transfers, row.id = id ∧ row.canonical = canonical
  /-- Requests for the same share succeed with the same transfer. -/
  sameShare : ∀ i j canonical canonical' key key' id id' shareId,
    HasSucceeded setting users s i canonical key id → HasSucceeded setting users s j canonical' key' id' →
    canonical.splitBillShareId = some shareId → canonical'.splitBillShareId = some shareId →
    id = id' ∧ canonical = canonical'
  /-- Requests of a sender with the same key succeed with the same transfer, unless one of them pays a
  share and got the transfer that the share has under another key. -/
  sameKey : ∀ i j canonical canonical' key id id',
    HasSucceeded setting users s i canonical key id → HasSucceeded setting users s j canonical' key id' →
    canonical.senderUserId = canonical'.senderUserId →
    (id = id' ∧ canonical = canonical') ∨
    ∃ row ∈ s.world.db.transfers, row.idempotencyKey ≠ key ∧
      ((row.id = id ∧ canonical.splitBillShareId ≠ none) ∨
        (row.id = id' ∧ canonical'.splitBillShareId ≠ none))

/-! ### The request of a command -/

/-- A command asks for one transfer. -/
lemma Asks.unique {config : Config} {db : Database} {command : Command}
    {canonical canonical' : CanonicalTransferRequest} {key key' : String} (hok : TablesOk db)
    (h : Asks config db command canonical key) (h' : Asks config db command canonical' key') :
    canonical = canonical' ∧ key = key' := by
  cases h with
  | create hkey hcanonical =>
    cases h' with
    | create hkey' hcanonical' =>
      exact ⟨Except.ok.inj (hcanonical.symm.trans hcanonical'), Except.ok.inj (hkey.symm.trans hkey')⟩
  | sharePayment hkey =>
    cases h' with
    | sharePayment hkey' => exact ⟨rfl, Except.ok.inj (hkey.symm.trans hkey')⟩
  | payShare hkey hshare hbill hshareId _ hbillId _ =>
    cases h' with
    | payShare hkey' hshare' hbill' hshareId' _ hbillId' _ =>
      obtain rfl := List.inj_on_of_nodup_map hok.shareIds hshare hshare' (hshareId.trans hshareId'.symm)
      obtain rfl := List.inj_on_of_nodup_map hok.billIds hbill hbill' (hbillId.trans hbillId'.symm)
      exact ⟨rfl, Except.ok.inj (hkey.symm.trans hkey')⟩

/-- Every row was created for a request that was made. -/
def Requested (config : Config) (w : World) : Prop :=
  ∀ row ∈ w.db.transfers, row.requestFingerprint = config.fingerprint row.canonical ∧
    ∃ i job, w.jobs i = some job ∧ Asks config w.db job.command row.canonical row.idempotencyKey

lemma Transfer.Evolves.canonical_eq {a b : Transfer} (h : a.Evolves b) : b.canonical = a.canonical :=
  Transfer.congr_terms h.terms (·.canonical) fun _ => rfl

lemma Transfer.Evolves.idempotencyKey_eq {a b : Transfer} (h : a.Evolves b) :
    b.idempotencyKey = a.idempotencyKey :=
  Transfer.congr_terms h.terms (·.idempotencyKey) fun _ => rfl

lemma Transfer.Evolves.requestFingerprint_eq {a b : Transfer} (h : a.Evolves b) :
    b.requestFingerprint = a.requestFingerprint :=
  Transfer.congr_terms h.terms (·.requestFingerprint) fun _ => rfl

/-- Every commit keeps the requests of the rows. -/
lemma Requested.commit {c : PaymentsCommit} (h : Requested setting.config w)
    (hok : TablesOk w.db) (hjob : w.jobs c.thread = some job)
    (hmove : Move setting w job c.body c.writes) :
    Requested setting.config ((payments setting).commit w c) := by
  have hextends := hmove.extends hok
  have hold : ∀ row ∈ w.db.transfers, row.requestFingerprint = setting.config.fingerprint row.canonical ∧
      ∃ i job, w.jobs i = some job ∧
        Asks setting.config (view w.db c.writes) job.command row.canonical row.idempotencyKey := by
    intro row hrow
    obtain ⟨hfingerprint, i, job, hi, hasks⟩ := h row hrow
    exact ⟨hfingerprint, i, job, hi, hasks.extends hextends⟩
  intro row' hrow'
  change _ ∧ ∃ i job, w.jobs i = some job ∧ Asks setting.config (view w.db c.writes) _ _ _
  rcases hmove.row_cases hrow' with hmem | ⟨-, hnew, -⟩ | ⟨row, hrow, -, hstep⟩
  · exact hold row' hmem
  · obtain ⟨canonical, key, quote, hasks, -, rfl⟩ := hnew
    exact ⟨rfl, c.thread, job, hjob, hasks.extends hextends⟩
  · have he := hstep.evolves
    rw [he.canonical_eq, he.idempotencyKey_eq, he.requestFingerprint_eq]
    exact hold row hrow

/-- The requests of the rows in every reachable state. -/
lemma reaches_requested {users : List Ledger.User} {s : System}
    (hs : Reaches (payments setting) (Sys.init (.initial users)) s) :
    Requested setting.config s.world := by
  refine reaches_invariant (P := fun w => Requested setting.config w) (reaches_ok .refl)
    (fun _ h => nomatch h) (fun w c job hinv hw _ hjob hmove _ => hw.commit hinv.tables hjob hmove)
    (fun _ _ _ hw _ => hw) (fun w i command draw _ hw hnone _ _ row hrow => ?_)
    (fun w w' _ hw hledger => ?_) hs
  · obtain ⟨hfingerprint, j, job, hj, hasks⟩ := hw row hrow
    have hne : j ≠ i := fun heq => by rw [heq, hnone] at hj; cases hj
    exact ⟨hfingerprint, j, job, (Function.update_of_ne hne _ _).trans hj, hasks⟩
  · cases hledger <;> exact hw

/-! ### Requests that succeed -/

/-- A thread keeps its command. -/
lemma reaches_jobs {s s' : System} (hok : s.Ok (payments setting) (paymentsProtocol setting))
    (hs : Reaches (payments setting) s s') {i : Nat} (hjob : s.world.jobs i = some job) :
    s'.world.jobs i = some job := by
  refine reaches_invariant (P := fun w => w.jobs i = some job) hok hjob
    (fun _ _ _ _ hw _ _ _ _ => hw) (fun _ _ _ hw _ => hw)
    (fun w j command draw _ hw hnone _ _ => ?_) (fun w w' _ hw hledger => ?_) hs
  · have hne : i ≠ j := fun heq => by rw [heq, hnone] at hw; cases hw
    exact (Function.update_of_ne hne _ _).trans hw
  · cases hledger <;> exact hw

section Succeeds

variable {users : List Ledger.User} {s : System} {i : Nat} {canonical : CanonicalTransferRequest}
variable {key id : String}

/-- A request that succeeds gets a transfer that was created for the same request, and that has its
share or its key. -/
lemma Succeeds.row (hs : Reaches (payments setting) (Sys.init (.initial users)) s)
    (hcollide : Uncollided setting.config s.world)
    (h : Succeeds setting.config s i canonical key id) :
    ∃ row ∈ s.world.db.transfers, row.id = id ∧ row.canonical = canonical ∧
      (canonical.splitBillShareId ≠ none ∨ row.idempotencyKey = key) := by
  have hok := reaches_ok hs
  obtain ⟨job, view, hjob, hasks, hthread, rfl⟩ := h
  have hgranted : Granted setting.config s.world.db job.command view.id := by
    rcases hthread with hi | ⟨bill, hi⟩
    · obtain ⟨job', hjob', hanswered⟩ := (hok.post hi).1 _ rfl
      obtain rfl := Option.some.inj (hjob.symm.trans hjob')
      exact hanswered
    · obtain ⟨job', hjob', hanswered⟩ := (hok.post hi).1 _ rfl
      obtain rfl := Option.some.inj (hjob.symm.trans hjob')
      exact hanswered
  obtain ⟨canonical', key', hasks', row, hrow, hid, hfingerprint, hmatch⟩ := hgranted
  obtain ⟨rfl, rfl⟩ := hasks.unique hok.inv.tables hasks'
  obtain ⟨hrequest, j, creator, hj, hcreated⟩ := reaches_requested hs row hrow
  have hcanonical := hcollide j i creator job row.canonical canonical row.idempotencyKey key hj hjob
    hcreated hasks (hrequest.symm.trans hfingerprint)
  exact ⟨row, hrow, hid, hcanonical, hmatch.imp And.left And.right⟩

/-- The transfer of a request that has succeeded stays. -/
lemma HasSucceeded.row (hcollide : Uncollided setting.config s.world)
    (h : HasSucceeded setting users s i canonical key id) :
    ∃ row ∈ s.world.db.transfers, row.id = id ∧ row.canonical = canonical ∧
      (canonical.splitBillShareId ≠ none ∨ row.idempotencyKey = key) := by
  obtain ⟨s₀, hs₀, hs, hsucceeds⟩ := h
  have hok := reaches_ok hs₀
  have hextends := reaches_extends hok hs
  have hcollide₀ : Uncollided setting.config s₀.world := by
    intro i j job job' c c' k k' hi hj hasks hasks'
    exact hcollide i j job job' c c' k k' (reaches_jobs hok hs hi) (reaches_jobs hok hs hj)
      (hasks.extends hextends) (hasks'.extends hextends)
  obtain ⟨row, hrow, hid, hcanonical, hmatch⟩ := hsucceeds.row hs₀ hcollide₀
  obtain ⟨row', hrow', he⟩ := hextends.rows row hrow
  refine ⟨row', hrow', he.id_eq.trans hid, he.canonical_eq.trans hcanonical, ?_⟩
  rwa [he.idempotencyKey_eq]

end Succeeds

/-- When the fingerprints do not collide: a sender's key has one transfer and so has a share, every
request succeeds with a transfer of its own, and two requests for the same share, or of the same
sender with the same key, succeed with the same transfer, unless one of the latter pays a share that
has its transfer under another key. -/
theorem requests_idempotent (setting : Setting) (users : List Ledger.User) {s : System}
    (hs : Reaches (payments setting) (Sys.init (.initial users)) s)
    (hcollide : Uncollided setting.config s.world) : Idempotent setting users s := by
  have hok := (reaches_ok hs).inv.tables
  have hkeys : ∀ a ∈ s.world.db.transfers, ∀ b ∈ s.world.db.transfers,
      a.senderUserId = b.senderUserId → a.idempotencyKey = b.idempotencyKey → a = b :=
    fun a ha b hb hsender hkey => List.inj_on_of_nodup_map hok.keys ha hb (Prod.ext hsender hkey)
  have hshares : ∀ a ∈ s.world.db.transfers, ∀ b ∈ s.world.db.transfers, ∀ shareId,
      a.splitBillShareId = some shareId → b.splitBillShareId = some shareId → a = b :=
    fun a ha b hb shareId => shareTransfer_unique hok.shareTransfers ha hb
  constructor
  case keys => exact hkeys
  case shares => exact hshares
  case own =>
    intro i canonical key id hi
    obtain ⟨row, hrow, hid, hcanonical, -⟩ := hi.row hcollide
    exact ⟨row, hrow, hid, hcanonical⟩
  case sameShare =>
    intro i j canonical canonical' key key' id id' shareId hi hj hshare hshare'
    obtain ⟨row, hrow, rfl, rfl, -⟩ := hi.row hcollide
    obtain ⟨row', hrow', rfl, rfl, -⟩ := hj.row hcollide
    obtain rfl := hshares row hrow row' hrow' shareId hshare hshare'
    exact ⟨rfl, rfl⟩
  case sameKey =>
    intro i j canonical canonical' key id id' hi hj hsender
    obtain ⟨row, hrow, rfl, rfl, hmatch⟩ := hi.row hcollide
    obtain ⟨row', hrow', rfl, rfl, hmatch'⟩ := hj.row hcollide
    by_cases hkey : row.idempotencyKey = key
    · by_cases hkey' : row'.idempotencyKey = key
      · obtain rfl := hkeys row hrow row' hrow' hsender (hkey.trans hkey'.symm)
        exact .inl ⟨rfl, rfl⟩
      · exact .inr ⟨row', hrow', hkey', .inr ⟨rfl, hmatch'.resolve_right hkey'⟩⟩
    · exact .inr ⟨row, hrow, hkey, .inl ⟨rfl, hmatch.resolve_right hkey⟩⟩

/-! ### Ann's key -/

/-- Ann pays her share of Bob's bill. -/
def sharePaymentOfAnn : SplitSharePayment :=
  { shareId := "share-0", participantUserId := "ann", fromWalletId := "ann-wallet",
    receiverReference := "bob@example.com", amountMinor := 400, currency := "USD" }

/-- What her payment to Bob comes down to. -/
def paymentOfAnn : CanonicalTransferRequest :=
  { senderUserId := "ann", senderWalletId := "ann-wallet", receiverReference := "bob@example.com",
    amountMinor := 400, currency := "USD", destinationCurrency := "USD", splitBillShareId := none }

/-- The requests of the scripts: Bob creates his bill, Ann pays her share, and Ann pays Bob. -/
def isRequestOfAnn : Command → Bool
  | .createBill _ _ _ => true
  | .createSplitSharePayment input _ => decide (input = sharePaymentOfAnn)
  | .create dto _ senderUserId => decide (dto = payment ∧ senderUserId = "ann")
  | _ => false

/-- The setting of these requests: their fingerprints tell them apart. -/
def askingAnn : Setting :=
  { scripted with
    config := { fingerprint := fun canonical => canonical.splitBillShareId.getD "plain" }
    serves := fun command => isRequestOfAnn command = true }

/-- Their scripts. -/
def askingRun : Script askingAnn where
  draw := scriptedDraw
  ledgerDraw j := Ledger.drawFor (ledgerName j)
  test _ _ := true
  ledgerTest _ _ := true
  serves := isRequestOfAnn
  owners _ := true
  loses _ _ := true
  draw_ok := scripted_draws
  uuid_ok _ _ := trivial
  test_ok _ _ _ := trivial
  serves_ok _ h := h
  ledgerTest_ok _ _ _ := trivial
  owners_ok _ _ := ⟨trivial, fun _ => trivial⟩
  loses_ok _ _ _ := trivial

lemma canonicalRequest_ann :
    canonicalRequest askingAnn.config payment "ann" none = .ok paymentOfAnn := by decide +kernel

/-- What Ann asks for. -/
lemma asks_ann {db : Database} {command : Command} {canonical : CanonicalTransferRequest}
    {key : String} (hserves : isRequestOfAnn command = true)
    (h : Asks askingAnn.config db command canonical key) :
    canonical = sharePaymentOfAnn.canonical askingAnn.config ∨
      canonical = paymentOfAnn := by
  cases h with
  | create _ hcanonical =>
    obtain ⟨rfl, rfl⟩ := of_decide_eq_true hserves
    exact .inr (Except.ok.inj (hcanonical.symm.trans canonicalRequest_ann))
  | sharePayment =>
    obtain rfl := of_decide_eq_true hserves
    exact .inl rfl
  | payShare => cases hserves

/-- The fingerprints of Ann's requests do not collide. -/
lemma uncollided_ann {users : List Ledger.User} {s : System}
    (hs : Reaches (payments askingAnn) (Sys.init (.initial users)) s) :
    Uncollided askingAnn.config s.world := by
  have hserves : ∀ i job, s.world.jobs i = some job → isRequestOfAnn job.command = true := by
    refine reaches_invariant (P := fun w : World => ∀ i job, w.jobs i = some job →
      isRequestOfAnn job.command = true) (reaches_ok .refl) (fun _ _ h => nomatch h)
      (fun _ _ _ _ hw _ _ _ _ => hw) (fun _ _ _ hw _ => hw)
      (fun w j command draw _ hw _ hserves _ i job hi => ?_) (fun w w' _ hw hledger => ?_) hs
    · change Function.update w.jobs j _ i = some job at hi
      by_cases hij : i = j
      · subst hij
        rw [Function.update_self] at hi
        exact Option.some.inj hi ▸ hserves
      · rw [Function.update_of_ne hij] at hi
        exact hw i job hi
    · cases hledger <;> exact hw
  intro i j job job' canonical canonical' key key' hi hj hasks hasks' heq
  rcases asks_ann (hserves i job hi) hasks with rfl | rfl <;>
    rcases asks_ann (hserves j job' hj) hasks' with rfl | rfl
  · rfl
  · exact absurd heq (by decide)
  · exact absurd heq (by decide)
  · rfl

/-- The id of the transfer that thread `i` has returned. -/
def returnedId (s : System) (i : Nat) : Option String :=
  match s.threads i with
  | .run (.done (.ok (.view view))) => some view.id
  | _ => none

lemma Succeeds.of_returnedId {config : Config} {s : System} {i : Nat}
    {canonical : CanonicalTransferRequest} {key id : String} {job : Job}
    (hjob : s.world.jobs i = some job) (hasks : Asks config s.world.db job.command canonical key)
    (h : returnedId s i = some id) : Succeeds config s i canonical key id := by
  unfold returnedId at h
  split at h
  · next view hi => exact ⟨job, view, hjob, hasks, .inl hi, Option.some.inj h⟩
  · cases h

/-- Two threads ask for the same payment, and both get the transfer `t`. -/
theorem requests_idempotent_t : ∃ s,
    Reaches (payments askingAnn) (Sys.init (.initial Ledger.annAndBob)) s ∧
      returnedId s 0 = some "t" ∧ returnedId s 1 = some "t" ∧
      Idempotent askingAnn Ledger.annAndBob s := by
  obtain ⟨s, hs, hp⟩ := askingRun.exists_reaches Ledger.annAndBob
    [.start 0 (.create payment (some "key") "ann"), .start 1 (.create payment (some "key") "ann")]
    (fun s => returnedId s 0 = some "t" ∧ returnedId s 1 = some "t") (by decide +kernel)
  obtain ⟨h₀, h₁⟩ := of_decide_eq_true hp
  exact ⟨s, hs, h₀, h₁, requests_idempotent askingAnn _ hs (uncollided_ann hs)⟩

/-- Ann pays her share under one key and again under a second one, which gets the same transfer; then
she uses the second key to pay Bob, and gets another transfer. -/
theorem key_used_twice : ∃ s,
    Reaches (payments askingAnn) (Sys.init (.initial Ledger.annAndBob)) s ∧
      Uncollided askingAnn.config s.world ∧ ∃ canonical canonical' id id',
      HasSucceeded askingAnn Ledger.annAndBob s 2 canonical "second" id ∧
      HasSucceeded askingAnn Ledger.annAndBob s 3 canonical' "second" id' ∧
      canonical.senderUserId = canonical'.senderUserId ∧ id ≠ id' := by
  obtain ⟨s, hs, hp⟩ := askingRun.exists_reaches Ledger.annAndBob
    [.start 0 (.createBill sharedBill "bob" "bob@example.com"),
      .start 1 (.createSplitSharePayment sharePaymentOfAnn (some "first")),
      .start 2 (.createSplitSharePayment sharePaymentOfAnn (some "second")),
      .start 3 (.create payment (some "second") "ann")]
    (fun s => (s.world.jobs 2).any (fun job =>
        job.command = .createSplitSharePayment sharePaymentOfAnn (some "second")) ∧
      (s.world.jobs 3).any (fun job => job.command = .create payment (some "second") "ann") ∧
      returnedId s 2 = some "t-1" ∧ returnedId s 3 = some "t-3") (by decide +kernel)
  obtain ⟨h₂, h₃, hreturned₂, hreturned₃⟩ := of_decide_eq_true hp
  obtain ⟨job₂, hjob₂, hcommand₂⟩ := (Option.any_eq_true _ _).mp h₂
  obtain ⟨job₃, hjob₃, hcommand₃⟩ := (Option.any_eq_true _ _).mp h₃
  have hasks₂ : Asks askingAnn.config s.world.db job₂.command
      (sharePaymentOfAnn.canonical askingAnn.config) "second" :=
    of_decide_eq_true hcommand₂ ▸ .sharePayment (by decide)
  have hasks₃ : Asks askingAnn.config s.world.db job₃.command paymentOfAnn "second" :=
    of_decide_eq_true hcommand₃ ▸ .create (by decide) canonicalRequest_ann
  exact ⟨s, hs, uncollided_ann hs, _, _, "t-1", "t-3",
    ⟨s, hs, .refl, .of_returnedId hjob₂ hasks₂ hreturned₂⟩,
    ⟨s, hs, .refl, .of_returnedId hjob₃ hasks₃ hreturned₃⟩, rfl, by decide⟩

end Payments

end PeerLedger
