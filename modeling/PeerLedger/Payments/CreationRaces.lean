import PeerLedger.Payments.Idempotency

/-!
# Races of creation

Between the searches of a request and its insert another request can insert its transfer first.  The
insert then violates a unique constraint, and the request looks for the winner (`LostRace`).

A request that pays a share looks for the share's transfer only.  When it lost on its idempotency key
to a request for something else, the share has no transfer, and the request ends with an internal
error instead of a conflict (`winner_not_visible`).  Otherwise it ends as it would have ended after
the winner's commit (`lost_race_resolves`).
-/

namespace PeerLedger

namespace Payments

open Transactions

variable {setting : Setting} {users : List Ledger.User} {s₁ s₂ : System} {i : Nat}
variable {config : Config} {canonical : CanonicalTransferRequest} {key : String} {row : Transfer}
variable {e : PaymentsError} {k : Except PaymentsError Reply → PaymentsProg Result}
variable {after : Except PaymentsError TransferView → PaymentsProg Result} {db : Database}

/-! ### The losing request -/

/-- Thread `i` loses a race: in `s₁` it inserts the transfer of a request and the insert violates a
unique constraint, and in `s₂` it is about to look for the winner.  `k` is what follows the insert in
its program, and `after` what follows the request. -/
structure LostRace (setting : Setting) (users : List Ledger.User) (s₁ s₂ : System) (i : Nat)
    (canonical : CanonicalTransferRequest) (key : String) (row : Transfer) (e : PaymentsError)
    (k : Except PaymentsError Reply → PaymentsProg Result)
    (after : Except PaymentsError TransferView → PaymentsProg Result) : Prop where
  reached : Reaches (payments setting) (Sys.init (.initial users)) s₁
  created : ∃ (draw : Draw) (quote : FxQuote), quoteTransfer canonical.amountMinor
      canonical.currency canonical.destinationCurrency draw.quotedAt = .ok quote ∧
    row = newTransfer draw.id canonical quote key (setting.config.fingerprint canonical)
      draw.createdAt
  program : (insertNew setting.config canonical key row).attempt after =
    .transaction (insertStatement row) k
  inserting : s₁.threads i = .inTx (insertStatement row) (insertStatement row) [] k
  refused : insertTransfer row s₁.world.db = .error e
  violation : isCreationUniqueViolation e = true
  later : Reaches (payments setting) (s₁.set i (.run (k (.error e))) s₁.world) s₂
  looking : s₂.threads i = .run (k (.error e))

/-- The request ends in `s₂` with `winner`, as it would have ended had it been made then: with the
winner's view when the fingerprints agree, with a conflict otherwise; and it writes nothing. -/
structure ResolvedBy (setting : Setting) (s₂ : System) (i : Nat)
    (canonical : CanonicalTransferRequest) (key : String) (e : PaymentsError)
    (after : Except PaymentsError TransferView → PaymentsProg Result) (winner : Transfer) : Prop where
  mem : winner ∈ s₂.world.db.transfers
  owned : (∃ shareId, canonical.splitBillShareId = some shareId ∧
      winner.splitBillShareId = some shareId) ∨
    (winner.senderUserId = canonical.senderUserId ∧ winner.idempotencyKey = key)
  outcome : (afterInsert setting.config canonical key (.error e)).along [s₂.world.db] =
    .done (resolveExisting winner (setting.config.fingerprint canonical))
  sequential : ∀ draw, (createCanonical setting.config canonical key draw).reads s₂.world.db 2 =
    .done (resolveExisting winner (setting.config.fingerprint canonical))
  silent : Step (payments setting) s₂ (s₂.set i (.run (after (resolveExisting winner
    (setting.config.fingerprint canonical)))) s₂.world)

/-! ### What the insert has met -/

/-- The insert of a transfer violates a unique constraint: its key or its share is taken. -/
lemma insertTransfer_violation (h : insertTransfer row db = .error e)
    (he : isCreationUniqueViolation e = true) :
    (∃ old ∈ db.transfers, old.senderUserId = row.senderUserId ∧
      old.idempotencyKey = row.idempotencyKey) ∨ row.splitBillShareId ≠ none := by
  unfold insertTransfer at h
  split_ifs at h with _ _ _ hkey hshare
  · obtain rfl := Except.error.inj h
    cases he
  · obtain rfl := Except.error.inj h
    exact absurd he (by decide)
  · obtain ⟨old, hold, heq⟩ := List.any_eq_true.mp hkey
    exact .inl ⟨old, hold, by simpa using heq⟩
  · exact .inr hshare.1
  · obtain rfl := Except.error.inj h
    cases he
  · obtain rfl := Except.error.inj h
    cases he

lemma transferOfKey_of_mem {old : Transfer} {senderUserId : String} (hmem : old ∈ db.transfers)
    (hsender : old.senderUserId = senderUserId) (hkey : old.idempotencyKey = key) :
    ∃ found, db.transferOfKey senderUserId key = some found := by
  cases h : db.transferOfKey senderUserId key with
  | some found => exact ⟨found, rfl⟩
  | none =>
    rw [Database.transferOfKey, List.find?_eq_none] at h
    exact absurd (by simp [hsender, hkey]) (h old hmem)

lemma transferOfShare_of_mem {old : Transfer} {shareId : String} (hmem : old ∈ db.transfers)
    (hshare : old.splitBillShareId = some shareId) :
    ∃ found, db.transferOfShare shareId = some found := by
  cases h : db.transferOfShare shareId with
  | some found => exact ⟨found, rfl⟩
  | none =>
    rw [Database.transferOfShare, List.find?_eq_none] at h
    exact absurd (by simp [hshare]) (h old hmem)

/-! ### The lookup and a later request -/

/-- The transfer that the lookup after a violation finds. -/
def Database.winner (db : Database) (canonical : CanonicalTransferRequest) (key : String) :
    Option Transfer :=
  match canonical.splitBillShareId with
  | some shareId => db.transferOfShare shareId
  | none => db.transferOfKey canonical.senderUserId key

lemma findWinner_eq (canonical : CanonicalTransferRequest) (key : String) :
    findWinner canonical key = Prog.read fun db => db.winner canonical key := by
  unfold findWinner Database.winner
  cases canonical.splitBillShareId <;> rfl

lemma winner_some {winner : Transfer} (h : db.winner canonical key = some winner) :
    winner ∈ db.transfers ∧ ((∃ shareId, canonical.splitBillShareId = some shareId ∧
        winner.splitBillShareId = some shareId) ∨
      (winner.senderUserId = canonical.senderUserId ∧ winner.idempotencyKey = key)) := by
  unfold Database.winner at h
  split at h
  · next shareId hshare =>
    obtain ⟨hmem, hwinner⟩ := transferOfShare_some h
    exact ⟨hmem, .inl ⟨shareId, hshare, hwinner⟩⟩
  · obtain ⟨hmem, hwinner⟩ := transferOfKey_some h
    exact ⟨hmem, .inr hwinner⟩

/-- The lookup after a violation reads once. -/
lemma afterInsert_along (he : isCreationUniqueViolation e = true) (db : Database) :
    (afterInsert config canonical key (.error e)).along [db] = .done (match db.winner canonical key with
      | none => .error (.error "Idempotency winner was not visible after unique conflict")
      | some winner => resolveExisting winner (config.fingerprint canonical)) := by
  simp only [afterInsert, if_pos he, Prog.bind_eq, findWinner_eq, Prog.along_bind_read]
  cases db.winner canonical key <;> rfl

/-- An existing transfer is no internal error. -/
lemma resolveExisting_ne (existing : Transfer) (fingerprint message : String) :
    resolveExisting existing fingerprint ≠ .error (.error message) := by
  unfold resolveExisting
  split <;> simp

/-- When the key has a transfer, the request is answered with it. -/
lemma createOrResolve_reads {existing : Transfer}
    (hkey : db.transferOfKey canonical.senderUserId key = some existing) (draw : Draw) (n : Nat) :
    (createOrResolve config canonical key draw).reads db (n + 1) =
      .done (resolveExisting existing (config.fingerprint canonical)) := by
  simp only [createOrResolve, Prog.bind_eq]
  rw [Prog.reads_bind_read, hkey]
  cases n <;> rfl

/-- When it has none, the request goes on with its insert. -/
lemma createOrResolve_reads_none {draw : Draw} {quote : FxQuote}
    (hkey : db.transferOfKey canonical.senderUserId key = none)
    (hquote : quoteTransfer canonical.amountMinor canonical.currency canonical.destinationCurrency
      draw.quotedAt = .ok quote) (n : Nat) :
    (createOrResolve config canonical key draw).reads db (n + 1) = insertNew config canonical key
      (newTransfer draw.id canonical quote key (config.fingerprint canonical) draw.createdAt) := by
  simp only [createOrResolve, Prog.bind_eq]
  rw [Prog.reads_bind_read, hkey, hquote]
  cases n <;> rfl

/-- A request that pays a share looks for the transfer of the share first. -/
lemma createCanonical_reads_share {shareId : String}
    (hcanonical : canonical.splitBillShareId = some shareId)
    (hshare : db.transferOfShare shareId = none) (draw : Draw) :
    (createCanonical config canonical key draw).reads db 2 =
      (createOrResolve config canonical key draw).reads db 1 := by
  simp only [createCanonical, hcanonical, Prog.bind_eq]
  rw [Prog.reads_bind_read, hshare]

/-- Any other request looks for the transfer of the key only. -/
lemma createCanonical_eq (hcanonical : canonical.splitBillShareId = none) (draw : Draw) :
    createCanonical config canonical key draw = createOrResolve config canonical key draw := by
  simp only [createCanonical, hcanonical]
  rfl

/-- A request that is made when the share or the key has a transfer is answered with it. -/
lemma createCanonical_reads {winner : Transfer} (h : db.winner canonical key = some winner)
    (draw : Draw) : (createCanonical config canonical key draw).reads db 2 =
      .done (resolveExisting winner (config.fingerprint canonical)) := by
  unfold Database.winner at h
  cases hshare : canonical.splitBillShareId with
  | some shareId =>
    simp only [hshare] at h
    simp only [createCanonical, hshare, Prog.bind_eq]
    rw [Prog.reads_bind_read, h]
    rfl
  | none =>
    simp only [hshare] at h
    rw [createCanonical_eq hshare]
    exact createOrResolve_reads h draw 1

/-- A request that pays a share without a transfer is answered with the transfer of its key. -/
lemma createCanonical_reads_key {existing : Transfer} {shareId : String}
    (hcanonical : canonical.splitBillShareId = some shareId)
    (hshare : db.transferOfShare shareId = none)
    (hkey : db.transferOfKey canonical.senderUserId key = some existing) (draw : Draw) :
    (createCanonical config canonical key draw).reads db 2 =
      .done (resolveExisting existing (config.fingerprint canonical)) :=
  (createCanonical_reads_share hcanonical hshare draw).trans (createOrResolve_reads hkey draw 0)

/-- A request whose searches find nothing goes on with its insert. -/
lemma createCanonical_reads_none {draw : Draw} {quote : FxQuote}
    (hshare : ∀ shareId, canonical.splitBillShareId = some shareId → db.transferOfShare shareId = none)
    (hkey : db.transferOfKey canonical.senderUserId key = none)
    (hquote : quoteTransfer canonical.amountMinor canonical.currency canonical.destinationCurrency
      draw.quotedAt = .ok quote) :
    (createCanonical config canonical key draw).reads db 2 = insertNew config canonical key
      (newTransfer draw.id canonical quote key (config.fingerprint canonical) draw.createdAt) := by
  cases hcanonical : canonical.splitBillShareId with
  | some shareId =>
    rw [createCanonical_reads_share hcanonical (hshare shareId hcanonical)]
    exact createOrResolve_reads_none hkey hquote 0
  | none =>
    rw [createCanonical_eq hcanonical]
    exact createOrResolve_reads_none hkey hquote 1

/-! ### Outcomes -/

namespace LostRace

/-- The violation is a step that leaves the world alone. -/
lemma step (h : LostRace setting users s₁ s₂ i canonical key row e k after) :
    Step (payments setting) s₁ (s₁.set i (.run (k (.error e))) s₁.world) :=
  .stmtFail h.inserting h.refused

/-- What the loser goes on with. -/
lemma next_eq (h : LostRace setting users s₁ s₂ i canonical key row e k after) :
    k (.error e) = (afterInsert setting.config canonical key (.error e)).attempt after := by
  obtain ⟨-, hk⟩ := Prog.transaction.inj h.program
  rw [← hk]
  rfl

/-- What was there when the insert failed is there when the loser looks for the winner. -/
lemma extends_db (h : LostRace setting users s₁ s₂ i canonical key row e k after) :
    s₁.world.db.Extends s₂.world.db := by
  have hs := h.reached.tail h.step
  exact reaches_extends (s := s₁.set i (.run (k (.error e))) s₁.world) (reaches_ok hs) h.later

/-- A request that pays no share lost on its key, and finds the transfer of the key. -/
lemma exists_winner (h : LostRace setting users s₁ s₂ i canonical key row e k after)
    (hshare : canonical.splitBillShareId = none) :
    ∃ winner, s₂.world.db.winner canonical key = some winner := by
  obtain ⟨draw, quote, -, hrow⟩ := h.created
  rcases insertTransfer_violation h.refused h.violation with ⟨old, hold, hsender, hkey⟩ | hne
  · obtain ⟨found, hmem, he⟩ := h.extends_db.rows old hold
    have hterms : (found.senderUserId, found.idempotencyKey) = (old.senderUserId, old.idempotencyKey) :=
      Transfer.congr_terms he.terms (fun row => (row.senderUserId, row.idempotencyKey)) fun _ => rfl
    simp only [Prod.mk.injEq] at hterms
    rw [hrow] at hsender hkey
    simp only [Database.winner, hshare]
    exact transferOfKey_of_mem hmem (hterms.1.trans hsender) (hterms.2.trans hkey)
  · rw [hrow] at hne
    exact absurd hshare hne

/-- The lookup ends the request and leaves the world alone. -/
lemma lookup (h : LostRace setting users s₁ s₂ i canonical key row e k after)
    {r : Except PaymentsError TransferView}
    (hr : (afterInsert setting.config canonical key (.error e)).along [s₂.world.db] = .done r) :
    Step (payments setting) s₂ (s₂.set i (.run (after r)) s₂.world) := by
  have hlooking := h.looking
  rw [h.next_eq] at hlooking
  simp only [afterInsert, if_pos h.violation, Prog.bind_eq, findWinner_eq] at hr hlooking
  rw [Prog.along_bind_read, Prog.along_nil] at hr
  have hdone : after r = (Prog.done r : PaymentsProg TransferView).attempt after := rfl
  rw [hdone, ← hr]
  exact .query hlooking

end LostRace

/-- A request that lost a race ends as it would have ended after the winner's commit if and only if it
pays no share, or a share that has a transfer when the request looks for the winner. -/
theorem lost_race_resolves (h : LostRace setting users s₁ s₂ i canonical key row e k after) :
    (∃ winner, ResolvedBy setting s₂ i canonical key e after winner) ↔
      ∀ shareId, canonical.splitBillShareId = some shareId →
        ∃ old ∈ s₂.world.db.transfers, old.splitBillShareId = some shareId := by
  constructor
  · rintro ⟨winner, hresolved⟩ shareId hshare
    by_contra hnone
    have hwinner : s₂.world.db.winner canonical key = none := by
      cases hfound : s₂.world.db.transferOfShare shareId with
      | none => simpa only [Database.winner, hshare] using hfound
      | some found => exact absurd ⟨found, transferOfShare_some hfound⟩ hnone
    have houtcome := hresolved.outcome
    rw [afterInsert_along h.violation, hwinner] at houtcome
    exact resolveExisting_ne _ _ _ (Prog.done.inj houtcome).symm
  · intro hshares
    have hwinner : ∃ winner, s₂.world.db.winner canonical key = some winner := by
      cases hshare : canonical.splitBillShareId with
      | none => exact h.exists_winner hshare
      | some shareId =>
        obtain ⟨old, hmem, hold⟩ := hshares shareId hshare
        simpa only [Database.winner, hshare] using transferOfShare_of_mem hmem hold
    obtain ⟨winner, hfound⟩ := hwinner
    have houtcome : (afterInsert setting.config canonical key (.error e)).along [s₂.world.db] =
        .done (resolveExisting winner (setting.config.fingerprint canonical)) := by
      rw [afterInsert_along h.violation, hfound]
    obtain ⟨hmem, howned⟩ := winner_some hfound
    exact ⟨winner, hmem, howned, houtcome, createCanonical_reads hfound, h.lookup houtcome⟩

/-! ### Ann is overtaken -/

/-- The outcome of a request as the answer to its command. -/
def replying : Except PaymentsError TransferView → PaymentsProg Result
  | .ok view => .done (.ok (.view view))
  | .error e => .done (.error e)

/-- The command to create a transfer creates its canonical request. -/
lemma program_create {dto : CreateTransferDto} {header : Option String} {senderUserId : String}
    (hkey : normalizeIdempotencyKey config header = .ok key)
    (hcanonical : canonicalRequest config dto senderUserId none = .ok canonical) (draw : Draw) :
    (Command.create dto header senderUserId).program config draw =
      (createCanonical config canonical key draw).attempt replying := by
  have hreply : ∀ p : PaymentsProg TransferView,
      (p.bind fun view => .done (.ok (Result.view view))) = p.attempt replying := fun p =>
    congrArg p.attempt (funext fun r => by cases r <;> rfl)
  rw [← hreply, Command.program, create, hkey, hcanonical]
  rfl

/-- The command to pay a share creates its canonical request. -/
lemma program_sharePayment {input : SplitSharePayment} {header : Option String}
    (hkey : normalizeIdempotencyKey config header = .ok key) (draw : Draw) :
    (Command.createSplitSharePayment input header).program config draw =
      (createCanonical config (input.canonical config) key draw).attempt replying := by
  have hreply : ∀ p : PaymentsProg TransferView,
      (p.bind fun view => .done (.ok (Result.view view))) = p.attempt replying := fun p =>
    congrArg p.attempt (funext fun r => by cases r <;> rfl)
  rw [← hreply, Command.program, createSplitSharePayment, hkey]
  rfl

/-- Thread `1` has searched for the transfer of its command, and then thread `2` has executed its
own. -/
def overtaken (s : System) (command command' : Command) : System :=
  let searched := s.set 1 (.run ((command.program askingAnn.config (scriptedDraw 1)).reads
    s.world.db 2)) (s.world.start 1 command (scriptedDraw 1))
  searched.serve (payments askingAnn) 60 2 (command'.program askingAnn.config (scriptedDraw 2))
    (searched.world.start 2 command' (scriptedDraw 2))

/-- A thread that has not started. -/
def isFresh (s : System) (i : Nat) : Bool :=
  match s.threads i, s.world.jobs i with
  | .idle, none => true
  | _, _ => false

lemma isFresh_iff {s : System} : isFresh s i = true ↔ s.threads i = .idle ∧ s.world.jobs i = none := by
  unfold isFresh
  split
  · next hidle hjobs => exact ⟨fun _ => ⟨hidle, hjobs⟩, fun _ => rfl⟩
  · next hne => exact ⟨fun h => absurd h (by decide), fun h => absurd h.2 (hne h.1)⟩

/-- The error of an insert. -/
def refusal (row : Transfer) (db : Database) : Option PaymentsError :=
  match insertTransfer row db with
  | .error e => some e
  | .ok _ => none

lemma insertTransfer_of_refusal (h : refusal row db = some e) : insertTransfer row db = .error e := by
  unfold refusal at h
  split at h
  · next hinsert => exact Option.some.inj h ▸ hinsert
  · cases h

/-- A thread that is overtaken before its insert, which then violates a unique constraint. -/
lemma exists_lostRace {s : System} {command command' : Command} {quote : FxQuote}
    (hs : Reaches (payments askingAnn) (Sys.init (.initial users)) s) (hq : s.Quiet)
    (hfresh : isFresh s 1 = true ∧ isFresh s 2 = true)
    (hserves : isRequestOfAnn command = true ∧ isRequestOfAnn command' = true)
    (hprogram : command.program askingAnn.config (scriptedDraw 1) =
      (createCanonical askingAnn.config canonical key (scriptedDraw 1)).attempt replying)
    (hshare : ∀ shareId, canonical.splitBillShareId = some shareId →
      s.world.db.transferOfShare shareId = none)
    (hkey : s.world.db.transferOfKey canonical.senderUserId key = none)
    (hquote : quoteTransfer canonical.amountMinor canonical.currency canonical.destinationCurrency
      (scriptedDraw 1).quotedAt = .ok quote)
    (hrow : row = newTransfer (scriptedDraw 1).id canonical quote key
      (askingAnn.config.fingerprint canonical) (scriptedDraw 1).createdAt)
    (hrefused : refusal row (overtaken s command command').world.db = some e)
    (hviolation : isCreationUniqueViolation e = true) :
    ∃ s₁ s₂ k, LostRace askingAnn users s₁ s₂ 1 canonical key row e k replying ∧
      s₂.world.db = (overtaken s command command').world.db := by
  obtain ⟨⟨hidle₁, hjobs₁⟩, hidle₂, hjobs₂⟩ := hfresh.imp isFresh_iff.mp isFresh_iff.mp
  obtain ⟨k₀, hk₀⟩ : ∃ k₀, insertNew askingAnn.config canonical key row =
      .transaction (insertStatement row) k₀ := ⟨_, rfl⟩
  have hreads : (createCanonical askingAnn.config canonical key (scriptedDraw 1)).reads
      s.world.db 2 = _ := createCanonical_reads_none hshare hkey hquote
  rw [← hrow, hk₀] at hreads
  -- the searches of thread `1`
  set program := command.program askingAnn.config (scriptedDraw 1) with hp
  set w₁ := s.world.start 1 command (scriptedDraw 1) with hw₁
  have hstart : Step (payments askingAnn) s (s.set 1 (.run program) w₁) :=
    .start hidle₁ ⟨hjobs₁, command, _, hserves.1, rfl, rfl, rfl⟩
  have hsearch := reaches_reads (s := s) (i := 1) (payments askingAnn) 2 program w₁
  -- the request of thread `2`
  set searched := s.set 1 (.run (program.reads s.world.db 2)) w₁ with hsearched
  have hne : (2 : Nat) ≠ 1 := by decide
  have hidle : searched.threads 2 = .idle := (Sys.set_threads_ne s hne _ _).trans hidle₂
  have hjobs : searched.world.jobs 2 = none := by
    change Function.update s.world.jobs 1 (some ⟨command, scriptedDraw 1⟩) 2 = none
    rw [Function.update_of_ne hne]
    exact hjobs₂
  have hquiet : searched.Quiet := hq.set rfl _
  have hserve := hquiet.serve (payments askingAnn) 60 2
    (command'.program askingAnn.config (scriptedDraw 2))
    (searched.world.start 2 command' (scriptedDraw 2))
    (Prog.admitted_of_invariant (I := fun _ => True) (fun _ _ _ _ => trivial)
      (fun _ _ _ _ => trivial) 60 trivial _)
    hidle ⟨hjobs, command', _, hserves.2, rfl, rfl, rfl⟩
  have hreached := hs.trans (.head hstart (hsearch.trans hserve.1))
  -- the insert of thread `1`
  have hthread : (overtaken s command command').threads 1 = .run (.transaction (insertStatement row)
      fun r => (k₀ r).attempt replying) := by
    have hsearching : searched.threads 1 = .run (program.reads s.world.db 2) :=
      Sys.set_threads_self s 1 _ _
    rw [hprogram, Prog.reads_attempt hreads] at hsearching
    exact (Sys.set_threads_ne searched hne.symm _ _).trans hsearching
  have hbegin : Step (payments askingAnn) (overtaken s command command') _ := .begin hthread
  refine ⟨_, _, _, ⟨hreached.tail hbegin, ⟨scriptedDraw 1, quote, hquote, hrow⟩, ?_,
    Sys.set_threads_self _ _ _ _, insertTransfer_of_refusal hrefused, hviolation, .refl,
    Sys.set_threads_self _ _ _ _⟩, rfl⟩
  rw [hk₀]
  rfl

/-- The quote of four dollars in dollars. -/
def quoteOfAnn : FxQuote :=
  { destinationAmountMinor := 400, rateNumerator := 1000000, rateDenominator := 1000000,
    displayRate := "1.00000000", quotedAt := 0, expiresAt := 900000 }

/-- The row that thread `1` inserts for a request of Ann's. -/
def rowOfAnn (canonical : CanonicalTransferRequest) : Transfer :=
  newTransfer (scriptedDraw 1).id canonical quoteOfAnn "key" (askingAnn.config.fingerprint canonical)
    (scriptedDraw 1).createdAt

/-- Two threads ask for Ann's payment at once, and the one that is overtaken gets the transfer of the
other one. -/
theorem lost_race_resolves_payment : ∃ s₁ s₂ e k,
    LostRace askingAnn Ledger.annAndBob s₁ s₂ 1 paymentOfAnn "key" (rowOfAnn paymentOfAnn) e k
      replying ∧
    ∃ winner, ResolvedBy askingAnn s₂ 1 paymentOfAnn "key" e replying winner := by
  have hkey : normalizeIdempotencyKey askingAnn.config (some "key") = .ok "key" := by decide
  have hquote : quoteTransfer paymentOfAnn.amountMinor paymentOfAnn.currency
      paymentOfAnn.destinationCurrency (scriptedDraw 1).quotedAt = .ok quoteOfAnn := by
    decide +kernel
  have hrefused : refusal (rowOfAnn paymentOfAnn)
      (overtaken (Sys.init (.initial Ledger.annAndBob)) (.create payment (some "key") "ann")
        (.create payment (some "key") "ann")).world.db =
      some (.uniqueViolation IDEMPOTENCY_CONSTRAINT) := by decide +kernel
  obtain ⟨s₁, s₂, k, h, -⟩ := exists_lostRace .refl (.init _) (by decide) (by decide)
    (program_create hkey canonicalRequest_ann _) (fun _ h => nomatch h) rfl hquote rfl hrefused
    (by decide)
  exact ⟨s₁, s₂, _, k, h, (lost_race_resolves h).mpr fun _ hshare => nomatch hshare⟩

/-- Bob's bill is created. -/
def billCreated : System :=
  (askingRun.play [.start 0 (.createBill sharedBill "bob" "bob@example.com")]
    (Sys.init (.initial Ledger.annAndBob))).getD (Sys.init (.initial Ledger.annAndBob))

/-- Ann pays her share with a key, and before its transfer is inserted she pays Bob with the same key.
The payment of the share ends with an internal error; made afterwards, it would have ended with a
conflict. -/
theorem winner_not_visible : ∃ s₁ s₂ e k,
    LostRace askingAnn Ledger.annAndBob s₁ s₂ 1 (sharePaymentOfAnn.canonical askingAnn.config) "key"
      (rowOfAnn (sharePaymentOfAnn.canonical askingAnn.config)) e k replying ∧
    (afterInsert askingAnn.config (sharePaymentOfAnn.canonical askingAnn.config) "key"
        (.error e)).along [s₂.world.db] =
      .done (.error (.error "Idempotency winner was not visible after unique conflict")) ∧
    ∀ draw, (createCanonical askingAnn.config (sharePaymentOfAnn.canonical askingAnn.config) "key"
        draw).reads s₂.world.db 2 =
      .done (.error (.conflict "Idempotency-Key was already used with a different request")) := by
  have hquiet : Script.Calm (Sys.init (.initial Ledger.annAndBob)) := ⟨.init _, .init _⟩
  have hplay : askingRun.play [.start 0 (.createBill sharedBill "bob" "bob@example.com")]
      (Sys.init (.initial Ledger.annAndBob)) = some billCreated := by
    have hsome : (askingRun.play [.start 0 (.createBill sharedBill "bob" "bob@example.com")]
        (Sys.init (.initial Ledger.annAndBob))).isSome = true := by decide +kernel
    obtain ⟨s, hs⟩ := Option.isSome_iff_exists.mp hsome
    rw [billCreated, hs]
    rfl
  obtain ⟨hreached, hcalm⟩ := Script.reaches_play hquiet hplay
  have hkey : normalizeIdempotencyKey askingAnn.config (some "key") = .ok "key" := by decide
  set canonical := sharePaymentOfAnn.canonical askingAnn.config with hcanonical
  have hquote : quoteTransfer canonical.amountMinor canonical.currency canonical.destinationCurrency
      (scriptedDraw 1).quotedAt = .ok quoteOfAnn := by decide +kernel
  set db := (overtaken billCreated (.createSplitSharePayment sharePaymentOfAnn (some "key"))
    (.create payment (some "key") "ann")).world.db with hdb
  have hrefused : refusal (rowOfAnn canonical) db =
      some (.uniqueViolation IDEMPOTENCY_CONSTRAINT) := by decide +kernel
  have hshare : db.transferOfShare "share-0" = none := by decide +kernel
  obtain ⟨existing, hexisting, hfingerprint⟩ : ∃ existing,
      db.transferOfKey "ann" "key" = some existing ∧ existing.requestFingerprint = "plain" := by
    have htest : (db.transferOfKey "ann" "key").any
        (fun row => row.requestFingerprint = "plain") = true := by decide +kernel
    obtain ⟨existing, hexisting, h⟩ := Option.any_eq_true _ _ |>.mp htest
    exact ⟨existing, hexisting, of_decide_eq_true h⟩
  have hnone : billCreated.world.db.transfers = [] := by
    have htest : billCreated.world.db.transfers.isEmpty = true := by decide +kernel
    exact List.isEmpty_iff.mp htest
  obtain ⟨s₁, s₂, k, h, hs₂⟩ := exists_lostRace hreached hcalm.1 (by decide +kernel) (by decide)
    (program_sharePayment hkey _) (fun _ _ => by rw [Database.transferOfShare, hnone]; rfl)
    (by rw [Database.transferOfKey, hnone]; rfl) hquote rfl hrefused (by decide)
  refine ⟨s₁, s₂, _, k, h, ?_, fun draw => ?_⟩
  · have hwinner : db.winner canonical "key" = none := hshare
    rw [afterInsert_along h.violation, hs₂, ← hdb, hwinner]
  · rw [hs₂, ← hdb, createCanonical_reads_key rfl hshare hexisting, resolveExisting, hfingerprint]
    rfl

end Payments

end PeerLedger
