import PeerLedger.Transactions.Clients
import PeerLedger.Ledger.Auth

/-!
# Lazy wallet creation

A wallet is created by the first call that needs it: `getOrCreateForUser`, alone, in `listForUser`, or
for the receiver of `validateTransfer`.  Two calls may look for the same wallet before either has
created it; the unique index on owner and currency lets one of them through, and the other reads the
wallet after its own transaction has failed.

`walletClients` is the ledger with `listForUser`.  `wallet_creation_single` says that there is never a
second wallet, and that no call is hurt by the race.
-/

namespace PeerLedger

namespace Ledger

open Transactions WalletAggregate

/-! ### The listing -/

/-- The view of a wallet with its projection among the given ones; the last one of a wallet counts. -/
def viewFrom (projections : List WalletBalanceProjection) (wallet : Wallet) :
    Except LedgerError WalletView :=
  match projections.reverse.find? fun row => row.walletId = wallet.id with
  | some projection => .ok (toView wallet projection)
  | none => .error (.error ("Missing balance projection for wallet " ++ wallet.id))

/-- `listForUser`: the wallets of a user, after one in dollars has been created if there is none. -/
def listForUser (userId : String) (draw : Draw) : LedgerProg (List WalletView) := do
  let _ ← getOrCreateForUser userId "USD" draw
  let wallets ← Prog.read fun db => db.wallets.filter fun wallet => wallet.ownerId = userId
  let projections ← Prog.read fun db => db.projections.filter fun row =>
    row.walletId ∈ wallets.map (·.id)
  .done (wallets.mapM (viewFrom projections))

/-- What the wallet service returns to its callers. -/
inductive Response where
  | reply (reply : Reply)
  | wallets (views : List WalletView)

/-- A thread starts a command, or `listForUser`, which is recorded as the call of
`getOrCreateForUser` with which it begins. -/
def startsClient (setting : Setting) (w : LedgerWorld) (i : Nat)
    (program : LedgerProg Response) (w' : LedgerWorld) : Prop :=
  w.jobs i = none ∧ ∃ draw, (∀ n, setting.uuid (draw n).transactionId) ∧
    ((∃ command : Command, program = (do return .reply (← command.program draw)) ∧
        w' = w.start i command draw) ∨
      ∃ userId, program = (do return .wallets (← listForUser userId (draw 0))) ∧
        w' = w.start i (.getOrCreateForUser userId "USD") draw)

/-- The ledger with all calls that create wallets. -/
def walletClients (setting : Setting) :
    Service Nat LedgerWorld Database Write LedgerError Reply Empty Empty Unit Response :=
  (ledger setting).offering (startsClient setting)

/-! ### What the calls promise -/

/-- The view shows the wallet of a user in a currency. -/
def Database.Shows (db : Database) (userId currency : String) (view : WalletView) : Prop :=
  ∃ wallet ∈ db.wallets, wallet.ownerId = userId ∧ wallet.currency = currency ∧
    view.id = wallet.id ∧ view.ownerId = userId ∧ view.currency = currency

/-- The wallet receives the transfer of a request. -/
def Database.Receives (db : Database) (lower : String → String) (dto : ValidateInternalTransferDto)
    (walletId : String) : Prop :=
  ∃ wallet ∈ db.wallets, wallet.id = walletId ∧ wallet.currency = dto.target ∧
    ((isUuid dto.receiverReference = true ∧ wallet.id = uuid dto.receiverReference) ∨
      ∃ user, db.userLike lower dto.receiverReference = .ok (some user) ∧ user.id = wallet.ownerId)

/-- The errors of `getOrCreateForUser` in thread `i`: the database fails, the user is not registered,
or an id that was drawn for the new wallet or its event is empty or in use. -/
inductive CreationFails (setting : Setting) (w : LedgerWorld) (i : Nat) (job : Job)
    (userId : String) : LedgerError → Prop
  | failure {e} : setting.fails e → CreationFails setting w i job userId e
  /-- The database reports a unique violation that is none. -/
  | spurious {c} : setting.fails (.uniqueViolation c) → CreationFails setting w i job userId
      (.error "Wallet creation did not produce a persistent wallet")
  | unregistered : (∀ user ∈ w.db.users, user.id ≠ userId) →
      CreationFails setting w i job userId (.queryFailed "23503")
  | unfresh {e} : ¬ w.Committed i → ¬ (job.draw 0).Fresh w.db → CreationFails setting w i job userId e

/-- The errors of `validateTransfer` in thread `i`. -/
inductive TransferRefused (setting : Setting) (w : LedgerWorld) (i : Nat) (job : Job)
    (dto : ValidateInternalTransferDto) : LedgerError → Prop
  | amounts {e} : ¬ dto.AmountsValid → TransferRefused setting w i job dto e
  | failure {e} : setting.fails e → TransferRefused setting w i job dto e
  | sender : job.startDb.senderOf dto = none →
      TransferRefused setting w i job dto (.notFound "Sender wallet not found")
  | receiver : w.db.userLike (job.draw 0).lower dto.receiverReference = .ok none →
      TransferRefused setting w i job dto (.notFound "Receiver not found")
  /-- The reference is no valid pattern. -/
  | pattern {e} : w.db.userLike (job.draw 0).lower dto.receiverReference = .error e →
      TransferRefused setting w i job dto e
  | same : w.db.Receives (job.draw 0).lower dto (uuid dto.senderWalletId) →
      TransferRefused setting w i job dto (.badRequest "Sender and receiver wallets must differ")
  | creation {user e} : user ∈ w.db.users → CreationFails setting w i job user.id e →
      TransferRefused setting w i job dto e

/-- What a call that creates wallets promises its caller. -/
def Provides (setting : Setting) (w : LedgerWorld) (i : Nat) (job : Job)
    (r : Except LedgerError Response) : Prop :=
  match job.command with
  | .getOrCreateForUser userId currency =>
    match r with
    | .ok (.reply reply) => ∃ view, reply = .wallet view ∧ w.db.Shows userId currency view
    | .ok (.wallets views) => (∃ view ∈ views, w.db.Shows userId currency view) ∧
        ∀ view ∈ views, ∃ currency, w.db.Shows userId currency view
    | .error e => CreationFails setting w i job userId e
  | .validateTransfer dto =>
    match r with
    | .ok response => ∃ walletId, response = .reply (.validated walletId) ∧
        w.db.Receives (job.draw 0).lower dto walletId
    | .error e => TransferRefused setting w i job dto e
  | _ => True

/-- The stream begins with the one event that creates the wallet. -/
def Opens (ownerId currency : String) (events : List StoredEvent) : Prop :=
  ∃ first rest, events = first :: rest ∧ first.eventType = WALLET_CREATED ∧
    first.payload.access "ownerId" = .ok (some (.str ownerId)) ∧
    createdCurrency first = .ok (some (.str currency)) ∧
    ∀ e ∈ rest, e.eventType ≠ WALLET_CREATED

/-! ### Streams -/

section Streams

variable {walletId : String} {events : List StoredEvent} {a a' : WalletAggregate} {e : StoredEvent}

/-- Only the first event of a stream creates the wallet. -/
lemma apply_created (h : a.apply e = .ok a') (he : e.eventType = WALLET_CREATED) :
    a.version = 0 ∧ ∃ ownerId currency, a'.ownerId = some ownerId ∧ a'.currency = some currency ∧
      e.payload.access "ownerId" = .ok (some (.str ownerId)) ∧
      createdCurrency e = .ok (some (.str currency)) := by
  have hcreated : a.applyCreated e = .ok a' := by
    unfold apply at h
    split_ifs at h
    exact h
  obtain ⟨currency, hcurrency, hcreated⟩ := except_bind_ok.mp hcreated
  split at hcreated
  · cases hcreated
  · rename_i hversion
    obtain ⟨ownerId, hownerId, hcreated⟩ := except_bind_ok.mp hcreated
    split at hcreated
    · cases hcreated
      exact ⟨not_not.mp hversion, _, _, rfl, rfl, hownerId, hcurrency⟩
    · cases hcreated

/-- A stream that a wallet was replayed from begins with the event that creates it. -/
lemma rehydrate_opens (h : rehydrate walletId events = .ok a) :
    (a.ownerId = none) ∨ ∃ ownerId currency, a.ownerId = some ownerId ∧
      a.currency = some currency ∧ Opens ownerId currency events := by
  induction events using List.reverseRecOn generalizing a with
  | nil =>
    cases h
    exact .inl rfl
  | append_singleton events e ih =>
    rw [rehydrate_concat] at h
    obtain ⟨b, hb, happly⟩ := except_bind_ok.mp h
    have hversion := (rehydrate_replayed hb).version
    by_cases he : e.eventType = WALLET_CREATED
    · obtain ⟨hzero, ownerId, currency, howner, hcurrency, hpayload, hcreated⟩ :=
        apply_created happly he
      have hnil : events = [] := List.eq_nil_of_length_eq_zero (by omega)
      subst hnil
      exact .inr ⟨ownerId, currency, howner, hcurrency, e, [], rfl, he, hpayload, hcreated, by simp⟩
    · obtain ⟨howner, hcurrency⟩ : a.ownerId = b.ownerId ∧ a.currency = b.currency := by
        cases (apply_ok happly).2 with
        | created ownerId currency hcreated => exact absurd hcreated he
        | _ => exact ⟨rfl, rfl⟩
      refine (ih hb).imp howner.trans ?_
      rintro ⟨ownerId, currency, howner', hcurrency', first, rest, rfl, hfirst⟩
      refine ⟨ownerId, currency, howner.trans howner', hcurrency.trans hcurrency', first,
        rest ++ [e], rfl, hfirst.1, hfirst.2.1, hfirst.2.2.1, fun e' he' => ?_⟩
      rcases List.mem_append.mp he' with he' | he'
      · exact hfirst.2.2.2 e' he'
      · exact List.mem_singleton.mp he' ▸ he

/-- In consistent tables every stream of a wallet begins with its creation. -/
lemma Consistent.opens {db : Database} (h : Consistent db) {wallet : Wallet}
    (hwallet : wallet ∈ db.wallets) :
    Opens wallet.ownerId wallet.currency (db.loadStream wallet.id) := by
  obtain ⟨a, ha, howner, hcurrency, -⟩ := h.aggregate wallet hwallet
  rw [h.gapFree.loadStream]
  rcases rehydrate_opens ha with hnone | ⟨ownerId, currency, howner', hcurrency', hopens⟩
  · rw [hnone] at howner
    cases howner
  · obtain rfl := Option.some.inj (howner'.symm.trans howner)
    obtain rfl := Option.some.inj (hcurrency'.symm.trans hcurrency)
    exact hopens

end Streams

/-! ### Creating a wallet among others -/

lemma Database.Shows.mono {db db' : Database} {userId currency : String} {shown : WalletView}
    (h : db.Shows userId currency shown) (hsub : db.wallets ⊆ db'.wallets) :
    db'.Shows userId currency shown := by
  obtain ⟨wallet, hwallet, hshown⟩ := h
  exact ⟨wallet, hsub hwallet, hshown⟩

/-- The view of a wallet shows it. -/
lemma shows_toView {db : Database} {wallet : Wallet} (hwallet : wallet ∈ db.wallets)
    (projection : WalletBalanceProjection) :
    db.Shows wallet.ownerId wallet.currency (toView wallet projection) :=
  ⟨wallet, hwallet, rfl, rfl, rfl, rfl, rfl⟩

lemma viewFrom_shows {db : Database} {projections : List WalletBalanceProjection} {wallet : Wallet}
    {shown : WalletView} (hwallet : wallet ∈ db.wallets)
    (h : viewFrom projections wallet = .ok shown) :
    db.Shows wallet.ownerId wallet.currency shown := by
  unfold viewFrom at h
  split at h
  · obtain rfl := Except.ok.inj h
    exact shows_toView hwallet _
  · cases h

lemma viewFrom_ok {projections : List WalletBalanceProjection} {wallet : Wallet}
    (h : ∃ row ∈ projections, row.walletId = wallet.id) :
    ∃ shown, viewFrom projections wallet = .ok shown := by
  obtain ⟨row, hrow, hid⟩ := h
  have hsome : (projections.reverse.find? fun row => row.walletId = wallet.id).isSome := by
    rw [List.find?_isSome]
    exact ⟨row, List.mem_reverse.mpr hrow, by simpa using hid⟩
  obtain ⟨found, hfound⟩ := Option.isSome_iff_exists.mp hsome
  exact ⟨toView wallet found, by rw [viewFrom, hfound]⟩

lemma walletIn_some {db : Database} {userId currency : String} {wallet : Wallet}
    (h : db.walletIn userId currency = some wallet) :
    wallet ∈ db.wallets ∧ wallet.ownerId = userId ∧ wallet.currency = currency :=
  ⟨List.mem_of_find?_eq_some h, by simpa using List.find?_some h⟩

/-- The errors of the transaction that creates a wallet, on the contents at that moment. -/
inductive CreationAborts (draw : Draw) (userId currency : String) (db : Database) :
    LedgerError → Prop
  /-- Somebody else has created the wallet. -/
  | lost {c wallet} : db.walletIn userId currency = some wallet →
      CreationAborts draw userId currency db (.uniqueViolation c)
  | unregistered : (∀ user ∈ db.users, user.id ≠ userId) →
      CreationAborts draw userId currency db (.queryFailed "23503")
  | unfresh {e} : ¬ draw.Fresh db → CreationAborts draw userId currency db e

section Creation

variable {setting : Setting} {i : Nat} {w : LedgerWorld} {job : Job} {userId currency : String}
variable {draw : Draw} {p : List Write} {db db' : Database} {e : LedgerError}

lemma Draw.Fresh.of_grows {locked : List Lock} (hg : db.Grows locked db') (h : draw.Fresh db') :
    draw.Fresh db := by
  obtain ⟨wallets, hwallets, -⟩ := hg.wallets
  obtain ⟨events, hevents, -⟩ := hg.events
  refine ⟨fun wallet hwallet => h.wallet wallet ?_, fun event hevent => h.event event ?_, h.nonempty⟩
  · rw [hwallets]
    exact List.mem_append_left _ hwallet
  · rw [hevents]
    exact List.mem_append_left _ hevent

/-- The insert of the wallet. -/
lemma insertWallet_aborts (h : insertWallet ⟨draw.walletId, userId, currency⟩ db = .error e) :
    CreationAborts draw userId currency db e := by
  unfold insertWallet at h
  split_ifs at h with hid howner huser
  · refine .unfresh fun hfresh => ?_
    obtain ⟨row, hrow, hrid⟩ := List.any_eq_true.mp hid
    exact hfresh.wallet row hrow (by simpa using hrid)
  · obtain rfl := Except.error.inj h
    have hsome : (db.walletIn userId currency).isSome := by
      rw [Database.walletIn, List.find?_isSome]
      exact List.any_eq_true.mp howner
    obtain ⟨wallet, hwallet⟩ := Option.isSome_iff_exists.mp hsome
    exact .lost hwallet
  · obtain rfl := Except.error.inj h
    refine .unregistered fun user hmem hid => huser ?_
    exact List.any_eq_true.mpr ⟨user, hmem, by simpa using hid⟩

/-- The append of the first event can only fail when an id was drawn twice. -/
lemma appendErrors_first :
    AppendErrors setting i [.insertWallet ⟨draw.walletId, userId, currency⟩] w draw.walletId 0
      (createdEvent draw.eventId userId currency) draw.now []
      fun w' e => CreationAborts draw userId currency w'.db e where
  invalid message hinvalid := .unfresh fun hfresh => by
    cases hinvalid.symm.trans (hfresh.validated userId currency)
  decided w₁ w₂ e hw₁ hw₂ _ _ halone := .unfresh fun hfresh => by
    have happ := (hfresh.of_grows (ledger_appends.grows hw₂)).appended hw₁.inv.1 userId currency
    cases halone.symm.trans (alone_appendEvent hw₁.inv.1.gapFree happ)
  taken w₁ id hw₁ htaken := .unfresh fun hfresh => by
    obtain ⟨row, hrow, hid⟩ := htaken
    exact hfresh.event row hrow hid
  moved w₁ e hw₁ hmoved _ := .unfresh fun hfresh => hmoved (hfresh.stream_eq_nil hw₁.inv.1)

/-- The transaction that creates a wallet returns the view of the wallet that is there after its
commit. -/
lemma wp_createWallet :
    (createWallet userId currency draw).wp (ledger setting) (ledgerProtocol setting) i
      (fun w' q reply => ∃ shown, reply = .wallet shown ∧
        ∀ db : Database, w'.db.wallets ⊆ db.wallets → (view db q).Shows userId currency shown)
      (fun w' e => CreationAborts draw userId currency w'.db e) w [] := by
  rw [createWallet_eq, Tx.wp_bind, Tx.wp_query]
  intro w₁ hw₁
  cases hfound : (view ((ledger setting).db w₁) ([] : List Write)).walletIn userId currency with
  | some raced =>
    obtain ⟨hmem, howner, hcurrency⟩ := walletIn_some hfound
    rw [Tx.wp_bind]
    have hmem₂ : ∀ {w' : LedgerWorld}, Later (ledger setting) (ledgerProtocol setting) i [] w₁ w' →
        raced ∈ w'.db.wallets := fun hw' => (ledger_appends.grows hw').mem_wallets hmem
    refine wp_findOrThrow (fun w₂ hw₂ hnone => ?_) fun w₂ row hw₂ _ => ?_
    · obtain ⟨row, hrow⟩ := hw₂.inv.1.projectionOf_some ⟨raced, hmem₂ hw₂, rfl⟩
      cases hnone.symm.trans hrow
    refine ⟨_, rfl, fun db hsub => ?_⟩
    subst howner hcurrency
    exact shows_toView (hsub (hmem₂ hw₂)) row
  | none =>
    refine wp_insertNewWallet (fun w' e _ he => insertWallet_aborts he)
      (fun w' _ => appendErrors_first) fun w₂ _ _ => ⟨_, rfl, fun db _ => ?_⟩
    have hmem : (⟨draw.walletId, userId, currency⟩ : Wallet) ∈ (view db (creationWrites
        ⟨draw.walletId, userId, currency⟩ draw.eventId draw.now draw.carrier)).wallets := by
      rw [wallets_view]
      exact List.mem_append_right _ List.mem_cons_self
    exact shows_toView hmem _

end Creation

/-! ### What the others leave alone -/

section Later

variable {setting : Setting} {i : Nat} {w w' : LedgerWorld} {job : Job} {userId currency : String}
variable {p : List Write} {shown : WalletView} {dto : ValidateInternalTransferDto} {e : LedgerError}

lemma later_wallets (h : Later (ledger setting) (ledgerProtocol setting) i p w w') :
    w.db.wallets ⊆ w'.db.wallets := by
  obtain ⟨more, hmore, -⟩ := (ledger_appends.grows h).wallets
  exact fun wallet hwallet => hmore ▸ List.mem_append_left _ hwallet

lemma later_users (h : Later (ledger setting) (ledgerProtocol setting) i p w w') :
    w'.db.users = w.db.users :=
  (ledger_appends.grows h).users

lemma CreationFails.later (hw : Later (ledger setting) (ledgerProtocol setting) i p w w')
    (h : CreationFails setting w i job userId e) : CreationFails setting w' i job userId e := by
  cases h with
  | failure he => exact .failure he
  | spurious hc => exact .spurious hc
  | unregistered huser => exact .unregistered (later_users hw ▸ huser)
  | unfresh hcommitted hfresh =>
    exact .unfresh (fun hc => hcommitted ((later_committed hw).mp hc))
      fun hf => hfresh (hf.of_grows (ledger_appends.grows hw))

lemma Database.Receives.later (hw : Later (ledger setting) (ledgerProtocol setting) i p w w')
    {lower : String → String} {walletId : String} (h : w.db.Receives lower dto walletId) :
    w'.db.Receives lower dto walletId := by
  obtain ⟨wallet, hwallet, hid, hcurrency, hnamed⟩ := h
  refine ⟨wallet, later_wallets hw hwallet, hid, hcurrency, hnamed.imp_right ?_⟩
  rintro ⟨user, huser, howner⟩
  exact ⟨user, by rw [Database.userLike, later_users hw]; exact huser, howner⟩

lemma TransferRefused.later (hw : Later (ledger setting) (ledgerProtocol setting) i p w w')
    (h : TransferRefused setting w i job dto e) : TransferRefused setting w' i job dto e := by
  cases h with
  | amounts ha => exact .amounts ha
  | failure he => exact .failure he
  | sender hs => exact .sender hs
  | receiver hr => exact .receiver (by rw [Database.userLike, later_users hw]; exact hr)
  | pattern hp => exact .pattern (by rw [Database.userLike, later_users hw]; exact hp)
  | same hs => exact .same (hs.later hw)
  | creation hu hc => exact .creation (later_users hw ▸ hu) (hc.later hw)

end Later

/-! ### The calls -/

section Calls

variable {setting : Setting} {i : Nat} {w : LedgerWorld} {job : Job} {userId currency : String}
variable {β : Type} (hrun : Running setting w i job)

include hrun

/-- The transaction of a call that creates wallets. -/
lemma wp_creation {k : Except LedgerError Reply → LedgerProg β}
    {Φ : LedgerWorld → Except LedgerError β → Prop} (hcreates : job.command.Creates)
    (hok : ∀ w' shown, w'.jobs i = some job → w'.db.Shows userId currency shown →
      (k (.ok (.wallet shown))).wp (ledger setting) (ledgerProtocol setting) i Φ w')
    (herr : ∀ w' e, Running setting w' i job →
      setting.fails e ∨ CreationAborts (job.draw 0) userId currency w'.db e →
      (k (.error e)).wp (ledger setting) (ledgerProtocol setting) i Φ w') :
    (Prog.transaction (createWallet userId currency (job.draw 0)) k).wp (ledger setting)
      (ledgerProtocol setting) i Φ w := by
  intro w₁ hw₁
  have hrun₁ := hrun.later hw₁
  have hcommits := commits_createWallet hcreates userId currency (job.draw 0) w₁ hrun₁
    (fun w' q _ => Later (ledger setting) (ledgerProtocol setting) i [] w₁ w' ∧
      ∀ w'', Later (ledger setting) (ledgerProtocol setting) i q w' w'' →
        Effect job.draw job.startDb w''.db job.command q ∧
          Serial job.command w''.db (createWallet userId currency (job.draw 0)) q)
    (fun w' _ => Later (ledger setting) (ledgerProtocol setting) i [] w₁ w')
    (fun _ _ hw' => hw') fun w' q reply hw' _ hcommit => ⟨hw', hcommit⟩
  refine ⟨Tx.wp_mono (fun w₂ q reply hQ => ?_) (fun w₂ e hE => ?_)
    (Tx.wp_and hcommits wp_createWallet), fun e he => herr w₁ e hrun₁ (.inl he)⟩
  · obtain ⟨⟨hw₂, hcommit⟩, shown, rfl, hshown⟩ := hQ
    intro w₃ hw₃ _
    have hrun₃ := (hrun₁.later hw₂).later hw₃
    obtain ⟨heffect, hserial⟩ := hcommit w₃ hw₃
    exact ⟨⟨job, hrun₃.job_eq, hrun₃.uncommitted, .create hcreates, heffect, hserial⟩,
      hok _ shown hrun₃.job_eq (hshown w₃.db (later_wallets hw₃))⟩
  · exact herr w₂ e (hrun₁.later hE.1) (.inr hE.2)

/-- The view of a wallet that exists: its projection is there. -/
lemma wp_readView_shows {wallet : Wallet} {Φ : LedgerWorld → Except LedgerError Reply → Prop}
    (hwallet : wallet ∈ w.db.wallets)
    (hok : ∀ w' shown, w'.jobs i = some job → w'.db.Shows wallet.ownerId wallet.currency shown →
      Φ w' (.ok (.wallet shown)))
    (herr : ∀ w' e, Running setting w' i job → setting.fails e → Φ w' (.error e)) :
    (readView wallet).wp (ledger setting) (ledgerProtocol setting) i Φ w := by
  rw [readView, Prog.bind_eq, Prog.wp_bind, Prog.wp_read]
  refine fun w' hw' => ⟨?_, fun e he => herr w' e (hrun.later hw') he⟩
  have hwallet' := later_wallets hw' hwallet
  obtain ⟨row, hrow⟩ := hw'.inv.1.projectionOf_some ⟨wallet, hwallet', rfl⟩
  rw [show ((ledger setting).db w').projectionOf wallet.id = some row from hrow]
  exact hok w' _ (hrun.later hw').job_eq (shows_toView hwallet' row)

/-- A call of `getOrCreateForUser` returns the wallet, and does not fail because somebody else was
faster. -/
lemma wp_getOrCreateForUser_shows {Φ : LedgerWorld → Except LedgerError Reply → Prop}
    (hcreates : job.command.Creates)
    (hok : ∀ w' shown, w'.jobs i = some job → w'.db.Shows userId currency shown →
      Φ w' (.ok (.wallet shown)))
    (herr : ∀ w' e, Running setting w' i job → CreationFails setting w' i job userId e →
      Φ w' (.error e)) :
    (Ledger.getOrCreateForUser userId currency (job.draw 0)).wp (ledger setting)
      (ledgerProtocol setting) i Φ w := by
  have hfail : ∀ w' e, Running setting w' i job → setting.fails e → Φ w' (.error e) :=
    fun w' e hrun' he => herr w' e hrun' (.failure he)
  -- the view of a wallet that was found
  have hfound : ∀ w' wallet, Running setting w' i job →
      w'.db.walletIn userId currency = some wallet →
      (readView wallet).wp (ledger setting) (ledgerProtocol setting) i Φ w' := by
    intro w' wallet hrun' hwallet
    obtain ⟨hmem, rfl, rfl⟩ := walletIn_some hwallet
    exact wp_readView_shows hrun' hmem hok hfail
  rw [Ledger.getOrCreateForUser, Prog.bind_eq, Prog.wp_bind, Prog.wp_read]
  refine fun w₁ hw₁ => ⟨?_, fun e he => hfail w₁ e (hrun.later hw₁) he⟩
  have hrun₁ := hrun.later hw₁
  dsimp only
  cases hexisting : ((ledger setting).db w₁).walletIn userId currency with
  | some existing => exact hfound w₁ existing hrun₁ hexisting
  | none =>
    refine wp_creation hrun₁ hcreates hok fun w₂ e hrun₂ haborts => ?_
    dsimp only
    split_ifs with hviolation
    · rw [Prog.bind_eq, Prog.wp_bind, Prog.wp_read]
      refine fun w₃ hw₃ => ⟨?_, fun e' he => hfail w₃ e' (hrun₂.later hw₃) he⟩
      have hrun₃ := hrun₂.later hw₃
      dsimp only
      cases hagain : ((ledger setting).db w₃).walletIn userId currency with
      | some wallet => exact hfound w₃ wallet hrun₃ hagain
      | none =>
        refine herr w₃ _ hrun₃ ?_
        rcases haborts with he | hlost | _ | hfresh
        · obtain ⟨c, rfl⟩ : ∃ c, e = .uniqueViolation c := by
            cases e with
            | uniqueViolation c => exact ⟨c, rfl⟩
            | _ => cases hviolation
          exact .spurious he
        · -- the wallet of the winner cannot have gone
          have hthere := find?_wallets_grows (ledger_appends.grows hw₃) hlost
          cases hagain.symm.trans hthere
        · cases hviolation
        · exact .unfresh hrun₃.uncommitted fun hf =>
            hfresh (hf.of_grows (ledger_appends.grows hw₃))
    · refine herr w₂ e hrun₂ ?_
      rcases haborts with he | hlost | huser | hfresh
      · exact .failure he
      · exact absurd rfl hviolation
      · exact .unregistered huser
      · exact .unfresh hrun₂.uncommitted hfresh

omit hrun in
/-- A `mapM` of which every part succeeds. -/
lemma exists_mapM_ok {α γ ε : Type} {f : α → Except ε γ} {l : List α}
    (h : ∀ a ∈ l, ∃ b, f a = .ok b) :
    ∃ l', l.mapM f = .ok l' ∧ (∀ b ∈ l', ∃ a ∈ l, f a = .ok b) ∧
      ∀ a ∈ l, ∃ b ∈ l', f a = .ok b := by
  induction l with
  | nil => exact ⟨[], rfl, by simp, by simp⟩
  | cons a l ih =>
    obtain ⟨b, hb⟩ := h a (List.mem_cons_self ..)
    obtain ⟨l', hl', hfrom, hto⟩ := ih fun x hx => h x (List.mem_cons_of_mem a hx)
    refine ⟨b :: l', ?_, ?_, ?_⟩
    · rw [List.mapM_cons, hb, hl']
      rfl
    · simp only [List.mem_cons, forall_eq_or_imp, exists_eq_or_imp]
      exact ⟨.inl hb, fun y hy => .inr (hfrom y hy)⟩
    · simp only [List.mem_cons, forall_eq_or_imp, exists_eq_or_imp]
      exact ⟨.inl hb, fun x hx => .inr (hto x hx)⟩

/-- `listForUser` lists the wallets of the user, with the one in dollars among them; no projection is
missing. -/
lemma wp_listForUser {Φ : LedgerWorld → Except LedgerError (List WalletView) → Prop}
    (hcommand : job.command = .getOrCreateForUser userId "USD")
    (hok : ∀ w' views, w'.jobs i = some job → (∃ shown ∈ views, w'.db.Shows userId "USD" shown) →
      (∀ shown ∈ views, ∃ currency, w'.db.Shows userId currency shown) → Φ w' (.ok views))
    (herr : ∀ w' e, w'.jobs i = some job → CreationFails setting w' i job userId e →
      Φ w' (.error e)) :
    (listForUser userId (job.draw 0)).wp (ledger setting) (ledgerProtocol setting) i Φ w := by
  unfold listForUser
  rw [Prog.bind_eq, Prog.wp_bind]
  refine wp_getOrCreateForUser_shows hrun (hcommand ▸ .getOrCreateForUser)
    (fun w₁ shown hjob₁ hshown => ?_) fun w₁ e hrun₁ he => herr w₁ e hrun₁.job_eq he
  dsimp only
  rw [Prog.bind_eq, Prog.wp_bind, Prog.wp_read]
  intro w₂ hw₂
  have hjob₂ : w₂.jobs i = some job := (later_jobs hw₂ (by simp [hjob₁])).trans hjob₁
  refine ⟨?_, fun e he => herr w₂ e hjob₂ (.failure he)⟩
  dsimp only
  rw [Prog.bind_eq, Prog.wp_bind, Prog.wp_read]
  intro w₃ hw₃
  have hjob₃ : w₃.jobs i = some job := (later_jobs hw₃ (by simp [hjob₂])).trans hjob₂
  refine ⟨?_, fun e he => herr w₃ e hjob₃ (.failure he)⟩
  dsimp only
  set wallets := ((ledger setting).db w₂).wallets.filter fun wallet => wallet.ownerId = userId
    with hwallets
  have hmem : ∀ wallet ∈ wallets, wallet ∈ w₃.db.wallets ∧ wallet.ownerId = userId := by
    intro wallet hwallet
    obtain ⟨hin, howner⟩ := List.mem_filter.mp hwallet
    exact ⟨later_wallets hw₃ hin, by simpa using howner⟩
  -- every wallet of the list has a projection when the projections are read
  set projections := ((ledger setting).db w₃).projections.filter fun row =>
    row.walletId ∈ wallets.map (·.id) with hprojections
  have hviews : ∀ wallet ∈ wallets, ∃ view, viewFrom projections wallet = .ok view := by
    intro wallet hwallet
    have hid : wallet.id ∈ w₃.db.projections.map (·.walletId) := by
      rw [hw₃.inv.1.projected]
      exact List.mem_map_of_mem (hmem wallet hwallet).1
    obtain ⟨row, hrow, hid⟩ := List.mem_map.mp hid
    exact viewFrom_ok ⟨row, List.mem_filter.mpr
      ⟨hrow, decide_eq_true (hid ▸ List.mem_map_of_mem hwallet)⟩, hid⟩
  have hshows : ∀ wallet ∈ wallets, ∀ view, viewFrom projections wallet = .ok view →
      w₃.db.Shows userId wallet.currency view := by
    intro wallet hwallet view hview
    obtain ⟨hin, rfl⟩ := hmem wallet hwallet
    exact viewFrom_shows hin hview
  obtain ⟨views, hlist, hfrom, hto⟩ := exists_mapM_ok hviews
  rw [hlist]
  refine hok w₃ views hjob₃ ?_ fun view hview => ?_
  · obtain ⟨wallet, hwallet, howner, hcurrency, -⟩ := hshown.mono (later_wallets hw₂)
    have hin : wallet ∈ wallets := List.mem_filter.mpr ⟨hwallet, decide_eq_true howner⟩
    obtain ⟨view, hview, hf⟩ := hto wallet hin
    exact ⟨view, hview, hcurrency ▸ hshows wallet hin view hf⟩
  · obtain ⟨wallet, hwallet, hf⟩ := hfrom view hview
    exact ⟨wallet.currency, hshows wallet hwallet view hf⟩

/-- The search for the receiver of a transfer by e-mail. -/
lemma wp_findReceiverByEmail_receives {dto : ValidateInternalTransferDto}
    {Φ : LedgerWorld → Except LedgerError Wallet → Prop} (hcreates : job.command.Creates)
    (hok : ∀ w' receiver, w'.jobs i = some job →
      w'.db.Receives (job.draw 0).lower dto receiver.id → Φ w' (.ok receiver))
    (herr : ∀ w' e, w'.jobs i = some job → TransferRefused setting w' i job dto e →
      Φ w' (.error e)) :
    (findReceiverByEmail dto.receiverReference dto.target (job.draw 0)).wp (ledger setting)
      (ledgerProtocol setting) i Φ w := by
  have hfail : ∀ w' e, w'.jobs i = some job → setting.fails e → Φ w' (.error e) :=
    fun w' e hjob he => herr w' e hjob (.failure he)
  have husers : ∀ w', (ledgerProtocol setting).inv w' → w'.jobs i = some job →
      w'.db.users = job.startDb.users :=
    fun w' hinv hjob => (hinv.2.2 i job hjob).2.1.users
  unfold findReceiverByEmail
  rw [Prog.bind_eq, Prog.wp_bind, Prog.wp_read]
  intro w₁ hw₁
  have hrun₁ := hrun.later hw₁
  refine ⟨?_, fun e he => hfail w₁ e hrun₁.job_eq he⟩
  dsimp only
  cases hfound : ((ledger setting).db w₁).userLike (job.draw 0).lower dto.receiverReference with
  | error e => exact herr w₁ e hrun₁.job_eq (.pattern hfound)
  | ok found =>
  cases found with
  | none => exact herr w₁ _ hrun₁.job_eq (.receiver hfound)
  | some user =>
    have hlike : ∀ w', (ledgerProtocol setting).inv w' → w'.jobs i = some job →
        w'.db.userLike (job.draw 0).lower dto.receiverReference = .ok (some user) := by
      intro w' hinv hjob
      rw [Database.userLike, husers w' hinv hjob, ← husers w₁ hw₁.inv hrun₁.job_eq]
      exact hfound
    dsimp only
    rw [Prog.bind_eq, Prog.wp_bind, Prog.wp_read]
    intro w₂ hw₂
    have hrun₂ := hrun₁.later hw₂
    refine ⟨?_, fun e he => hfail w₂ e hrun₂.job_eq he⟩
    dsimp only
    cases hreceiver : ((ledger setting).db w₂).walletIn user.id dto.target with
    | some receiver =>
      obtain ⟨hmem, howner, hcurrency⟩ := walletIn_some hreceiver
      exact hok w₂ receiver hrun₂.job_eq
        ⟨receiver, hmem, rfl, hcurrency, .inr ⟨user, hlike w₂ hw₂.inv hrun₂.job_eq, howner.symm⟩⟩
    | none =>
      dsimp only
      rw [Prog.bind_eq, Prog.wp_bind]
      refine wp_getOrCreateForUser_shows hrun₂ hcreates (fun w₃ created hjob₃ hcreated => ?_)
        fun w₃ e hrun₃ he => herr w₃ e hrun₃.job_eq (.creation ?_ he)
      · dsimp only
        rw [Prog.bind_eq, Prog.wp_bind, Prog.wp_read]
        intro w₄ hw₄
        have hjob₄ : w₄.jobs i = some job := (later_jobs hw₄ (by simp [hjob₃])).trans hjob₃
        refine ⟨?_, fun e he => hfail w₄ e hjob₄ he⟩
        dsimp only
        obtain ⟨wallet, hwallet, howner, hcurrency, hid, -⟩ := hcreated.mono (later_wallets hw₄)
        obtain ⟨receiver, hreceiver⟩ := walletById_some ⟨wallet, hwallet, hid.symm⟩
        rw [show ((ledger setting).db w₄).walletById created.id = some receiver from hreceiver]
        -- the wallet with the id of the view is the one that the view shows
        have hmem : receiver ∈ w₄.db.wallets := List.mem_of_find?_eq_some hreceiver
        have hrid : receiver.id = created.id := by simpa using List.find?_some hreceiver
        obtain rfl : receiver = wallet :=
          List.inj_on_of_nodup_map hw₄.inv.1.walletIds hmem hwallet (hrid.trans hid)
        exact hok w₄ receiver hjob₄
          ⟨receiver, hmem, rfl, hcurrency, .inr ⟨user, hlike w₄ hw₄.inv hjob₄, howner.symm⟩⟩
      · exact (mem_of_firstLike (hlike w₃ hrun₃.inv hrun₃.job_eq)).1

/-- The search for the receiver of a transfer. -/
lemma wp_findReceiver_receives {dto : ValidateInternalTransferDto}
    {Φ : LedgerWorld → Except LedgerError Wallet → Prop} (hcreates : job.command.Creates)
    (hok : ∀ w' receiver, w'.jobs i = some job →
      w'.db.Receives (job.draw 0).lower dto receiver.id → Φ w' (.ok receiver))
    (herr : ∀ w' e, w'.jobs i = some job → TransferRefused setting w' i job dto e →
      Φ w' (.error e)) :
    (findReceiver dto.receiverReference dto.target (job.draw 0)).wp (ledger setting)
      (ledgerProtocol setting) i Φ w := by
  unfold findReceiver
  split_ifs with huuid
  · rw [Prog.bind_eq, Prog.wp_bind, Prog.wp_read]
    intro w₁ hw₁
    have hrun₁ := hrun.later hw₁
    refine ⟨?_, fun e he => herr w₁ e hrun₁.job_eq (.failure he)⟩
    dsimp only
    split
    · rename_i receiver hreceiver
      have hnamed : receiver.id = uuid dto.receiverReference ∧ receiver.currency = dto.target := by
        simpa using List.find?_some hreceiver
      exact hok w₁ receiver hrun₁.job_eq ⟨receiver, List.mem_of_find?_eq_some hreceiver, rfl,
        hnamed.2, .inl ⟨huuid, hnamed.1⟩⟩
    · exact wp_findReceiverByEmail_receives hrun₁ hcreates hok herr
  · exact wp_findReceiverByEmail_receives hrun hcreates hok herr

/-- `validateTransfer` after the amounts. -/
lemma wp_validateWallets_receives {dto : ValidateInternalTransferDto}
    {Φ : LedgerWorld → Except LedgerError Reply → Prop} (hcreates : job.command.Creates)
    (hok : ∀ w' walletId, w'.jobs i = some job →
      w'.db.Receives (job.draw 0).lower dto walletId → Φ w' (.ok (.validated walletId)))
    (herr : ∀ w' e, w'.jobs i = some job → TransferRefused setting w' i job dto e →
      Φ w' (.error e)) :
    (validateWallets dto (job.draw 0)).wp (ledger setting) (ledgerProtocol setting) i Φ w := by
  unfold validateWallets
  rw [Prog.bind_eq, Prog.wp_bind, Prog.wp_read]
  intro w₁ hw₁
  have hrun₁ := hrun.later hw₁
  refine ⟨?_, fun e he => herr w₁ e hrun₁.job_eq (.failure he)⟩
  dsimp only
  split
  · rename_i hnone
    refine herr w₁ _ hrun₁.job_eq (.sender ?_)
    cases hsender : job.startDb.senderOf dto with
    | none => rfl
    | some sender =>
      have hthere := find?_wallets_grows hrun₁.start_grows hsender
      cases hnone.symm.trans hthere
  · rename_i sender hsender
    have hid : sender.id = uuid dto.senderWalletId := by
      have hfound := List.find?_some hsender
      simp only [decide_eq_true_eq] at hfound
      exact hfound.1
    rw [Prog.bind_eq, Prog.wp_bind]
    refine wp_findReceiver_receives hrun₁ hcreates (fun w₂ receiver hjob₂ hreceives => ?_)
      fun w₂ e hjob₂ he => herr w₂ e hjob₂ he
    dsimp only
    split_ifs with hsame
    · exact herr w₂ _ hjob₂ (.same (hsame.trans hid ▸ hreceives))
    · exact hok w₂ receiver.id hjob₂ hreceives

/-- `validateTransfer` finds the wallet that receives the transfer, and refuses for a reason of the
request. -/
lemma wp_validateTransfer_receives {dto : ValidateInternalTransferDto}
    {Φ : LedgerWorld → Except LedgerError Reply → Prop} (hcreates : job.command.Creates)
    (hok : ∀ w' walletId, w'.jobs i = some job →
      w'.db.Receives (job.draw 0).lower dto walletId → Φ w' (.ok (.validated walletId)))
    (herr : ∀ w' e, w'.jobs i = some job → TransferRefused setting w' i job dto e →
      Φ w' (.error e)) :
    (Ledger.validateTransfer dto (job.draw 0)).wp (ledger setting) (ledgerProtocol setting) i Φ w := by
  have hrest := wp_validateWallets_receives hrun hcreates hok herr
  unfold Ledger.validateTransfer
  simp only [Prog.bind_eq]
  cases hn : toPositiveMinorUnits dto.amount with
  | error e =>
    refine herr w e hrun.job_eq (.amounts fun hvalid => ?_)
    obtain ⟨n, hn'⟩ := hvalid.1
    cases hn.symm.trans hn'
  | ok n =>
    cases hdestination : dto.destinationAmount with
    | none => exact hrest
    | some destinationAmount =>
      cases hd : toPositiveMinorUnits destinationAmount with
      | error e =>
        have hrefused : Φ w (.error e) := by
          refine herr w e hrun.job_eq (.amounts fun hvalid => ?_)
          obtain ⟨d, hd'⟩ := hvalid.2 destinationAmount hdestination
          cases hd.symm.trans hd'
        refine Eq.mpr ?_ hrefused
        simp only [hd]
        rfl
      | ok d =>
        refine Eq.mpr ?_ hrest
        simp only [hd]
        rfl

end Calls

/-! ### Every call keeps its promise -/

/-- What the ledger promises the callers of the wallet service. -/
def clientProtocol (setting : Setting) :
    Protocol Nat LedgerWorld Database Write LedgerError Reply Empty Response :=
  (ledgerProtocol setting).ensuring fun w i r =>
    ∀ job, w.jobs i = some job → Provides setting w i job r

lemma covers_startsClient (setting : Setting) :
    (ledger setting).Covers (startsClient setting) := by
  rintro w i program w' ⟨hnone, draw, huuid, ⟨command, -, rfl⟩ | ⟨userId, -, rfl⟩⟩
  · exact ⟨_, hnone, command, draw, huuid, rfl, rfl⟩
  · exact ⟨_, hnone, _, draw, huuid, rfl, rfl⟩

section Promises

variable {setting : Setting} {i : Nat} {w : LedgerWorld} {job : Job}

/-- The promise to the caller of thread `i`, whatever the others do from now on. -/
def Promised (setting : Setting) (i : Nat) (w : LedgerWorld) (r : Except LedgerError Response) :
    Prop :=
  ∀ w', Later (ledger setting) (ledgerProtocol setting) i [] w w' →
    ∀ job, w'.jobs i = some job → Provides setting w' i job r

lemma Promised.of_later {r : Except LedgerError Response} (hjob : w.jobs i = some job)
    (h : ∀ w', Later (ledger setting) (ledgerProtocol setting) i [] w w' →
      Provides setting w' i job r) : Promised setting i w r := by
  intro w' hw' job' hjob'
  obtain rfl : job' = job :=
    Option.some.inj (hjob'.symm.trans ((later_jobs hw' (by simp [hjob])).trans hjob))
  exact h w' hw'

/-- A command that creates no wallets keeps whatever it promises: nothing. -/
lemma wp_other_promised {command : Command} {draw : Nat → Draw} {startDb : Database}
    {program : LedgerProg Response}
    (hrun : Running setting w i ⟨command, draw, startDb⟩)
    (hnothing : ∀ w' r, Provides setting w' i ⟨command, draw, startDb⟩ r)
    (h : program.wp (ledger setting) (ledgerProtocol setting) i (fun _ _ => True) w) :
    program.wp (ledger setting) (ledgerProtocol setting) i (Promised setting i) w := by
  -- the job of the thread stays until the end
  have hframe := Prog.wp_frame
    (K := fun w : LedgerWorld => w.jobs i = some ⟨command, draw, startDb⟩)
    (fun w w' p hw hK => (later_jobs hw (by simp [hK])).trans hK) (fun _ _ _ _ hK => hK)
    (fun _ q => nomatch q) hrun.job_eq h
  exact Prog.wp_mono (fun w' r hK => .of_later hK.2 fun w'' _ => hnothing w'' r) hframe

/-- Every command keeps its promise. -/
lemma wp_command_promised {command : Command} {draw : Nat → Draw} {startDb : Database}
    (hrun : Running setting w i ⟨command, draw, startDb⟩)
    (hsound : (command.program draw).wp (ledger setting) (ledgerProtocol setting) i
      (fun _ _ => True) w) :
    ((command.program draw).bind fun reply => .done (.ok (.reply reply))).wp (ledger setting)
      (ledgerProtocol setting) i (Promised setting i) w := by
  have hreplies : ((command.program draw).bind fun reply => .done (.ok (Response.reply reply))).wp
      (ledger setting) (ledgerProtocol setting) i (fun _ _ => True) w := by
    rw [Prog.wp_bind]
    refine Prog.wp_mono (fun w' r _ => ?_) hsound
    cases r <;> trivial
  cases command with
  | getOrCreateForUser userId currency =>
    rw [Prog.wp_bind]
    refine wp_getOrCreateForUser_shows hrun .getOrCreateForUser (fun w' shown hjob hshown => ?_)
      fun w' e hrun' he => ?_
    · exact .of_later hjob fun w'' hw'' => ⟨shown, rfl, hshown.mono (later_wallets hw'')⟩
    · exact .of_later hrun'.job_eq fun w'' hw'' => he.later hw''
  | validateTransfer dto =>
    rw [Prog.wp_bind]
    refine wp_validateTransfer_receives hrun .validateTransfer (fun w' walletId hjob hreceives => ?_)
      fun w' e hjob he => ?_
    · exact .of_later hjob fun w'' hw'' => ⟨walletId, rfl, hreceives.later hw''⟩
    · exact .of_later hjob fun w'' hw'' => he.later hw''
  | _ => exact wp_other_promised hrun (fun _ _ => trivial) hreplies

/-- A listing keeps its promise. -/
lemma wp_listForUser_promised {userId : String} {draw : Nat → Draw} {startDb : Database}
    (hrun : Running setting w i ⟨.getOrCreateForUser userId "USD", draw, startDb⟩) :
    ((listForUser userId (draw 0)).bind fun views => .done (.ok (.wallets views))).wp
      (ledger setting) (ledgerProtocol setting) i (Promised setting i) w := by
  rw [Prog.wp_bind]
  refine wp_listForUser hrun rfl (fun w' views hjob hdollars hviews => ?_) fun w' e hjob he => ?_
  · refine .of_later hjob fun w'' hw'' => ⟨?_, fun shown hshown => ?_⟩
    · obtain ⟨shown, hmem, hshown⟩ := hdollars
      exact ⟨shown, hmem, hshown.mono (later_wallets hw'')⟩
    · obtain ⟨currency, hc⟩ := hviews shown hshown
      exact ⟨currency, hc.mono (later_wallets hw'')⟩
  · exact .of_later hjob fun w'' hw'' => he.later hw''

/-- The wallet service keeps its promises. -/
theorem walletClients_sound (setting : Setting) :
    (clientProtocol setting).Sound (walletClients setting) := by
  refine (ledger_sound setting).offering (covers_startsClient setting) fun w i p w' hinv hs => ?_
  obtain ⟨hnone, draw, huuid, hstart⟩ := hs
  have hrun : ∀ command, Running setting (w.start i command draw) i ⟨command, draw, w.db⟩ :=
    fun command => ⟨ledgerProtocol_inv_start hinv hnone huuid, by simp [LedgerWorld.start],
      fun ⟨c, hc, hi⟩ => hinv.2.1 c hc (hi ▸ hnone)⟩
  rcases hstart with ⟨command, rfl, rfl⟩ | ⟨userId, rfl, rfl⟩
  · have hsound := (ledger_sound setting).start_wp w i _ _ hinv
      ⟨hnone, command, draw, huuid, rfl, rfl⟩
    exact wp_command_promised (hrun command) (Prog.wp_mono (fun _ _ _ => trivial) hsound)
  · exact wp_listForUser_promised (hrun _)

end Promises

/-! ### One wallet for each owner and currency -/

section Single

variable {draw : Nat → Draw} {startDb db : Database} {command : Command} {body : LedgerTx Reply}
variable {wallet : Wallet} {ws : List Write}

/-- The only transaction of a command that creates wallets. -/
lemma Command.Attempts.creates (h : command.Attempts draw body) (hcreates : command.Creates) :
    ∃ userId currency, body = createWallet userId currency (draw 0) := by
  cases h with
  | create => exact ⟨_, _, rfl⟩
  | hold hruns =>
    cases hruns with
    | place hplaces => exact (hcreates.not_places hplaces).elim
    | release hreleases => exact (hcreates.not_releases hreleases).elim
    | consume => cases hcreates
  | _ => cases hcreates

/-- A transaction that creates a wallet alone has found none before. -/
lemma alone_createWallet_new {userId currency : String} {draw : Draw} {reply : Reply}
    {eventId : String} {now : Int} {carrier : TraceCarrier}
    (h : (createWallet userId currency draw).alone db [] =
      .ok (reply, creationWrites wallet eventId now carrier)) :
    ∀ row ∈ db.wallets, row.ownerId = wallet.ownerId → row.currency ≠ wallet.currency := by
  rw [createWallet_eq] at h
  obtain ⟨found, p, hfound, h⟩ := Tx.alone_bind_eq_ok h
  rw [Tx.alone_query] at hfound
  cases hfound
  cases hraced : (view db ([] : List Write)).walletIn userId currency with
  | some raced =>
    rw [hraced] at h
    obtain ⟨projection, p, hprojection, h⟩ := Tx.alone_bind_eq_ok h
    cases h
    simp only [findOrThrow, Tx.bind_eq, Tx.alone_bind, Tx.alone_query, Except.bind] at hprojection
    cases hrow : (view db ([] : List Write)).projectionOf raced.id with
    | some row =>
      rw [hrow] at hprojection
      cases hprojection
    | none =>
      rw [hrow] at hprojection
      cases hprojection
  | none =>
    rw [hraced] at h
    obtain ⟨u, p, hinsert, h⟩ := Tx.alone_bind_eq_ok h
    obtain ⟨ws, hws, rfl⟩ := Tx.alone_write_eq_ok hinsert
    obtain ⟨rfl, -, hnew, -⟩ := insertWallet_ok.mp hws
    obtain ⟨more, hmore⟩ := Tx.alone_pending h
    obtain rfl : wallet = ⟨draw.walletId, userId, currency⟩ :=
      Write.insertWallet.inj (List.cons.inj hmore).1
    exact hnew

/-- A commit adds no wallet, or the first one of its owner in its currency. -/
lemma insertedWallets_commit (hattempt : command.Attempts draw body)
    (heffect : Effect draw startDb db command ws) (hserial : Serial command db body ws) :
    insertedWallets ws = [] ∨ ∃ wallet, insertedWallets ws = [wallet] ∧
      ∀ row ∈ db.wallets, row.ownerId = wallet.ownerId → row.currency ≠ wallet.currency := by
  cases heffect with
  | noop => exact .inl rfl
  | recorded => exact .inl rfl
  | settled => exact .inl rfl
  | @created _ wallet eventId now carrier hcreates =>
    refine .inr ⟨wallet, rfl, ?_⟩
    obtain ⟨userId, currency, rfl⟩ := hattempt.creates hcreates
    rcases hserial with ⟨hnil, -⟩ | ⟨reply, halone⟩
    · cases hnil
    · exact alone_createWallet_new halone

/-- No owner has two wallets in one currency. -/
def Database.Single (db : Database) : Prop :=
  (db.wallets.map fun wallet => (wallet.ownerId, wallet.currency)).Nodup

lemma Database.Single.commit (h : db.Single) (hattempt : command.Attempts draw body)
    (heffect : Effect draw startDb db command ws) (hserial : Serial command db body ws) :
    (view db ws).Single := by
  unfold Database.Single at h ⊢
  rw [wallets_view]
  rcases insertedWallets_commit hattempt heffect hserial with hnone | ⟨wallet, hone, hnew⟩
  · rwa [hnone, List.append_nil]
  · rw [hone, List.map_append, List.map_singleton]
    refine List.nodup_append'.mpr ⟨h, List.nodup_singleton _, ?_⟩
    refine List.disjoint_singleton.mpr fun hmem => ?_
    obtain ⟨row, hrow, heq⟩ := List.mem_map.mp hmem
    obtain ⟨howner, hcurrency⟩ := Prod.mk.inj heq
    exact hnew row hrow howner hcurrency

end Single

/-- In every run of the ledger with any number of calls there is one wallet for each owner and
currency at most; its stream begins with its only creation, its projection is there; and every call
that has ended has returned that wallet, or has thrown for a reason that is not the race. -/
theorem wallet_creation_single (setting : Setting) (users : List User)
    (s : Sys Nat LedgerWorld Database Write LedgerError Reply Empty Empty Unit Response)
    (hs : Reaches (walletClients setting) (Sys.init (.initial users)) s) :
    s.world.db.Single ∧
    (∀ wallet ∈ s.world.db.wallets,
      Opens wallet.ownerId wallet.currency (s.world.db.loadStream wallet.id) ∧
      ∃ row, s.world.db.projectionOf wallet.id = some row) ∧
    ∀ i r job, s.threads i = .run (.done r) → s.world.jobs i = some job →
      Provides setting s.world i job r := by
  have hinv : (clientProtocol setting).inv (LedgerWorld.initial users) :=
    ⟨Consistent.initial users, by simp [LedgerWorld.initial], by simp [LedgerWorld.initial]⟩
  have hok := (Sys.Ok.init hinv).reaches (walletClients_sound setting) hs
  have hsingle : s.world.db.Single := by
    refine (Sys.Ok.init hinv).invariant (P := fun w => w.db.Single) (walletClients_sound setting)
      (fun w c _ hw _ hguar => ?_) (fun _ _ q => q.elim) (fun w i p w' _ hw hst => ?_)
      (fun _ _ _ _ h => h.elim) List.nodup_nil hs
    · obtain ⟨job, -, -, hattempt, heffect, hserial⟩ := hguar
      exact hw.commit hattempt heffect hserial
    · obtain ⟨-, draw, -, ⟨command, -, rfl⟩ | ⟨userId, -, rfl⟩⟩ := hst
      · exact hw
      · exact hw
  have hc : Consistent s.world.db := hok.inv.1
  exact ⟨hsingle, fun wallet hwallet => ⟨hc.opens hwallet, hc.projectionOf_some ⟨wallet, hwallet, rfl⟩⟩,
    fun i r job hi hjob => hok.post hi job hjob⟩

/-! ### Two calls at once -/

/-- Two clients have just called: one asks for Ann's wallet in dollars, the other lists her wallets. -/
def annTwice : Sys Nat LedgerWorld Database Write LedgerError Reply Empty Empty Unit Response :=
  let w := LedgerWorld.initial [⟨"ann", "ann@example.com"⟩]
  let first := w.start 0 (.getOrCreateForUser "ann" "USD") (drawFor "first")
  let second := first.start 1 (.getOrCreateForUser "ann" "USD") (drawFor "second")
  ((Sys.init w).set 0 (.run (do
      return .reply (← (Command.getOrCreateForUser "ann" "USD").program (drawFor "first")))) first).set 1
    (.run (do return .wallets (← listForUser "ann" (drawFor "second" 0)))) second

lemma reaches_annTwice : Reaches (walletClients (openLedger fun _ => True))
    (Sys.init (.initial [⟨"ann", "ann@example.com"⟩])) annTwice :=
  .head (.start rfl ⟨rfl, _, fun _ => trivial, .inl ⟨_, rfl, rfl⟩⟩)
    (.single (.start rfl ⟨rfl, _, fun _ => trivial, .inr ⟨_, rfl, rfl⟩⟩))

/-- Both find no wallet; the first one creates it; the second one fails at the index and reads it. -/
def annTwiceOrder : List Nat :=
  [0, 1, 0, 1, 0, 1, 0, 0, 0, 0, 0, 0, 0, 1, 1, 1, 1, 1]

/-- The listing has ended with the wallet of the first caller. -/
def listedFirst (s : Sys Nat LedgerWorld Database Write LedgerError Reply Empty Empty Unit Response) :
    Bool :=
  match s.threads 1 with
  | .run (.done (.ok (.wallets views))) => views.map (·.id) = ["first-wallet"]
  | _ => false

theorem wallet_creation_single_annTwice :
    ∃ s, listedFirst s = true ∧ s.world.db.Single ∧
      ∀ i r job, s.threads i = .run (.done r) → s.world.jobs i = some job →
        Provides (openLedger fun _ => True) s.world i job r := by
  have hlisted : (annTwice.ticks (walletClients (openLedger fun _ => True)) [0, 1]
      annTwiceOrder).any listedFirst = true := by decide +kernel
  obtain ⟨s, hs, hlisted⟩ := (Option.any_eq_true _ _).mp hlisted
  have hquiet : annTwice.QuietBut [0, 1] := by
    intro i hi
    obtain ⟨h0, h1⟩ : i ≠ 0 ∧ i ≠ 1 := by simpa using hi
    rw [annTwice, Sys.set_threads_ne _ h1, Sys.set_threads_ne _ h0]
    rfl
  have hreach := reaches_annTwice.trans
    (hquiet.ticks (by decide) (fun _ _ _ => trivial) hs)
  obtain ⟨hsingle, -, hprovides⟩ :=
    wallet_creation_single (openLedger fun _ => True) _ s hreach
  exact ⟨s, hlisted, hsingle, hprovides⟩

end Ledger

end PeerLedger
