import PeerLedger.Ledger.Rebuilds

/-!
# The receiver of a transfer

`validateTransfer` looks for the receiver's wallet by its id and then for the receiver by e-mail.  The
e-mail is compared with `ILIKE`, for which the reference of the request is a pattern: `%` and `_` in it
match other e-mails too, and a backslash at its end is an error.  `receiver_by_reference` says for
which requests the money goes to the referenced receiver all the same.
-/

namespace PeerLedger

namespace Ledger

open Transactions WalletAggregate Formats

/-! ### References -/

/-- The same text up to letter case. -/
def sameText (lower : String → String) (s t : String) : Prop := lower s = lower t

instance (lower : String → String) (s t : String) : Decidable (sameText lower s t) :=
  inferInstanceAs (Decidable (_ = _))

/-- The currency in which the receiver is paid. -/
def ValidateInternalTransferDto.target (dto : ValidateInternalTransferDto) : String :=
  dto.targetCurrency.getD dto.currency

/-- The amounts of the request are positive amounts of money. -/
def ValidateInternalTransferDto.AmountsValid (dto : ValidateInternalTransferDto) : Prop :=
  (∃ n, toPositiveMinorUnits dto.amount = .ok n) ∧
    ∀ destinationAmount, dto.destinationAmount = some destinationAmount →
      ∃ n, toPositiveMinorUnits destinationAmount = .ok n

namespace Database

variable (db : Database)

/-- The sender's wallet of a request. -/
def senderOf (dto : ValidateInternalTransferDto) : Option Wallet :=
  db.wallets.find? fun wallet => wallet.id = uuid dto.senderWalletId ∧
    wallet.ownerId = dto.senderUserId ∧ wallet.currency = dto.currency

/-- The wallet that a reference names by its id. -/
def walletNamed (reference currency : String) : Option Wallet :=
  if isUuid reference then
    db.wallets.find? fun wallet => wallet.id = uuid reference ∧ wallet.currency = currency
  else none

/-- A user has the reference as e-mail. -/
def HasUser (lower : String → String) (reference : String) : Prop :=
  ∃ user ∈ db.users, sameText lower user.email reference

end Database

/-- The ids that the database and `randomUUID()` draw for a new wallet are new. -/
structure Draw.Fresh (draw : Draw) (db : Database) : Prop where
  wallet : ∀ wallet ∈ db.wallets, wallet.id ≠ draw.walletId
  event : ∀ e ∈ db.events, e.eventId ≠ draw.eventId
  nonempty : draw.walletId ≠ "" ∧ draw.eventId ≠ ""

/-- What `validateTransfer` owes its caller: the receiver's wallet has the target currency, and is the
wallet that the reference names, or belongs to the user whose e-mail it is; and when there is neither
such a wallet nor such a user, it throws, creates no wallet, and finds nothing, provided that it gets
beyond the amounts. -/
structure SendsToReference (lower : String → String) (dto : ValidateInternalTransferDto)
    (db db' : Database) (outcome : Except LedgerError Reply) : Prop where
  receiver : ∀ walletId, outcome = .ok (.validated walletId) →
    ∃ wallet ∈ db'.wallets, wallet.id = walletId ∧ wallet.currency = dto.target ∧
      ((isUuid dto.receiverReference = true ∧ wallet.id = uuid dto.receiverReference) ∨
        ∃ user ∈ db'.users, user.id = wallet.ownerId ∧
          sameText lower user.email dto.receiverReference)
  unknown : db.walletNamed dto.receiverReference dto.target = none →
    ¬ db.HasUser lower dto.receiverReference →
    db'.wallets = db.wallets ∧ ∃ e, outcome = .error e ∧
      (dto.AmountsValid → ∃ message, e = .notFound message)

/-- The search by e-mail fails although nobody has the reference as e-mail, or the first user that
`ILIKE` finds has another e-mail, and it is not the case that this user's wallet is the sender's while
the e-mail of the reference belongs to somebody else. -/
def MisreadsEmail (lower : String → String) (db : Database) (dto : ValidateInternalTransferDto)
    (sender : Wallet) : Prop :=
  (∃ e, db.userLike lower dto.receiverReference = .error e ∧
    ¬ db.HasUser lower dto.receiverReference) ∨
  ∃ user, db.userLike lower dto.receiverReference = .ok (some user) ∧
    ¬ sameText lower user.email dto.receiverReference ∧
    ¬ (db.walletIn user.id dto.target = some sender ∧ db.HasUser lower dto.receiverReference)

/-- The request gets as far as the search by e-mail, which misreads the reference. -/
def MisreadsReference (lower : String → String) (db : Database)
    (dto : ValidateInternalTransferDto) : Prop :=
  dto.AmountsValid ∧ ∃ sender, db.senderOf dto = some sender ∧
    db.walletNamed dto.receiverReference dto.target = none ∧ MisreadsEmail lower db dto sender

/-! ### The search by e-mail -/

section Like

variable {lower : String → String} {reference : String} {users : List User} {user : User}

/-- The user that is found is one whose e-mail is like the reference. -/
lemma mem_of_firstLike (h : firstLike lower reference users = .ok (some user)) :
    user ∈ users ∧ iLike lower user.email reference = .matched := by
  induction users with
  | nil => cases h
  | cons first rest ih =>
    rw [firstLike] at h
    split at h
    case h_1 hmatched =>
      obtain rfl := Option.some.inj (Except.ok.inj h)
      exact ⟨List.mem_cons_self, hmatched⟩
    case h_2 => cases h
    case h_3 => exact ⟨List.mem_cons_of_mem _ (ih h).1, (ih h).2⟩

/-- The search fails only on a comparison that reaches a backslash at the end of the reference. -/
lemma invalid_of_firstLike {e : LedgerError} (h : firstLike lower reference users = .error e) :
    e = .queryFailed "22025" ∧ ∃ user ∈ users, iLike lower user.email reference = .invalid := by
  induction users with
  | nil => cases h
  | cons first rest ih =>
    rw [firstLike] at h
    split at h
    case h_1 => cases h
    case h_2 hinvalid => exact ⟨(Except.error.inj h).symm, first, List.mem_cons_self, hinvalid⟩
    case h_3 =>
      obtain ⟨he, user, huser, hinvalid⟩ := ih h
      exact ⟨he, user, List.mem_cons_of_mem _ huser, hinvalid⟩

/-- A reference without wildcards and backslashes is never misread. -/
lemma not_misreadsReference_of_plain {db : Database} {dto : ValidateInternalTransferDto}
    (h : LikePattern.Plain (lower dto.receiverReference).toList) :
    ¬ MisreadsReference lower db dto := by
  rintro ⟨-, sender, -, -, ⟨e, herror, -⟩ | ⟨user, hfound, hother, -⟩⟩
  · obtain ⟨-, user, -, hinvalid⟩ := invalid_of_firstLike herror
    exact (LikePattern.compare_plain h).1 hinvalid
  · have hmatched := (mem_of_firstLike hfound).2
    exact hother (String.toList_injective ((LikePattern.compare_plain h).2 hmatched))

end Like

/-! ### A new wallet, alone -/

/-- A new wallet id names no stream. -/
lemma Draw.Fresh.stream_eq_nil {draw : Draw} {db : Database} (h : draw.Fresh db)
    (hc : Consistent db) : db.stream draw.walletId = [] := by
  refine List.filter_eq_nil_iff.mpr fun e he hstream => ?_
  obtain ⟨owner, howner, hid⟩ := hc.streams e he
  exact h.wallet owner howner (hid.trans (by simpa using hstream))

/-- The first event of a wallet is valid. -/
lemma Draw.Fresh.validated {draw : Draw} {db : Database} (h : draw.Fresh db)
    (ownerId currency : String) :
    validateAppendRequest ⟨draw.walletId, "Wallet", 0,
      [createdEvent draw.eventId ownerId currency]⟩ = .ok () := by
  have htype : isBlank WALLET_CREATED = false := by decide
  have haggregate : isBlank "Wallet" = false := by decide
  simp [validateAppendRequest, validateEvents, createdEvent, h.nonempty, htype, haggregate]

/-- With new ids the first event of a wallet can be appended. -/
lemma Draw.Fresh.appended {draw : Draw} {db : Database} (h : draw.Fresh db) (hc : Consistent db)
    (ownerId currency : String) :
    AppendedEvent draw.walletId 0 (createdEvent draw.eventId ownerId currency) draw.now db
      [.insertWallet ⟨draw.walletId, ownerId, currency⟩] := by
  set wallet : Wallet := ⟨draw.walletId, ownerId, currency⟩ with hwallet
  have hempty : (view db [Write.insertWallet wallet]).stream draw.walletId = [] :=
    h.stream_eq_nil hc
  have hevent : insertEvent (firstEvent wallet draw) (view db [Write.insertWallet wallet]) =
      .ok [.insertEvent (firstEvent wallet draw)] := by
    have hfits : fitsInteger 1 ∧ fitsInteger 2 := by decide
    refine insertEvent_ok.mpr ⟨rfl, hfits, ⟨one_pos, two_pos⟩, h.event, fun row hrow hid => ?_⟩
    have hmem : row ∈ (view db [Write.insertWallet wallet]).stream draw.walletId :=
      List.mem_filter.mpr ⟨hrow, decide_eq_true hid⟩
    rw [hempty] at hmem
    cases hmem
  exact
    { validated := h.validated ownerId currency
      expectedVersion := congrArg (fun events => (List.length events : Int)) hempty
      aggregateType := fun e he => by
        rw [hempty] at he
        cases he
      stored_eq := rfl
      pending_eq := rfl
      inserted := Tx.alone_bind_ok (alone_write_ok hevent) rfl }

/-- A wallet that is created alone, with new ids. -/
lemma alone_getOrCreateForUser {db : Database} (hc : Consistent db) {user : User}
    (huser : user ∈ db.users) {currency : String} {draw : Draw} (hfresh : draw.Fresh db)
    (hnone : db.walletIn user.id currency = none) :
    (getOrCreateForUser user.id currency draw).alone db =
      (.ok (.wallet (toView ⟨draw.walletId, user.id, currency⟩ (firstProjection draw.walletId 1))),
        view db (creationWrites ⟨draw.walletId, user.id, currency⟩ draw.eventId draw.now
          draw.carrier)) := by
  set wallet : Wallet := ⟨draw.walletId, user.id, currency⟩ with hwallet
  have hinsert : insertWallet wallet db = .ok [.insertWallet wallet] := by
    refine insertWallet_ok.mpr ⟨rfl, hfresh.wallet, fun row hrow howner hcurrency => ?_,
      user, huser, rfl⟩
    have := List.find?_eq_none.mp hnone row hrow
    simp [howner, hcurrency, hwallet] at this
  have hcreates : CreatesWallet wallet draw db :=
    ⟨hc, hinsert, hfresh.appended hc user.id currency⟩
  have hcreate : (createWallet user.id currency draw).alone db [] =
      .ok (.wallet (toView wallet (firstProjection wallet.id 1)),
        creationWrites wallet draw.eventId draw.now draw.carrier) := by
    rw [createWallet_eq]
    refine Tx.alone_bind_ok (Tx.alone_query _ _ _) ?_
    rw [view_nil, hnone]
    exact hcreates.alone
  unfold getOrCreateForUser
  rw [Prog.bind_eq, Prog.alone_bind_read, hnone]
  exact Prog.alone_transaction hcreate _

/-! ### The search, alone -/

section Search

variable {db : Database} {reference currency : String} {draw : Draw}

/-- The wallet with the referenced id. -/
lemma alone_findReceiver_named {wallet : Wallet}
    (hnamed : db.walletNamed reference currency = some wallet) :
    (findReceiver reference currency draw).alone db = (.ok wallet, db) := by
  unfold Database.walletNamed at hnamed
  split_ifs at hnamed with huuid
  unfold findReceiver
  rw [if_pos huuid, Prog.bind_eq, Prog.alone_bind_read, hnamed]
  rfl

/-- Without such a wallet the search goes on by e-mail. -/
lemma alone_findReceiver_unnamed (hnamed : db.walletNamed reference currency = none) :
    (findReceiver reference currency draw).alone db =
      (findReceiverByEmail reference currency draw).alone db := by
  unfold Database.walletNamed at hnamed
  unfold findReceiver
  split_ifs at hnamed with huuid
  · rw [if_pos huuid, Prog.bind_eq, Prog.alone_bind_read, hnamed]
  · rw [if_neg huuid]
    rfl

/-- Nobody is found. -/
lemma alone_findReceiverByEmail_none (hlike : db.userLike draw.lower reference = .ok none) :
    (findReceiverByEmail reference currency draw).alone db =
      (.error (.notFound "Receiver not found"), db) := by
  unfold findReceiverByEmail
  rw [Prog.bind_eq, Prog.alone_bind_read, hlike]
  rfl

/-- The search fails. -/
lemma alone_findReceiverByEmail_error {e : LedgerError}
    (hlike : db.userLike draw.lower reference = .error e) :
    (findReceiverByEmail reference currency draw).alone db = (.error e, db) := by
  unfold findReceiverByEmail
  rw [Prog.bind_eq, Prog.alone_bind_read, hlike]
  rfl

/-- The user that is found has a wallet. -/
lemma alone_findReceiverByEmail_some {user : User} {wallet : Wallet}
    (hlike : db.userLike draw.lower reference = .ok (some user))
    (hwallet : db.walletIn user.id currency = some wallet) :
    (findReceiverByEmail reference currency draw).alone db = (.ok wallet, db) := by
  unfold findReceiverByEmail
  rw [Prog.bind_eq, Prog.alone_bind_read, hlike]
  dsimp only
  rw [Prog.bind_eq, Prog.alone_bind_read, hwallet]
  rfl

/-- The tables after the wallet of a user was created. -/
def withNewWallet (db : Database) (user : User) (currency : String) (draw : Draw) : Database :=
  view db (creationWrites ⟨draw.walletId, user.id, currency⟩ draw.eventId draw.now draw.carrier)

lemma withNewWallet_wallets (db : Database) (user : User) (currency : String) (draw : Draw) :
    (withNewWallet db user currency draw).wallets =
      db.wallets ++ [⟨draw.walletId, user.id, currency⟩] := by
  rw [withNewWallet, wallets_view]
  rfl

/-- The user that is found gets a wallet. -/
lemma alone_findReceiverByEmail_new (hc : Consistent db) (hfresh : draw.Fresh db) {user : User}
    (hlike : db.userLike draw.lower reference = .ok (some user))
    (hnone : db.walletIn user.id currency = none) :
    (findReceiverByEmail reference currency draw).alone db =
      (.ok ⟨draw.walletId, user.id, currency⟩, withNewWallet db user currency draw) := by
  have huser : user ∈ db.users := (mem_of_firstLike hlike).1
  set created := toView ⟨draw.walletId, user.id, currency⟩ (firstProjection draw.walletId 1)
  have hcreated : (getOrCreateForUser user.id currency draw).alone db =
      (.ok (.wallet created), withNewWallet db user currency draw) :=
    alone_getOrCreateForUser hc huser hfresh hnone
  have hfind : (withNewWallet db user currency draw).walletById created.id =
      some ⟨draw.walletId, user.id, currency⟩ := by
    change (withNewWallet db user currency draw).walletById draw.walletId = _
    have hold : db.wallets.find? (fun wallet => wallet.id = draw.walletId) = none :=
      List.find?_eq_none.mpr fun wallet hwallet => by simpa using hfresh.wallet wallet hwallet
    rw [Database.walletById, withNewWallet_wallets, List.find?_append, hold]
    simp
  unfold findReceiverByEmail
  rw [Prog.bind_eq, Prog.alone_bind_read, hlike]
  dsimp only
  rw [Prog.bind_eq, Prog.alone_bind_read, hnone]
  dsimp only
  rw [Prog.bind_eq, Prog.alone_bind_ok hcreated]
  dsimp only
  rw [Prog.bind_eq, Prog.alone_bind_read, hfind]
  rfl

end Search

/-! ### The referenced receiver -/

section Validation

variable {db : Database} {dto : ValidateInternalTransferDto} {draw : Draw}

/-- A request with an amount that is not one of money is refused at once. -/
lemma alone_validateTransfer_amounts (h : ¬ dto.AmountsValid) :
    ∃ e, (validateTransfer dto draw).alone db = (.error e, db) := by
  unfold ValidateInternalTransferDto.AmountsValid at h
  unfold validateTransfer
  cases hamount : toPositiveMinorUnits dto.amount with
  | error e => exact ⟨e, rfl⟩
  | ok n =>
    cases hdestination : dto.destinationAmount with
    | none => exact absurd ⟨⟨n, hamount⟩, by simp [hdestination]⟩ h
    | some amount =>
      cases hother : toPositiveMinorUnits amount with
      | error e =>
        refine ⟨e, ?_⟩
        rw [Prog.bind_eq, Prog.alone_bind_done]
        dsimp only
        rw [hother]
        rfl
      | ok m => exact absurd ⟨⟨n, hamount⟩, by simp [hdestination, hother]⟩ h

/-- Beyond the amounts. -/
lemma alone_validateTransfer (h : dto.AmountsValid) :
    (validateTransfer dto draw).alone db = (validateWallets dto draw).alone db := by
  obtain ⟨⟨n, hamount⟩, hdestination⟩ := h
  unfold validateTransfer
  rw [hamount, Prog.bind_eq, Prog.alone_bind_done]
  cases hother : dto.destinationAmount with
  | none => rfl
  | some amount =>
    obtain ⟨m, hm⟩ := hdestination amount hother
    dsimp only
    rw [hm]
    rfl

/-- Without a wallet of the sender nothing is looked up. -/
lemma alone_validateWallets_none (h : db.senderOf dto = none) :
    (validateWallets dto draw).alone db = (.error (.notFound "Sender wallet not found"), db) := by
  unfold Database.senderOf at h
  unfold validateWallets
  rw [Prog.bind_eq, Prog.alone_bind_read, h]
  rfl

/-- The search throws. -/
lemma alone_validateWallets_error {sender : Wallet} {e : LedgerError}
    (h : db.senderOf dto = some sender)
    (hfind : (findReceiver dto.receiverReference dto.target draw).alone db = (.error e, db)) :
    (validateWallets dto draw).alone db = (.error e, db) := by
  unfold Database.senderOf at h
  unfold validateWallets
  rw [Prog.bind_eq, Prog.alone_bind_read, h]
  exact Prog.alone_bind_error hfind _

/-- The search returns a wallet. -/
lemma alone_validateWallets_ok {sender receiver : Wallet} {db' : Database}
    (h : db.senderOf dto = some sender)
    (hfind : (findReceiver dto.receiverReference dto.target draw).alone db = (.ok receiver, db')) :
    (validateWallets dto draw).alone db =
      (if receiver.id = sender.id then
        .error (.badRequest "Sender and receiver wallets must differ")
      else .ok (.validated receiver.id), db') := by
  unfold Database.senderOf at h
  unfold validateWallets
  rw [Prog.bind_eq, Prog.alone_bind_read, h]
  dsimp only
  rw [Prog.bind_eq, show dto.targetCurrency.getD dto.currency = dto.target from rfl,
    Prog.alone_bind_ok hfind]
  split_ifs <;> rfl

/-- A request that is refused without a new wallet. -/
lemma SendsToReference.refused {lower : String → String} {e : LedgerError}
    (he : dto.AmountsValid → ∃ message, e = .notFound message) :
    SendsToReference lower dto db db (.error e) where
  receiver _ h := by cases h
  unknown _ _ := ⟨rfl, e, rfl, he⟩

/-- When a wallet of the user that was found is returned, the money goes to the referenced receiver
exactly when that user has the e-mail. -/
lemma sendsToReference_found {lower : String → String} {db' : Database} {user : User}
    {receiver : Wallet}
    (hids : (db.users.map (·.id)).Nodup) (huser : user ∈ db.users) (husers : db'.users = db.users)
    (hwallets : (db'.wallets.map (·.id)).Nodup) (hreceiver : receiver ∈ db'.wallets)
    (howner : receiver.ownerId = user.id) (hcurrency : receiver.currency = dto.target)
    (hnamed : ¬ (isUuid dto.receiverReference = true ∧ receiver.id = uuid dto.receiverReference)) :
    SendsToReference lower dto db db' (.ok (.validated receiver.id)) ↔
      sameText lower user.email dto.receiverReference := by
  constructor
  · intro h
    obtain ⟨wallet, hwallet, hid, -, hfound⟩ := h.receiver receiver.id rfl
    obtain rfl := List.inj_on_of_nodup_map hwallets hwallet hreceiver hid
    rcases hfound with hnamed' | ⟨other, hother, hotherId, hemail⟩
    · exact absurd hnamed' hnamed
    · rw [husers] at hother
      obtain rfl := List.inj_on_of_nodup_map hids hother huser (hotherId.trans howner)
      exact hemail
  · intro hemail
    refine ⟨fun walletId hreply => ?_, fun _ hnobody => absurd ⟨user, huser, hemail⟩ hnobody⟩
    cases hreply
    exact ⟨receiver, hreceiver, rfl, hcurrency, .inr ⟨user, husers ▸ huser, howner.symm, hemail⟩⟩

/-- The search has reached the users, and fails. -/
lemma sendsToReference_error {lower : String → String} {e : LedgerError}
    (hamounts : dto.AmountsValid)
    (hnamed : db.walletNamed dto.receiverReference dto.target = none)
    (he : ∀ message, e ≠ .notFound message) :
    SendsToReference lower dto db db (.error e) ↔ db.HasUser lower dto.receiverReference := by
  constructor
  · intro h
    by_contra hnobody
    obtain ⟨-, e', he', hmessage⟩ := h.unknown hnamed hnobody
    obtain ⟨message, hnotFound⟩ := hmessage hamounts
    exact he message ((Except.error.inj he').trans hnotFound)
  · exact fun hsome => ⟨fun _ hreply => (by cases hreply), fun _ hnobody => absurd hsome hnobody⟩

/-- The search has reached the users, and has found one. -/
lemma sendsToReference_like (hc : Consistent db) (hids : (db.users.map (·.id)).Nodup)
    (hfresh : draw.Fresh db) (hnew : draw.walletId ≠ uuid dto.receiverReference)
    (hamounts : dto.AmountsValid) {sender : Wallet} {user : User}
    (hsender : db.senderOf dto = some sender)
    (hnamed : db.walletNamed dto.receiverReference dto.target = none)
    (hlike : db.userLike draw.lower dto.receiverReference = .ok (some user)) :
    SendsToReference draw.lower dto db ((validateWallets dto draw).alone db).2
        ((validateWallets dto draw).alone db).1 ↔
      (sameText draw.lower user.email dto.receiverReference ∨
        (db.walletIn user.id dto.target = some sender ∧
          db.HasUser draw.lower dto.receiverReference)) := by
  have huser : user ∈ db.users := (mem_of_firstLike hlike).1
  have hsender_mem : sender ∈ db.wallets := List.mem_of_find?_eq_some hsender
  have hsearch := @alone_findReceiver_unnamed _ _ _ draw hnamed
  cases hwallet : db.walletIn user.id dto.target with
  | some receiver =>
    have hmem : receiver ∈ db.wallets := List.mem_of_find?_eq_some hwallet
    obtain ⟨howner, hcurrency⟩ : receiver.ownerId = user.id ∧ receiver.currency = dto.target := by
      simpa using List.find?_some hwallet
    rw [alone_validateWallets_ok hsender
      (hsearch.trans (alone_findReceiverByEmail_some hlike hwallet))]
    by_cases hself : receiver.id = sender.id
    · -- the sender and the receiver would be one
      obtain rfl := List.inj_on_of_nodup_map hc.walletIds hmem hsender_mem hself
      rw [if_pos hself]
      constructor
      · intro h
        by_contra hnot
        have hnobody : ¬ db.HasUser draw.lower dto.receiverReference := fun hsome =>
          hnot (.inr ⟨rfl, hsome⟩)
        obtain ⟨-, e, he, hmessage⟩ := h.unknown hnamed hnobody
        obtain ⟨message, rfl⟩ := hmessage hamounts
        cases he
      · intro h
        have hsome : db.HasUser draw.lower dto.receiverReference :=
          h.elim (fun hemail => ⟨user, huser, hemail⟩) fun hother => hother.2
        exact ⟨fun _ hreply => (by cases hreply), fun _ hnobody => absurd hsome hnobody⟩
    · rw [if_neg hself, sendsToReference_found hids huser rfl hc.walletIds hmem howner hcurrency]
      · refine ⟨Or.inl, fun h => h.resolve_right fun hother => hself ?_⟩
        rw [Option.some.inj hother.1]
      · rintro ⟨huuid, hid⟩
        rw [Database.walletNamed, if_pos huuid] at hnamed
        simpa [hid, hcurrency] using List.find?_eq_none.mp hnamed receiver hmem
  | none =>
    rw [alone_validateWallets_ok hsender
      (hsearch.trans (alone_findReceiverByEmail_new hc hfresh hlike hwallet))]
    have hself : draw.walletId ≠ sender.id := (hfresh.wallet sender hsender_mem).symm
    rw [if_neg hself]
    have husers : (withNewWallet db user dto.target draw).users = db.users := users_view _ _
    refine (@sendsToReference_found _ _ _ _ _ ⟨draw.walletId, user.id, dto.target⟩ hids huser
      husers ?_ ?_ rfl rfl fun h => hnew h.2).trans ?_
    · rw [withNewWallet_wallets, List.map_append, List.map_singleton, ← List.concat_eq_append]
      refine hc.walletIds.concat fun hmem => ?_
      obtain ⟨wallet, hwallet, hid⟩ := List.mem_map.mp hmem
      exact hfresh.wallet wallet hwallet hid
    · rw [withNewWallet_wallets]
      exact List.mem_append_right _ (List.mem_singleton_self _)
    · exact ⟨Or.inl, fun h => h.resolve_right fun hother => by cases hother.1⟩

end Validation

/-- For all users and wallets of consistent tables and every request: the money goes to the referenced
receiver, or the request is refused without a new wallet when there is none, exactly when `ILIKE`
neither mistakes another user's e-mail for the reference nor fails on it. -/
theorem receiver_by_reference (db : Database) (hc : Consistent db)
    (hids : (db.users.map (·.id)).Nodup) (dto : ValidateInternalTransferDto) (draw : Draw)
    (hfresh : draw.Fresh db) (hnew : draw.walletId ≠ uuid dto.receiverReference) :
    SendsToReference draw.lower dto db ((validateTransfer dto draw).alone db).2
        ((validateTransfer dto draw).alone db).1 ↔
      ¬ MisreadsReference draw.lower db dto := by
  by_cases hamounts : dto.AmountsValid
  swap
  · obtain ⟨e, hrun⟩ := @alone_validateTransfer_amounts db _ draw hamounts
    rw [hrun]
    exact iff_of_true (.refused fun h => absurd h hamounts) fun h => hamounts h.1
  rw [alone_validateTransfer hamounts]
  unfold MisreadsReference
  cases hsender : db.senderOf dto with
  | none =>
    rw [alone_validateWallets_none hsender]
    exact iff_of_true (.refused fun _ => ⟨_, rfl⟩) (by simp)
  | some sender =>
    cases hnamed : db.walletNamed dto.receiverReference dto.target with
    | some receiver =>
      rw [alone_validateWallets_ok hsender (alone_findReceiver_named hnamed)]
      refine iff_of_true ⟨fun walletId hreply => ?_, fun hnone _ => ?_⟩ (by simp)
      · unfold Database.walletNamed at hnamed
        split_ifs at hnamed with huuid
        obtain ⟨hid, hcurrency⟩ : receiver.id = uuid dto.receiverReference ∧
            receiver.currency = dto.target := by simpa using List.find?_some hnamed
        dsimp only at hreply
        split_ifs at hreply
        cases hreply
        exact ⟨receiver, List.mem_of_find?_eq_some hnamed, rfl, hcurrency, .inl ⟨huuid, hid⟩⟩
      · cases hnamed.symm.trans hnone
    | none =>
      have hsearch := @alone_findReceiver_unnamed _ _ _ draw hnamed
      have hmisreads : (dto.AmountsValid ∧ ∃ sender', some sender = some sender' ∧
          (none : Option Wallet) = none ∧ MisreadsEmail draw.lower db dto sender') ↔
          MisreadsEmail draw.lower db dto sender := by
        simp [hamounts]
      rw [hmisreads]
      unfold MisreadsEmail
      cases hlike : db.userLike draw.lower dto.receiverReference with
      | error e =>
        have hcode : e = .queryFailed "22025" := (invalid_of_firstLike hlike).1
        have hfind := hsearch.trans (alone_findReceiverByEmail_error hlike)
        rw [alone_validateWallets_error hsender hfind,
          sendsToReference_error hamounts hnamed fun message => by simp [hcode]]
        simp
      | ok found =>
        cases found with
        | none =>
          have hfind := hsearch.trans (alone_findReceiverByEmail_none hlike)
          rw [alone_validateWallets_error hsender hfind]
          exact iff_of_true (.refused fun _ => ⟨_, rfl⟩) (by simp)
        | some user =>
          rw [sendsToReference_like hc hids hfresh hnew hamounts hsender hnamed hlike]
          simp
          tauto

/-! ### A reference that is a pattern -/

/-- Bob has a wallet; Ann has none. -/
def bobAndAnn : Database :=
  (servedBy (openLedger fun _ => True) [⟨"bob", "bob@example.com"⟩, ⟨"ann", "ann@example.com"⟩]
    [(.getOrCreateForUser "bob" "USD", drawFor "open")]).world.db

lemma consistent_bobAndAnn : Consistent bobAndAnn :=
  (reaches_ok (reaches_servedBy (fun _ _ _ => trivial) fun _ _ _ _ _ _ _ => trivial)).inv.1

/-- Bob sends 10 to a reference. -/
def bobSendsTo (reference : String) : ValidateInternalTransferDto :=
  { transferId := "t", senderUserId := "bob", senderWalletId := "open-wallet",
    receiverReference := reference, amount := 10, currency := "USD", targetCurrency := none,
    destinationAmount := none }

lemma fresh_bobAndAnn : (drawFor "new" 0).Fresh bobAndAnn where
  wallet := by decide +kernel
  event := by decide +kernel
  nonempty := by decide

/-- Ann is found by her e-mail in other letters. -/
theorem receiver_by_reference_ann :
    SendsToReference (drawFor "new" 0).lower (bobSendsTo "ANN@example.com") bobAndAnn
      ((validateTransfer (bobSendsTo "ANN@example.com") (drawFor "new" 0)).alone bobAndAnn).2
      ((validateTransfer (bobSendsTo "ANN@example.com") (drawFor "new" 0)).alone bobAndAnn).1 := by
  refine (receiver_by_reference bobAndAnn consistent_bobAndAnn (by decide +kernel)
    (bobSendsTo "ANN@example.com") (drawFor "new" 0) fresh_bobAndAnn (by decide)).mpr ?_
  have hreference : (drawFor "new" 0).lower (bobSendsTo "ANN@example.com").receiverReference =
      "ann@example.com" := by decide +kernel
  refine not_misreadsReference_of_plain ?_
  simp [hreference, LikePattern.Plain]

/-- No user has the e-mail `a_n@example.com`, and yet Bob's money goes to a new wallet of Ann's. -/
theorem receiver_by_pattern :
    ¬ ∀ (db : Database), Consistent db → (db.users.map (·.id)).Nodup →
      ∀ (dto : ValidateInternalTransferDto) (draw : Draw), draw.Fresh db →
        draw.walletId ≠ uuid dto.receiverReference →
        (∀ walletId, ((validateTransfer dto draw).alone db).1 = .ok (.validated walletId) →
          ∃ wallet ∈ ((validateTransfer dto draw).alone db).2.wallets, wallet.id = walletId ∧
            wallet.currency = dto.target ∧
            ((isUuid dto.receiverReference = true ∧ wallet.id = uuid dto.receiverReference) ∨
              ∃ user ∈ ((validateTransfer dto draw).alone db).2.users,
                user.id = wallet.ownerId ∧ sameText draw.lower user.email dto.receiverReference)) ∧
        (db.walletNamed dto.receiverReference dto.target = none →
          ¬ db.HasUser draw.lower dto.receiverReference →
          (∃ message, ((validateTransfer dto draw).alone db).1 = .error (.notFound message)) ∧
            ((validateTransfer dto draw).alone db).2.wallets = db.wallets) := by
  intro h
  have hpaid := (h bobAndAnn consistent_bobAndAnn (by decide +kernel) (bobSendsTo "a_n@example.com")
    (drawFor "new" 0) fresh_bobAndAnn (by decide)).1 "new-wallet" (by decide +kernel)
  revert hpaid
  decide +kernel

end Ledger

end PeerLedger
