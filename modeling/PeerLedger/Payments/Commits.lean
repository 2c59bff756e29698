import PeerLedger.Ledger.Settlements
import PeerLedger.Payments.Service

/-!
# What the commits of the payments service do

`Move` lists everything that a commit of the payments service can do: nothing; a new transfer; the
lease of one transfer; one step of one transfer (`Advance`), which raises its version by one, follows
the state machine, is `Justified` by what the ledger has done, and announces a completion
(`Announces`); or a new split bill with its shares.

`Transfer.Evolves` is what all of this comes down to for a worker that has read a row: the row that is
there now is a later version of it, and while the version is the same, so is everything but the
lease.  `TablesOk` is what the tables keep: their unique keys, their references, and that a transfer
that has ended is not leased.
-/

namespace PeerLedger

namespace Payments

open Transactions Relation

/-! ### Later versions of a row -/

/-- What a transfer keeps from its creation on. -/
def Transfer.terms (row : Transfer) : Transfer :=
  { row with
    receiverWalletId := none, status := .pending, failureCode := none, failureMessage := none,
    retryCount := 0, nextRetryAt := none, holdMayExist := false, leaseOwner := none,
    leaseUntil := none, version := 0 }

/-- The state machine leads from one status to another in some steps. -/
def TransferStatus.Leads : TransferStatus → TransferStatus → Prop :=
  ReflTransGen fun a b => b ∈ a.allowedTransitions

/-- A set of statuses that no transition leaves. -/
lemma TransferStatus.Leads.closed {a b : TransferStatus} {S : TransferStatus → Prop}
    (h : a.Leads b) (hS : ∀ a b, S a → b ∈ a.allowedTransitions → S b) (ha : S a) : S b := by
  induction h with
  | refl => exact ha
  | tail _ hstep ih => exact hS _ _ ih hstep

/-- How far a transfer has come; every transition goes up. -/
def TransferStatus.rank : TransferStatus → Nat
  | pending => 0
  | validating => 1
  | fundsHeld => 2
  | processing => 3
  | compensating => 4
  | completed => 5
  | failed => 5

lemma TransferStatus.rank_lt {a b : TransferStatus} (h : b ∈ a.allowedTransitions) :
    a.rank < b.rank := by
  revert h
  cases a <;> cases b <;> decide

lemma TransferStatus.rank_le_five (a : TransferStatus) : a.rank ≤ 5 := by
  cases a <;> decide

lemma TransferStatus.Leads.rank_le {a b : TransferStatus} (h : a.Leads b) : a.rank ≤ b.rank := by
  induction h with
  | refl => exact le_rfl
  | tail _ hstep ih => exact ih.trans (TransferStatus.rank_lt hstep).le

/-- The transfer is being compensated, or has ended. -/
def TransferStatus.isLate (status : TransferStatus) : Bool :=
  status ∈ [compensating, completed, failed]

lemma TransferStatus.Leads.isLate {a b : TransferStatus} (h : a.Leads b) (ha : a.isLate = true) :
    b.isLate = true := by
  refine h.closed (S := fun a => a.isLate = true) (fun a b ha hb => ?_) ha
  revert ha hb
  cases a <;> cases b <;> decide

/-- `b` is a later version of `a`. -/
structure Transfer.Evolves (a b : Transfer) : Prop where
  terms : b.terms = a.terms
  version : a.version ≤ b.version
  same : b.version = a.version → b.unleased = a.unleased
  status : a.status.Leads b.status
  holdMayExist : a.holdMayExist = true → b.holdMayExist = true
  receiver : ∀ id, a.receiverWalletId = some id → b.receiverWalletId = some id

lemma Transfer.Evolves.refl (a : Transfer) : a.Evolves a :=
  ⟨rfl, le_rfl, fun _ => rfl, .refl, fun h => h, fun _ h => h⟩

lemma Transfer.Evolves.trans {a b c : Transfer} (h : a.Evolves b) (h' : b.Evolves c) :
    a.Evolves c where
  terms := h'.terms.trans h.terms
  version := h.version.trans h'.version
  same heq := by
    have hb : b.version = a.version := le_antisymm (heq ▸ h'.version) h.version
    exact (h'.same (heq.trans hb.symm)).trans (h.same hb)
  status := h.status.trans h'.status
  holdMayExist := h'.holdMayExist ∘ h.holdMayExist
  receiver id := h'.receiver id ∘ h.receiver id

/-- What is computed from the terms of a transfer stays the same. -/
lemma Transfer.congr_terms {α : Type} {a b : Transfer} (h : b.terms = a.terms) (f : Transfer → α)
    (hf : ∀ row, f row.terms = f row) : f b = f a := by
  rw [← hf b, h, hf a]

/-- What does not depend on the lease is the same for rows that are the same but for their lease. -/
lemma Transfer.congr_unleased {α : Type} {a b : Transfer} (h : a.unleased = b.unleased)
    (f : Transfer → α) (hf : ∀ row, f row.unleased = f row) : f a = f b := by
  rw [← hf a, h, hf b]

lemma Transfer.Evolves.id_eq {a b : Transfer} (h : a.Evolves b) : b.id = a.id :=
  Transfer.congr_terms h.terms (·.id) fun _ => rfl

lemma Transfer.Evolves.senderWalletId_eq {a b : Transfer} (h : a.Evolves b) :
    b.senderWalletId = a.senderWalletId :=
  Transfer.congr_terms h.terms (·.senderWalletId) fun _ => rfl

lemma Transfer.evolves_lease (row : Transfer) (owner : Option String) (until_ : Option Int) :
    row.Evolves (row.lease owner until_) :=
  ⟨rfl, le_rfl, fun _ => rfl, .refl, fun h => h, fun _ h => h⟩

/-! ### Steps of a row -/

/-- `row'` is the next version of `row`. -/
structure Advances (row row' : Transfer) : Prop where
  terms : row'.terms = row.terms
  version : row'.version = row.version + 1
  status : row'.status = row.status ∨ row'.status ∈ row.status.allowedTransitions
  holdMayExist : row.holdMayExist = true → row'.holdMayExist = true
  receiver : ∀ id, row.receiverWalletId = some id → row'.receiverWalletId = some id
  lease : row'.leaseOwner = none ∨ row'.leaseOwner = row.leaseOwner
  /-- A transfer that ends gives its lease up. -/
  ended : row'.status.isTerminal = true → row'.leaseOwner = none

lemma Advances.evolves {row row' : Transfer} (h : Advances row row') : row.Evolves row' where
  terms := h.terms
  version := by rw [h.version]; omega
  same heq := by rw [h.version] at heq; omega
  status := by
    rcases h.status with heq | hmem
    · rw [heq]; exact .refl
    · exact .single hmem
  holdMayExist := h.holdMayExist
  receiver := h.receiver

/-- The row after a transition. -/
def moved (patch : Transfer → Transfer) (next : TransferStatus) (row : Transfer) : Transfer :=
  { patch row with status := next, version := row.version + 1 }

/-- The row after an update. -/
def updated (patch : Transfer → Transfer) (row : Transfer) : Transfer :=
  { patch row with version := row.version + 1 }

namespace World

/-- Some commit has moved the transfer to `FundsHeld`. -/
def Reached (w : World) (transferId : String) : Prop :=
  ∃ c ∈ w.log, ∃ row, Write.saveTransfer row ∈ c.writes ∧ row.id = transferId ∧
    row.status = .fundsHeld

/-- The ledger has a hold for the transfer. -/
def HoldExists (w : World) (row : Transfer) : Prop :=
  ∃ hold, w.ledger.world.db.hold row.senderWalletId row.id = some hold

/-- The ledger has the receipt of the transfer. -/
def HasReceipt (w : World) (transferId : String) : Prop :=
  ∃ receipt ∈ w.ledger.world.db.settlements, receipt.transferId = transferId

/-- The ledger has answered a request to release the transfer's hold; an answer that it was settled
counts only when its body may get lost. -/
def ReleaseAnswered (setting : Setting) (w : World) (row : Transfer) : Prop :=
  ∃ n request i job reply, w.sent[n]? = some request ∧ request.command = releaseCommand row ∧
    w.origin i = some n ∧ w.ledger.world.jobs i = some job ∧
    Ledger.Answers job w.ledger.world i reply ∧
    (reply = .alreadySettled → setting.loses request.command reply)

/-- No transfer is leased by `owner`. -/
def NoLease (w : World) (owner : String) : Prop :=
  ∀ row ∈ w.db.transfers, row.leaseOwner ≠ some owner

end World

/-- What the ledger has done to justify a transition. -/
def Justified (setting : Setting) (w : World) (row : Transfer) : TransferStatus → Prop
  | .fundsHeld => row.holdMayExist = true ∧ w.HoldExists row
  | .compensating => row.holdMayExist = true
  | .completed => w.HasReceipt row.id
  | .failed => row.holdMayExist = false ∨ (row.status = .compensating ∧ w.ReleaseAnswered setting row)
  | _ => True

/-- The receiver of the transfer is known, unless the answer that named it may get lost. -/
def ReceiverKnown (setting : Setting) (row : Transfer) : Prop :=
  row.receiverWalletId ≠ none ∨
    ∃ receiverWalletId, setting.loses (validateCommand row) (.validated receiverWalletId)

/-- What an update does to the number of retries of a row. -/
inductive RetryStep (setting : Setting) (row row' : Transfer) : Prop
  /-- Another status starts over, unless the transfer has ended. -/
  | moved : row'.status ∈ row.status.allowedTransitions →
      (row'.status.isTerminal = false → row'.retryCount = 0) → RetryStep setting row row'
  | kept : row'.status = row.status → row'.retryCount = row.retryCount → RetryStep setting row row'
  /-- There is a limit to the retries, compensations apart. -/
  | retried : row'.status = row.status →
      (row.status = .compensating ∨ row.retryCount + 1 < setting.config.sagaMaxStepAttempts) →
      row'.retryCount = row.retryCount + 1 → RetryStep setting row row'
  /-- The receiver was asked for. -/
  | resolved : row'.status = row.status → row.receiverWalletId = none → ReceiverKnown setting row' →
      row'.retryCount = 0 → RetryStep setting row row'

/-- `now` of the runs of a command. -/
def Command.now : Command → Int
  | .payShare _ _ _ _ _ now => now
  | .run _ now => now
  | .recoverDue now _ => now
  | _ => 0

/-- The row with the lease of the `n`-th run of a thread. -/
def leasedRow (setting : Setting) (job : Job) (n : Nat) (row : Transfer) : Transfer :=
  row.lease (some (job.draw.runs n).leaseOwner)
    (some (job.command.now + setting.config.sagaLeaseMs))

/-- The transaction `body` of the `n`-th run of a thread, which has `transfer` in its memory, makes
`row'` of the row. -/
inductive SavedBy (leaseOwner : String) (transfer row : Transfer) :
    PaymentsTx Reply → Transfer → Prop
  | transition {next patch} : next ∈ row.status.allowedTransitions →
      SavedBy leaseOwner transfer row (transitionTransaction transfer leaseOwner next patch)
        (moved patch next row)
  | update {patch} : (patch row).status = row.status →
      SavedBy leaseOwner transfer row (updateStatement transfer leaseOwner patch) (updated patch row)
  | complete {draw} : TransferStatus.completed ∈ row.status.allowedTransitions →
      SavedBy leaseOwner transfer row (completeTransaction transfer leaseOwner draw)
        (moved finish .completed row)

/-- A step of a row that one of the fenced updates makes. -/
structure Advance (setting : Setting) (w : World) (job : Job) (body : PaymentsTx Reply)
    (row row' : Transfer) : Prop where
  advances : Advances row row'
  /-- The row is what the worker has in its memory, and has the worker's lease. -/
  saved : ∃ n transfer, row.leaseOwner = some (job.draw.runs n).leaseOwner ∧
    row.unleased = transfer.unleased ∧ SavedBy (job.draw.runs n).leaseOwner transfer row body row'
  justified : row'.status ≠ row.status → Justified setting w row row'.status
  /-- The receiver is asked for before the intent to hold is written. -/
  marked : row.holdMayExist = false → row'.holdMayExist = true → ReceiverKnown setting row
  /-- The intent to hold is not written when the transfer ends. -/
  unmarked : row'.status.isTerminal = true → row'.holdMayExist = row.holdMayExist
  retried : RetryStep setting row row'

/-- What a commit can do to the row of one transfer. -/
inductive RowStep (setting : Setting) (w : World) (job : Job) (body : PaymentsTx Reply)
    (row : Transfer) : Transfer → Prop
  | lease {n} : claimable job.command.now row = true →
      RowStep setting w job body row (leasedRow setting job n row)
  | advance {row'} : Advance setting w job body row row' → RowStep setting w job body row row'

lemma RowStep.evolves {setting : Setting} {w : World} {job : Job} {body : PaymentsTx Reply}
    {row row' : Transfer} (h : RowStep setting w job body row row') : row.Evolves row' := by
  cases h with
  | lease => exact row.evolves_lease _ _
  | advance h => exact h.advances.evolves

/-! ### New rows -/

/-- The transfer that a command asks for, and its key; the shares and bills are in `db`. -/
inductive Asks (config : Config) (db : Database) :
    Command → CanonicalTransferRequest → String → Prop
  | create {dto header senderUserId canonical key} :
      normalizeIdempotencyKey config header = .ok key →
      canonicalRequest config dto senderUserId none = .ok canonical →
      Asks config db (.create dto header senderUserId) canonical key
  | sharePayment {input header key} : normalizeIdempotencyKey config header = .ok key →
      Asks config db (.createSplitSharePayment input header) (input.canonical config) key
  | payShare {billId shareId userId walletId header now key share bill} :
      normalizeIdempotencyKey config header = .ok key → share ∈ db.shares → bill ∈ db.bills →
      share.id = shareId → share.billId = billId → bill.id = billId →
      share.participantUserId = userId →
      Asks config db (.payShare billId shareId userId walletId header now)
        ((sharePayment share bill userId walletId).canonical config) key

/-- The row of a transfer that a command has just created, with its quote. -/
def IsNew (config : Config) (db : Database) (job : Job) (row : Transfer) : Prop :=
  ∃ canonical key quote, Asks config db job.command canonical key ∧
    quoteTransfer canonical.amountMinor canonical.currency canonical.destinationCurrency
      job.draw.quotedAt = .ok quote ∧
    row = newTransfer job.draw.id canonical quote key (config.fingerprint canonical)
      job.draw.createdAt

/-- The unique keys of the row are free, and its share exists. -/
structure Fresh (db : Database) (row : Transfer) : Prop where
  id : ∀ old ∈ db.transfers, old.id ≠ row.id
  key : ∀ old ∈ db.transfers, old.senderUserId = row.senderUserId →
    old.idempotencyKey ≠ row.idempotencyKey
  share : ∀ old ∈ db.transfers, ∀ shareId, row.splitBillShareId = some shareId →
    old.splitBillShareId ≠ some shareId
  exists_share : ∀ shareId, row.splitBillShareId = some shareId →
    ∃ share ∈ db.shares, share.id = shareId

/-- The writes of a new bill, with its shares and their messages. -/
def billWrites (bill : SplitBill) (rows : List (SplitBillShare × PaymentOutboxMessage)) :
    List Write :=
  .insertBill bill :: rows.flatMap fun row => [.insertShare row.1, .insertOutbox row.2]

/-- The shares of a new bill from the one with number `index` on, with their messages. -/
def newShares (config : Config) (bill : SplitBill) (draw : Draw) :
    Nat → List (String × Int) → List (SplitBillShare × PaymentOutboxMessage)
  | _, [] => []
  | index, (participantUserId, amountMinor) :: rest =>
    let share : SplitBillShare :=
      { id := draw.shareIds index, billId := bill.id, participantUserId, amountMinor,
        position := index }
    (share, splitBillCreatedMessage config.isoString bill share (draw.shareMessages index)) ::
      newShares config bill draw (index + 1) rest

/-- The bill that a command creates, with the participants and amounts of its shares. -/
def IsNewBill (config : Config) (job : Job) (bill : SplitBill) (shares : List (String × Int)) :
    Prop :=
  ∃ dto creatorUserId creatorReference totalMinor amounts,
    job.command = .createBill dto creatorUserId creatorReference ∧
    parseMoneyToMinor dto.total "total" = .ok totalMinor ∧
    (dto.participants.map fun participant => config.toLowerCase participant.userId).Nodup ∧
    shareAmounts dto totalMinor = .ok amounts ∧
    bill =
      { id := job.draw.billId, creatorUserId,
        creatorReference := config.toLowerCase (config.trim creatorReference), totalMinor,
        currency := config.toUpperCase dto.currency, deadline := dto.deadline } ∧
    shares = (dto.participants.map fun participant => config.toLowerCase participant.userId).zip
      amounts

/-- The unique keys of a new bill and its shares are free. -/
structure FreshBill (db : Database) (bill : SplitBill)
    (rows : List (SplitBillShare × PaymentOutboxMessage)) : Prop where
  id : ∀ old ∈ db.bills, old.id ≠ bill.id
  shares : ((db.shares ++ rows.map (·.1)).map (·.id)).Nodup

/-! ### Completions -/

/-- The status of a bill. -/
def Database.billStatus (db : Database) (billId : String) : SplitBillStatus :=
  deriveSplitBillStatus (db.paidShares billId) (db.totalShares billId)

/-- The writes complete a transfer of the bill. -/
def Completes (db : Database) (billId : String) (ws : List Write) : Prop :=
  ∃ row share, Write.saveTransfer row ∈ ws ∧ row.status = .completed ∧ share ∈ db.shares ∧
    row.splitBillShareId = some share.id ∧ share.billId = billId

/-- A transaction with these writes completes a transfer of the bill and has come to its messages: it
is about to count the paid shares, or has counted them. -/
def CountsShares (db : Database) (billId : String) (ws : List Write) : Prop :=
  Completes db billId ws ∧ ∃ message, Write.insertOutbox message ∈ ws

/-- From the time that a transaction that completes a transfer of a bill has come to its messages, no
other completion of the bill commits before it ends. -/
def Setting.CompletesSerially (setting : Setting) : Prop :=
  ∀ w pending c, setting.admits w pending c → ∀ i, i ≠ c.thread → ∀ billId,
    CountsShares w.db billId (pending i) → ¬ Completes w.db billId c.writes

/-- The messages about the share that a transfer pays. -/
def sharePaidMessages (row : Transfer) (share : SplitBillShare) (bill : SplitBill)
    (status : SplitBillStatus) (draw : CompletionDraw) : List PaymentOutboxMessage :=
  sharePaidMessage row share bill status draw.sharePaid ::
    if bill.creatorUserId ≠ share.participantUserId then
      [statusChangedMessage row share bill status draw.statusChanged]
    else []

/-- The messages that belong to a new version of a row: none, unless the transfer is completed. -/
inductive Announces (setting : Setting) (db : Database) (row : Transfer) :
    List PaymentOutboxMessage → Prop
  | nothing : row.status ≠ .completed → Announces setting db row []
  | transfer {receiverWalletId draw} : row.status = .completed →
      row.receiverWalletId = some receiverWalletId → row.splitBillShareId = none →
      Announces setting db row [transferCompletedMessage row receiverWalletId draw]
  | share {receiverWalletId draw status} {share : SplitBillShare} {bill : SplitBill} :
      row.status = .completed → row.receiverWalletId = some receiverWalletId →
      row.splitBillShareId = some share.id → share ∈ db.shares → bill ∈ db.bills →
      bill.id = share.billId →
      (setting.CompletesSerially →
        status = (db.apply (.saveTransfer row)).billStatus share.billId) →
      Announces setting db row (transferCompletedMessage row receiverWalletId draw.completed ::
        sharePaidMessages row share bill status draw)

/-! ### Moves -/

/-- Everything that a commit of the payments service can do. -/
inductive Move (setting : Setting) (w : World) (job : Job) (body : PaymentsTx Reply) :
    List Write → Prop
  | none : Move setting w job body []
  | insert {row} : Fresh w.db row → IsNew setting.config w.db job row →
      Move setting w job body [.insertTransfer row]
  | save {row row' messages} : row ∈ w.db.transfers → RowStep setting w job body row row' →
      Announces setting w.db row' messages →
      Move setting w job body (.saveTransfer row' :: messages.map .insertOutbox)
  | createBill {bill shares} : IsNewBill setting.config job bill shares →
      FreshBill w.db bill (newShares setting.config bill job.draw 0 shares) →
      Move setting w job body (billWrites bill (newShares setting.config bill job.draw 0 shares))

/-! ### The tables after a move -/

lemma view_insertOutbox (db : Database) (messages : List PaymentOutboxMessage) :
    view db (messages.map Write.insertOutbox) = { db with outbox := db.outbox ++ messages } := by
  induction messages generalizing db with
  | nil => simp
  | cons message messages ih =>
    rw [List.map_cons, view_cons, ih]
    simp [Store.apply, Database.apply]

lemma view_save (db : Database) (row : Transfer) (messages : List PaymentOutboxMessage) :
    view db (.saveTransfer row :: messages.map Write.insertOutbox) =
      { db with
        transfers := saveRow row db.transfers
        outbox := db.outbox ++ messages } := by
  rw [view_cons, view_insertOutbox]
  rfl

lemma view_insert (db : Database) (row : Transfer) :
    view db [Write.insertTransfer row] = { db with transfers := db.transfers ++ [row] } := rfl

lemma view_bill (db : Database) (bill : SplitBill)
    (rows : List (SplitBillShare × PaymentOutboxMessage)) :
    view db (billWrites bill rows) =
      { db with
        bills := db.bills ++ [bill]
        shares := db.shares ++ rows.map (·.1)
        outbox := db.outbox ++ rows.map (·.2) } := by
  have hrows : ∀ (rows : List (SplitBillShare × PaymentOutboxMessage)) (db : Database),
      view db (rows.flatMap fun row => [Write.insertShare row.1, Write.insertOutbox row.2]) =
        { db with
          shares := db.shares ++ rows.map (·.1)
          outbox := db.outbox ++ rows.map (·.2) } := by
    intro rows
    induction rows with
    | nil => intro db; simp
    | cons row rows ih =>
      intro db
      rw [List.flatMap_cons, List.cons_append, List.cons_append, List.nil_append, view_cons,
        view_cons, ih]
      simp [Store.apply, Database.apply]
  rw [billWrites, view_cons, hrows]
  rfl

/-- What the tables keep. -/
structure TablesOk (db : Database) : Prop where
  ids : (db.transfers.map (·.id)).Nodup
  keys : (db.transfers.map fun row => (row.senderUserId, row.idempotencyKey)).Nodup
  shareTransfers : (db.transfers.filterMap (·.splitBillShareId)).Nodup
  transferShares : ∀ row ∈ db.transfers, ∀ shareId, row.splitBillShareId = some shareId →
    ∃ share ∈ db.shares, share.id = shareId
  billIds : (db.bills.map (·.id)).Nodup
  shareIds : (db.shares.map (·.id)).Nodup
  shareBills : ∀ share ∈ db.shares, ∃ bill ∈ db.bills, bill.id = share.billId
  ended : ∀ row ∈ db.transfers, row.status.isTerminal = true → row.leaseOwner = none

lemma TablesOk.initial : TablesOk Database.initial where
  ids := List.nodup_nil
  keys := List.nodup_nil
  shareTransfers := List.nodup_nil
  transferShares _ h := nomatch h
  billIds := List.nodup_nil
  shareIds := List.nodup_nil
  shareBills _ h := nomatch h
  ended _ h := nomatch h

/-- Saving a later version of a row changes nothing that is computed from the terms. -/
lemma map_saveRow {α : Type} {rows : List Transfer} {row row' : Transfer} {f : Transfer → α}
    (hids : (rows.map (·.id)).Nodup) (hrow : row ∈ rows) (hid : row'.id = row.id)
    (hf : f row' = f row) : (saveRow row' rows).map f = rows.map f := by
  rw [saveRow, List.map_map]
  refine List.map_congr_left fun old hold => ?_
  by_cases h : old.id = row'.id
  · obtain rfl := List.inj_on_of_nodup_map hids hold hrow (h.trans hid)
    simp [h, hf]
  · simp [h]

section Move

variable {setting : Setting} {w : World} {job : Job} {body : PaymentsTx Reply} {ws : List Write}

/-- A row that a step leaves ended has no lease. -/
lemma RowStep.ended {row row' : Transfer} (h : RowStep setting w job body row row')
    (hended : row'.status.isTerminal = true) : row'.leaseOwner = none := by
  cases h with
  | lease hclaim =>
    change row.status.isTerminal = true at hended
    simp [claimable, hended] at hclaim
  | advance h => exact h.advances.ended hended

lemma TablesOk.save {db : Database} (h : TablesOk db) {row row' : Transfer}
    (messages : List PaymentOutboxMessage) (hrow : row ∈ db.transfers)
    (hstep : RowStep setting w job body row row') :
    TablesOk (view db (.saveTransfer row' :: messages.map Write.insertOutbox)) := by
  have hterms := hstep.evolves.terms
  have hid := hstep.evolves.id_eq
  have hshare : row'.splitBillShareId = row.splitBillShareId :=
    Transfer.congr_terms hterms (·.splitBillShareId) fun _ => rfl
  rw [view_save]
  constructor
  case ids => simpa using h.ids
  case keys =>
    rw [map_saveRow h.ids hrow hid]
    · exact h.keys
    · exact Transfer.congr_terms hterms (fun row => (row.senderUserId, row.idempotencyKey))
        fun _ => rfl
  case shareTransfers =>
    have hmap := map_saveRow (f := (·.splitBillShareId)) h.ids hrow hid hshare
    have hfilter : ∀ rows : List Transfer, rows.filterMap (·.splitBillShareId) =
        (rows.map (·.splitBillShareId)).filterMap id := fun rows => by simp [List.filterMap_map]
    change ((saveRow row' db.transfers).filterMap (·.splitBillShareId)).Nodup
    rw [hfilter, hmap, ← hfilter]
    exact h.shareTransfers
  case transferShares =>
    intro r hr shareId hs
    rcases mem_saveRow.mp hr with ⟨hmem, -⟩ | ⟨rfl, -⟩
    · exact h.transferShares r hmem shareId hs
    · exact h.transferShares row hrow shareId (hshare ▸ hs)
  case billIds => exact h.billIds
  case shareIds => exact h.shareIds
  case shareBills => exact h.shareBills
  case ended =>
    intro r hr hended
    rcases mem_saveRow.mp hr with ⟨hmem, -⟩ | ⟨rfl, -⟩
    · exact h.ended r hmem hended
    · exact hstep.ended hended

lemma TablesOk.insert {db : Database} (h : TablesOk db) {row : Transfer} (hfresh : Fresh db row)
    (hstatus : row.status = .pending) : TablesOk (view db [Write.insertTransfer row]) := by
  rw [view_insert]
  constructor
  case ids =>
    rw [List.map_append, List.nodup_append]
    refine ⟨h.ids, by simp, fun a ha b hb hab => ?_⟩
    obtain ⟨old, hold, rfl⟩ := List.mem_map.mp ha
    exact hfresh.id old hold (by simpa [hab] using hb)
  case keys =>
    rw [List.map_append, List.nodup_append]
    refine ⟨h.keys, by simp, fun a ha b hb hab => ?_⟩
    obtain ⟨old, hold, rfl⟩ := List.mem_map.mp ha
    have heq : (old.senderUserId, old.idempotencyKey) = (row.senderUserId, row.idempotencyKey) := by
      simpa [hab] using hb
    exact hfresh.key old hold (Prod.mk.inj heq).1 (Prod.mk.inj heq).2
  case shareTransfers =>
    rw [List.filterMap_append, List.nodup_append]
    refine ⟨h.shareTransfers, ?_, fun a ha b hb hab => ?_⟩
    · cases hs : row.splitBillShareId <;> simp [hs]
    · obtain ⟨old, hold, hs⟩ := List.mem_filterMap.mp ha
      refine hfresh.share old hold b ?_ (hab ▸ hs)
      simpa using hb
  case transferShares =>
    intro r hr
    rcases List.mem_append.mp hr with hr | hr
    · exact h.transferShares r hr
    · obtain rfl := List.mem_singleton.mp hr
      exact hfresh.exists_share
  case billIds => exact h.billIds
  case shareIds => exact h.shareIds
  case shareBills => exact h.shareBills
  case ended =>
    intro r hr hended
    rcases List.mem_append.mp hr with hr | hr
    · exact h.ended r hr hended
    · obtain rfl := List.mem_singleton.mp hr
      rw [hstatus] at hended
      cases hended

/-- The shares of a new bill are its own. -/
lemma newShares_billId {config : Config} {bill : SplitBill} {draw : Draw} {index : Nat}
    {shares : List (String × Int)} {row : SplitBillShare × PaymentOutboxMessage}
    (h : row ∈ newShares config bill draw index shares) : row.1.billId = bill.id := by
  induction shares generalizing index with
  | nil => cases h
  | cons share shares ih =>
    rcases List.mem_cons.mp h with rfl | h
    · rfl
    · exact ih h

lemma TablesOk.bill {db : Database} (h : TablesOk db) {config : Config} {bill : SplitBill}
    {draw : Draw} {shares : List (String × Int)}
    (hfresh : FreshBill db bill (newShares config bill draw 0 shares)) :
    TablesOk (view db (billWrites bill (newShares config bill draw 0 shares))) := by
  rw [view_bill]
  refine ⟨h.ids, h.keys, h.shareTransfers, fun row hrow shareId hs => ?_, ?_, hfresh.shares,
    fun share hshare => ?_, h.ended⟩
  · obtain ⟨share, hshare, hid⟩ := h.transferShares row hrow shareId hs
    exact ⟨share, List.mem_append_left _ hshare, hid⟩
  · rw [List.map_append, List.nodup_append]
    refine ⟨h.billIds, by simp, fun a ha b hb hab => ?_⟩
    obtain ⟨old, hold, rfl⟩ := List.mem_map.mp ha
    exact hfresh.id old hold (by simpa [hab] using hb)
  · rcases List.mem_append.mp hshare with hshare | hshare
    · obtain ⟨old, hold, hid⟩ := h.shareBills share hshare
      exact ⟨old, List.mem_append_left _ hold, hid⟩
    · obtain ⟨row, hrow, rfl⟩ := List.mem_map.mp hshare
      exact ⟨bill, by simp, (newShares_billId hrow).symm⟩

/-- The row of a new transfer. -/
lemma IsNew.status_eq {config : Config} {db : Database} {row : Transfer}
    (h : IsNew config db job row) : row.status = .pending ∧ row.leaseOwner = none := by
  obtain ⟨_, _, _, -, -, rfl⟩ := h
  exact ⟨rfl, rfl⟩

/-- Every move keeps the tables in order. -/
lemma Move.tables (h : Move setting w job body ws) (hok : TablesOk w.db) :
    TablesOk (view w.db ws) := by
  cases h with
  | none => exact hok
  | insert hfresh hnew => exact hok.insert hfresh hnew.status_eq.1
  | save hrow hstep => exact hok.save _ hrow hstep
  | createBill _ hfresh => exact hok.bill hfresh

/-- Every row is still there, in a later version. -/
lemma Move.rows (h : Move setting w job body ws) {row : Transfer} (hrow : row ∈ w.db.transfers)
    (hnodup : (w.db.transfers.map (·.id)).Nodup) :
    ∃ row' ∈ (view w.db ws).transfers, row.Evolves row' := by
  cases h with
  | none => exact ⟨row, hrow, .refl row⟩
  | insert => exact ⟨row, by rw [view_insert]; exact List.mem_append_left _ hrow, .refl row⟩
  | @save old row' _ hold hstep =>
    rw [view_save]
    have hid : row'.id = old.id := hstep.evolves.id_eq
    by_cases heq : row.id = row'.id
    · have : row = old := List.inj_on_of_nodup_map hnodup hrow hold (heq.trans hid)
      subst this
      exact ⟨row', mem_saveRow.mpr (.inr ⟨rfl, row, hrow, hid.symm⟩), hstep.evolves⟩
    · exact ⟨row, mem_saveRow.mpr (.inl ⟨hrow, heq⟩), .refl row⟩
  | createBill => exact ⟨row, by rw [view_bill]; exact hrow, .refl row⟩

/-- Where the rows after a move come from. -/
lemma Move.row_cases (h : Move setting w job body ws) {row' : Transfer}
    (hrow' : row' ∈ (view w.db ws).transfers) :
    row' ∈ w.db.transfers ∨ (ws = [.insertTransfer row'] ∧ IsNew setting.config w.db job row' ∧
      Fresh w.db row') ∨
    ∃ row ∈ w.db.transfers, Write.saveTransfer row' ∈ ws ∧
      RowStep setting w job body row row' := by
  cases h with
  | none => exact .inl hrow'
  | @insert row hfresh hnew =>
    rw [view_insert] at hrow'
    rcases List.mem_append.mp hrow' with hmem | hmem
    · exact .inl hmem
    · obtain rfl := List.mem_singleton.mp hmem
      exact .inr (.inl ⟨rfl, hnew, hfresh⟩)
  | @save old row _ hold hstep =>
    rw [view_save] at hrow'
    rcases mem_saveRow.mp hrow' with ⟨hmem, -⟩ | ⟨rfl, -⟩
    · exact .inl hmem
    · exact .inr (.inr ⟨old, hold, List.mem_cons_self, hstep⟩)
  | createBill =>
    rw [view_bill] at hrow'
    exact .inl hrow'

/-- The rows that a move saves. -/
lemma Move.saved (h : Move setting w job body ws) {row' : Transfer}
    (hmem : Write.saveTransfer row' ∈ ws) :
    ∃ row ∈ w.db.transfers, RowStep setting w job body row row' := by
  cases h with
  | none => cases hmem
  | insert => simp at hmem
  | @save old row _ hold hstep =>
    have heq : row' = row := by simpa using hmem
    exact ⟨old, hold, heq ▸ hstep⟩
  | createBill => simp [billWrites] at hmem

/-- A row that a move saves is there afterwards. -/
lemma Move.saved_mem (h : Move setting w job body ws) {row' : Transfer}
    (hmem : Write.saveTransfer row' ∈ ws) : row' ∈ (view w.db ws).transfers := by
  cases h with
  | none => cases hmem
  | insert => simp at hmem
  | @save old row _ hold hstep =>
    obtain rfl : row' = row := by simpa using hmem
    rw [view_save]
    exact mem_saveRow.mpr (.inr ⟨rfl, old, hold, hstep.evolves.id_eq.symm⟩)
  | createBill => simp [billWrites] at hmem

/-- Bills and shares stay. -/
lemma Move.bills (h : Move setting w job body ws) :
    w.db.bills ⊆ (view w.db ws).bills ∧ w.db.shares ⊆ (view w.db ws).shares := by
  cases h with
  | none => exact ⟨List.Subset.refl _, List.Subset.refl _⟩
  | insert => exact ⟨List.Subset.refl _, List.Subset.refl _⟩
  | save =>
    rw [view_save]
    exact ⟨List.Subset.refl _, List.Subset.refl _⟩
  | createBill =>
    rw [view_bill]
    exact ⟨List.subset_append_left _ _, List.subset_append_left _ _⟩

end Move

end Payments

end PeerLedger
