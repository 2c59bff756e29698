import PeerLedger.Payments.Transfers

/-!
# Split bills

`split-bills.service.ts`: a bill is created with its shares in one transaction, shown together with
the transfers of its shares, and a participant pays a share with a transfer.  `Command` lists the
programs of the payments service.
-/

namespace PeerLedger

namespace Payments

open Transactions

/-! ### Requests -/

inductive SplitMode where
  | equal
  | custom
deriving DecidableEq

structure SplitParticipantDto where
  userId : String
  share : Option String
deriving DecidableEq

/-- The body of a request to create a split bill; the deadline is a time. -/
structure CreateSplitBillDto where
  total : String
  currency : String
  mode : SplitMode
  participants : List SplitParticipantDto
  deadline : Option Int
deriving DecidableEq

/-- The number that some decimal digits write. -/
def digitsValue (digits : List Char) : Nat :=
  digits.foldl (fun n c => 10 * n + (c.toNat - '0'.toNat)) 0

/-- `0`, or digits that start with none: `0|[1-9]\d*`. -/
def isWhole : List Char → Bool
  | [] => false
  | c :: rest => (c = '0' && rest.isEmpty) || (c ≠ '0' && c.isDigit && rest.all (·.isDigit))

/-- The whole part and the fraction of a text that matches `MONEY_PATTERN`. -/
def moneyParts (value : String) : Option (Nat × Nat) :=
  let whole := value.toList.take (value.toList.length - 3)
  match value.toList.drop (value.toList.length - 3) with
  | ['.', a, b] =>
    if isWhole whole && a.isDigit && b.isDigit then
      some (digitsValue whole, digitsValue [a, b])
    else none
  | _ => none

def parseMoneyToMinor (value field : String) : Except PaymentsError Int :=
  match moneyParts value with
  | none => .error (.badRequest (field ++ " must use exact 0.00 decimal format"))
  | some (whole, fraction) =>
    let minor : Int := whole * 100 + fraction
    if minor ≤ 0 then .error (.badRequest (field ++ " must be positive"))
    else if Ledger.MAX_SAFE_INTEGER < minor then
      .error (.badRequest (field ++ " exceeds supported range"))
    else .ok minor

/-- The field of a participant's share. -/
def shareField (index : Nat) : String := "participants[" ++ toString index ++ "].share"

/-- The shares of an equal split: the first `remainder` of them get one unit more. -/
def equalShares (total : Int) (count : Nat) : List Int :=
  (List.range count).map fun index => total.tdiv count + if index < total.tmod count then 1 else 0

/-- The amounts of a custom split, from the participant with number `index` on. -/
def customShares : Nat → List SplitParticipantDto → Except PaymentsError (List Int)
  | _, [] => .ok []
  | index, participant :: rest => do
    let share ← match participant.share with
      | none => .error (.badRequest (shareField index ++ " is required for custom split"))
      | some share =>
        if share = "" then
          .error (.badRequest (shareField index ++ " is required for custom split"))
        else .ok share
    let amount ← parseMoneyToMinor share (shareField index)
    return amount :: (← customShares (index + 1) rest)

def shareAmounts (dto : CreateSplitBillDto) (total : Int) : Except PaymentsError (List Int) :=
  match dto.mode with
  | .equal =>
    if dto.participants.any fun participant => participant.share.isSome then
      .error (.badRequest "Equal split must not include custom shares")
    else if dto.participants = [] then .error (.error "Division by zero")
    else if total.tdiv dto.participants.length = 0 then
      .error (.badRequest "Total is too small for all participants")
    else .ok (equalShares total dto.participants.length)
  | .custom => do
    let amounts ← customShares 0 dto.participants
    if amounts.sum ≠ total then .error (.badRequest "Sum of shares must equal bill total")
    else return amounts

/-! ### Views -/

inductive SplitSharePaymentStatus where
  | unpaid
  | paymentPending
  | paymentFailed
  | paid
deriving DecidableEq

structure SplitShareView where
  id : String
  participantUserId : String
  amount : String
  paymentStatus : SplitSharePaymentStatus
  transferId : Option String
  transferStatus : Option TransferStatus
deriving DecidableEq

structure SplitBillView where
  id : String
  creatorUserId : String
  creatorReference : String
  total : String
  currency : String
  deadline : Option Int
  status : SplitBillStatus
  shares : List SplitShareView
deriving DecidableEq

/-- A bill with its shares and their transfers. -/
structure LoadedBill where
  bill : SplitBill
  shares : List (SplitBillShare × Option Transfer)

namespace Database

/-- The shares of a bill in order of their position. -/
def sharesOf (db : Database) (billId : String) : List SplitBillShare :=
  (db.shares.filter fun share => share.billId = billId).insertionSort fun a b =>
    a.position ≤ b.position

/-- `findOne` of a bill with the relations that its view shows. -/
def loadBill (db : Database) (id : String) : Option LoadedBill :=
  (db.bills.find? fun bill => bill.id = id).map fun bill =>
    { bill, shares := (db.sharesOf id).map fun share => (share, db.transferOfShare share.id) }

end Database

def paymentStatus (transfer : Option Transfer) : SplitSharePaymentStatus :=
  match transfer with
  | none => .unpaid
  | some transfer =>
    if transfer.status = .completed then .paid
    else if transfer.status = .failed then .paymentFailed
    else .paymentPending

def shareView (share : SplitBillShare × Option Transfer) : SplitShareView :=
  { id := share.1.id, participantUserId := share.1.participantUserId,
    amount := formatMinorUnits share.1.amountMinor, paymentStatus := paymentStatus share.2,
    transferId := share.2.map (·.id), transferStatus := share.2.map (·.status) }

/-- The view of a bill. -/
def billView (bill : LoadedBill) : SplitBillView :=
  let shares := bill.shares.map shareView
  let paid := (shares.filter fun share => share.paymentStatus = .paid).length
  { id := bill.bill.id, creatorUserId := bill.bill.creatorUserId,
    creatorReference := bill.bill.creatorReference,
    total := formatMinorUnits bill.bill.totalMinor, currency := bill.bill.currency,
    deadline := bill.bill.deadline, status := deriveSplitBillStatus paid shares.length, shares }

/-- The bill is shown to its creator and its participants. -/
def LoadedBill.isVisible (bill : LoadedBill) (userId : String) : Bool :=
  bill.bill.creatorUserId = userId ∨ bill.shares.any fun share => share.1.participantUserId = userId

/-! ### Programs -/

def get (id userId : String) : PaymentsProg SplitBillView := do
  match ← Prog.read fun db => db.loadBill id with
  | none => throw (PaymentsError.notFound "Split bill not found")
  | some bill =>
    if bill.isVisible userId then return billView bill
    else throw (PaymentsError.notFound "Split bill not found")

/-- The shares of a bill are inserted one by one, each with its message. -/
def insertShares (config : Config) (bill : SplitBill) (draw : Draw) :
    Nat → List (String × Int) → PaymentsTx Unit
  | _, [] => return ()
  | index, (participantUserId, amountMinor) :: rest => do
    let share : SplitBillShare :=
      { id := draw.shareIds index, billId := bill.id, participantUserId, amountMinor,
        position := index }
    Tx.write (insertShare share)
    enqueueSplitBillCreated config.isoString bill share (draw.shareMessages index)
    insertShares config bill draw (index + 1) rest

/-- The transaction of `SplitBillsService.create`. -/
def createBillTransaction (config : Config) (bill : SplitBill) (shares : List (String × Int))
    (draw : Draw) : PaymentsTx Reply := do
  Tx.write (insertBill bill)
  insertShares config bill draw 0 shares
  return .affected shares.length

/-- `SplitBillsService.create`. -/
def createBill (config : Config) (dto : CreateSplitBillDto)
    (creatorUserId creatorReference : String) (draw : Draw) : PaymentsProg SplitBillView := do
  let totalMinor ← .done (parseMoneyToMinor dto.total "total")
  let participantIds := dto.participants.map fun participant => config.toLowerCase participant.userId
  if participantIds.Nodup then do
    let amounts ← .done (shareAmounts dto totalMinor)
    let bill : SplitBill :=
      { id := draw.billId, creatorUserId,
        creatorReference := config.toLowerCase (config.trim creatorReference), totalMinor,
        currency := config.toUpperCase dto.currency, deadline := dto.deadline }
    let _ ← Prog.run (createBillTransaction config bill (participantIds.zip amounts) draw)
    get draw.billId creatorUserId
  else throw (PaymentsError.badRequest "Participants must be unique")

/-- The share of a bill, with the bill. -/
def Database.shareOfBill (db : Database) (billId shareId : String) :
    Option (SplitBillShare × SplitBill) := do
  let share ← db.shares.find? fun share => share.id = shareId ∧ share.billId = billId
  let bill ← db.bills.find? fun bill => bill.id = share.billId
  return (share, bill)

/-- The payment that `payShare` asks for. -/
def sharePayment (share : SplitBillShare) (bill : SplitBill)
    (participantUserId fromWalletId : String) : SplitSharePayment :=
  { shareId := share.id, participantUserId, fromWalletId,
    receiverReference := bill.creatorReference, amountMinor := share.amountMinor,
    currency := bill.currency }

def payShare (config : Config) (billId shareId participantUserId fromWalletId : String)
    (idempotencyKey : Option String) (now : Int) (draw : Draw) :
    PaymentsProg (SplitBillView × TransferView) := do
  match ← Prog.read fun db => db.shareOfBill billId shareId with
  | none => throw (PaymentsError.notFound "Split share not found")
  | some (share, bill) =>
    if share.participantUserId = participantUserId then do
      let transfer ← createSplitSharePayment config
        (sharePayment share bill participantUserId fromWalletId) idempotencyKey draw
      run config transfer.id (draw.runs 0) now
      let bill ← get billId participantUserId
      let transfer ← getStatus transfer.id participantUserId
      return (bill, transfer)
    else throw (PaymentsError.notFound "Split share not found")

/-! ### All commands -/

/-- The programs of the payments service that touch transfers or split bills. -/
inductive Command where
  | create (dto : CreateTransferDto) (idempotencyKey : Option String) (senderUserId : String)
  | createSplitSharePayment (input : SplitSharePayment) (idempotencyKey : Option String)
  | createBill (dto : CreateSplitBillDto) (creatorUserId creatorReference : String)
  | payShare (billId shareId participantUserId fromWalletId : String)
      (idempotencyKey : Option String) (now : Int)
  | run (transferId : String) (now : Int)
  | recoverDue (now : Int) (limit : Nat)
deriving DecidableEq

/-- The results of the programs. -/
inductive Result where
  | view (view : TransferView)
  | bill (bill : SplitBillView)
  | paid (bill : SplitBillView) (transfer : TransferView)
  | unit
  | count (n : Nat)

/-- The program of a command. -/
def Command.program (config : Config) (draw : Draw) : Command → PaymentsProg Result
  | .create dto idempotencyKey senderUserId => do
    return .view (← Payments.create config dto idempotencyKey senderUserId draw)
  | .createSplitSharePayment input idempotencyKey => do
    return .view (← Payments.createSplitSharePayment config input idempotencyKey draw)
  | .createBill dto creatorUserId creatorReference => do
    return .bill (← Payments.createBill config dto creatorUserId creatorReference draw)
  | .payShare billId shareId participantUserId fromWalletId idempotencyKey now => do
    let (bill, transfer) ←
      Payments.payShare config billId shareId participantUserId fromWalletId idempotencyKey now draw
    return .paid bill transfer
  | .run transferId now => do
    Payments.run config transferId (draw.runs 0) now
    return .unit
  | .recoverDue now limit => do
    return .count (← Payments.recoverDue config now limit draw.runs)

end Payments

end PeerLedger
