import PeerLedger.Formats.FixedPoint
import Mathlib.Data.Rat.Floor
import Mathlib.Data.List.Basic

/-!
# The double-entry journal

The payloads of the ledger's events are JSON.  A money event carries a *ledger transaction*: a list
of postings whose amounts, written as decimal strings of minor units, sum to zero.  This file models
`ledger-transaction.ts`: building such a payload, reading one back with every check, and the
conversions between amounts and minor units.

Amounts of requests are JavaScript numbers; they are modelled as exact rationals.
-/

namespace PeerLedger

/-- A sequence of fallible computations succeeds when both parts do. -/
lemma except_bind_ok {ε α β : Type} {x : Except ε α} {f : α → Except ε β} {b : β} :
    x >>= f = .ok b ↔ ∃ a, x = .ok a ∧ f a = .ok b := by
  cases x <;> simp [bind, Except.bind]

/-- Rewriting errors leaves results alone. -/
lemma except_mapError_ok {ε ε' α : Type} {f : ε → ε'} {x : Except ε α} {a : α} :
    x.mapError f = .ok a ↔ x = .ok a := by
  cases x <;> simp [Except.mapError]

/-- JSON values, as stored in a `jsonb` column. -/
inductive Json where
  | null
  | bool (b : Bool)
  | num (n : ℚ)
  | str (s : String)
  | arr (xs : List Json)
  | obj (fields : List (String × Json))

/-- Property access `j.key`: `none` is `undefined`, and access on `null` throws. -/
def Json.access (j : Json) (key : String) : Except String (Option Json) :=
  match j with
  | .null => .error s!"Cannot read properties of null (reading '{key}')"
  | .obj fields => .ok (fields.lookup key)
  | _ => .ok none

namespace Ledger

/-- The account on the other side of every posting of a wallet. -/
def EXTERNAL_CLEARING_ACCOUNT : String := "system:external"

/-- One line of a ledger transaction. -/
structure Posting where
  accountId : String
  amountMinor : String
deriving DecidableEq

/-- A ledger transaction before it is written into a payload. -/
structure LedgerTransactionPayload where
  transactionId : String
  postings : List Posting

/-- The account of a wallet. -/
def walletAccountId (walletId : String) : String := "wallet:" ++ walletId

/-- The characters that `/^-?\d+$/` accepts. -/
def isMinorUnits : List Char → Bool
  | '-' :: digits => !digits.isEmpty && digits.all Char.isDigit
  | digits => !digits.isEmpty && digits.all Char.isDigit

/-- `BigInt` of a string that matches `/^-?\d+$/`. -/
def bigInt : List Char → Int
  | '-' :: digits => -(Nat.ofDigitChars 10 digits 0 : Int)
  | digits => (Nat.ofDigitChars 10 digits 0 : Int)

/-- The minor units that a posting's text stands for. -/
def parseMinorUnits (value : String) : Except String Int :=
  if isMinorUnits value.toList then .ok (bigInt value.toList)
  else .error s!"Invalid minor-unit amount: {value}"

/-- The sum of the postings' amounts, parsed from left to right. -/
def totalMinorUnits (postings : List Posting) : Except String Int :=
  postings.foldlM (fun sum posting => do return sum + (← parseMinorUnits posting.amountMinor)) 0

/-- A ledger transaction has at least two postings and they sum to zero. -/
def assertBalancedPostings (postings : List Posting) : Except String Unit :=
  if postings.length < 2 then .error "A ledger transaction requires at least two postings"
  else do
    let total ← totalMinorUnits postings
    if total ≠ 0 then .error "Ledger postings are not balanced" else .ok ()

/-- The transaction that moves `walletAmountMinor` into the wallet. -/
def createLedgerTransaction (walletId : String) (walletAmountMinor : Int)
    (transactionId : String) : Except String LedgerTransactionPayload :=
  if walletAmountMinor = 0 then .error "A ledger transaction amount cannot be zero"
  else do
    let postings : List Posting := [
      { accountId := walletAccountId walletId, amountMinor := toString walletAmountMinor },
      { accountId := EXTERNAL_CLEARING_ACCOUNT, amountMinor := toString (-walletAmountMinor) }]
    assertBalancedPostings postings
    return { transactionId, postings }

/-- A posting as a JSON object. -/
def Posting.toJson (p : Posting) : Json :=
  .obj [("accountId", .str p.accountId), ("amountMinor", .str p.amountMinor)]

/-- The properties of a ledger transaction in a payload. -/
def LedgerTransactionPayload.fields (t : LedgerTransactionPayload) : List (String × Json) :=
  [("transactionId", .str t.transactionId), ("postings", .arr (t.postings.map Posting.toJson))]

/-- One element of `payload.postings`. -/
def readPosting : Json → Except String Posting
  | .obj fields =>
    match fields.lookup "accountId", fields.lookup "amountMinor" with
    | some (.str accountId), some (.str amountMinor) => .ok { accountId, amountMinor }
    | _, _ => .error "Ledger event contains an invalid posting"
  | _ => .error "Ledger event contains an invalid posting"

/-- The postings of an event's payload, checked to be balanced. -/
def readPostings (payload : Json) : Except String (List Posting) := do
  match ← payload.access "postings" with
  | some (.arr xs) =>
    let postings ← xs.mapM readPosting
    assertBalancedPostings postings
    return postings
  | _ => .error "Ledger event does not contain postings"

/-- `Number.MAX_SAFE_INTEGER`. -/
def MAX_SAFE_INTEGER : Int := 2 ^ 53 - 1

/-- `Math.round`: to the nearest integer, ties upwards. -/
def mathRound (x : ℚ) : Int := ⌊x + 1 / 2⌋

/-- The minor units of a request's amount. -/
def amountToMinorUnits (amount : ℚ) : Except String Int :=
  let rounded := mathRound (amount * 100)
  if -MAX_SAFE_INTEGER ≤ rounded ∧ rounded ≤ MAX_SAFE_INTEGER then .ok rounded
  else .error "Amount exceeds the supported monetary range"

/-- `text.padStart(width, pad)`. -/
def padStart (width : Nat) (pad : Char) (text : String) : String :=
  String.ofList (List.replicate (width - text.length) pad ++ text.toList)

/-- Minor units as a decimal amount with two places. -/
def formatMinorUnits (amountMinor : Int) : String :=
  let sign := if amountMinor < 0 then "-" else ""
  let absolute := amountMinor.natAbs
  sign ++ toString (absolute / 100) ++ "." ++ padStart 2 '0' (toString (absolute % 100))

/-! ### Reading back what was written -/

private lemma toDigits_isMinorUnits (n : ℕ) : isMinorUnits (Nat.toDigits 10 n) = true ∧
    bigInt (Nat.toDigits 10 n) = n := by
  have hdigit : ∀ c ∈ Nat.toDigits 10 n, c.isDigit = true := fun c hc =>
    Nat.isDigit_of_mem_toDigits (by decide) (by decide) hc
  have hval := Nat.ofDigitChars_ten_toDigits (n := n)
  have hne : Nat.toDigits 10 n ≠ [] := by
    rw [← Nat.toList_repr]
    simp
  -- the first character of a numeral is a digit, so the sign branch is not taken
  cases hd : Nat.toDigits 10 n with
  | nil => exact absurd hd hne
  | cons c cs =>
    have hc : c ≠ '-' := by
      rintro rfl
      exact absurd (hdigit '-' (by simp [hd])) (by decide)
    rw [hd] at hdigit hval
    have hall : ((c :: cs).all Char.isDigit) = true := List.all_eq_true.mpr hdigit
    refine ⟨?_, ?_⟩
    · rw [isMinorUnits.eq_2 _ (by rintro digits ⟨⟩; exact hc rfl)]
      simpa using hall
    · rw [bigInt.eq_2 _ (by rintro digits ⟨⟩; exact hc rfl), hval]

/-- Minor units written in decimal are read back exactly. -/
lemma parseMinorUnits_toString (n : Int) : parseMinorUnits (toString n) = .ok n := by
  cases n with
  | ofNat n =>
    obtain ⟨h1, h2⟩ := toDigits_isMinorUnits n
    have hs : (toString (Int.ofNat n)).toList = Nat.toDigits 10 n := Nat.toList_repr
    rw [parseMinorUnits, hs, h1, h2]
    rfl
  | negSucc n =>
    have hs : (toString (Int.negSucc n)).toList = '-' :: Nat.toDigits 10 (n + 1) := by
      have : (toString (Int.negSucc n)).toList = ("-" ++ (n + 1).repr).toList := rfl
      rw [this, String.toList_append, Nat.toList_repr]
      rfl
    have hdigit : (Nat.toDigits 10 (n + 1)).all Char.isDigit = true :=
      List.all_eq_true.mpr fun c hc => Nat.isDigit_of_mem_toDigits (by decide) (by decide) hc
    have hne : Nat.toDigits 10 (n + 1) ≠ [] := by
      rw [← Nat.toList_repr]
      simp
    rw [parseMinorUnits, hs]
    simp [isMinorUnits, hdigit, hne, bigInt, Nat.ofDigitChars_ten_toDigits, Int.negSucc_eq]

@[simp]
lemma parseMinorUnits_repr (n : Int) : parseMinorUnits n.repr = .ok n := parseMinorUnits_toString n

/-! ### Amounts as text -/

/-- A numeral that is padded to a width that it fits in. -/
lemma toList_padStart {width n : Nat} (hwidth : 0 < width) (h : n < 10 ^ width) :
    (padStart width '0' (toString n)).toList = Formats.IsoDate.digits width n := by
  have hlist : (toString n).toList = Nat.toDigits 10 n := Nat.toList_repr
  rw [padStart, String.toList_ofList, ← String.length_toList, hlist]
  exact Formats.FixedPoint.replicate_append_toDigits hwidth h

/-- A sign if the amount is negative, and the text of its magnitude. -/
lemma toList_formatMinorUnits (m : Int) :
    (formatMinorUnits m).toList =
      (if m < 0 then ['-'] else []) ++ Formats.FixedPoint.text 2 m.natAbs := by
  have hwhole : (toString (m.natAbs / 100)).toList = Nat.toDigits 10 (m.natAbs / 100) :=
    Nat.toList_repr
  have hplaces : (padStart 2 '0' (toString (m.natAbs % 100))).toList =
      Formats.IsoDate.digits 2 m.natAbs := by
    have hlt : m.natAbs % 100 < 10 ^ 2 := Nat.mod_lt _ (by decide)
    exact (toList_padStart (by decide) hlt).trans (Formats.FixedPoint.digits_mod 2 m.natAbs)
  have hsign : (if m < 0 then "-" else "").toList = if m < 0 then ['-'] else [] := by
    split_ifs <;> rfl
  simp only [formatMinorUnits, String.toList_append, hsign, hwhole, hplaces, List.append_assoc]
  rfl

/-- The text of an amount determines the amount. -/
lemma formatMinorUnits_inj {m n : Int} : formatMinorUnits m = formatMinorUnits n ↔ m = n := by
  refine ⟨fun h => ?_, congrArg formatMinorUnits⟩
  have hlist := congrArg String.toList h
  rw [toList_formatMinorUnits, toList_formatMinorUnits] at hlist
  -- a text without a sign does not start with one, so the signs are the same
  split_ifs at hlist with hm hn hn
  · have habs := Formats.FixedPoint.text_injective 2 (List.cons.inj hlist).2
    omega
  · exact absurd hlist.symm (Formats.FixedPoint.text_ne_minus 2 _ _)
  · exact absurd hlist (Formats.FixedPoint.text_ne_minus 2 _ _)
  · have habs := Formats.FixedPoint.text_injective 2 hlist
    omega

/-! ### Postings of a movement -/

/-- A wallet's account is never the clearing account. -/
lemma walletAccountId_ne_external (walletId : String) :
    EXTERNAL_CLEARING_ACCOUNT ≠ walletAccountId walletId := by
  intro h
  have := congrArg (fun s => s.toList.head?) h
  simp [EXTERNAL_CLEARING_ACCOUNT, walletAccountId] at this

/-- A wallet's account determines the wallet. -/
lemma walletAccountId_injective : Function.Injective walletAccountId := fun a b h => by
  have := congrArg String.toList h
  simpa [walletAccountId, String.toList_append, String.toList_inj] using this

/-- The two postings of a wallet movement. -/
def movement (walletId : String) (amountMinor : Int) : List Posting :=
  [{ accountId := walletAccountId walletId, amountMinor := toString amountMinor },
    { accountId := EXTERNAL_CLEARING_ACCOUNT, amountMinor := toString (-amountMinor) }]

/-- The postings of a wallet movement are balanced. -/
lemma assertBalancedPostings_movement (walletId : String) (n : Int) :
    assertBalancedPostings (movement walletId n) = .ok () := by
  simp [assertBalancedPostings, movement, totalMinorUnits, bind, Except.bind, pure, Except.pure]

/-- A ledger transaction can be created exactly for a non-zero amount. -/
lemma createLedgerTransaction_eq (walletId : String) (n : Int) (transactionId : String) :
    createLedgerTransaction walletId n transactionId =
      if n = 0 then .error "A ledger transaction amount cannot be zero"
      else .ok { transactionId, postings := movement walletId n } := by
  unfold createLedgerTransaction
  split
  · rfl
  · change (assertBalancedPostings (movement walletId n)).bind _ = _
    rw [assertBalancedPostings_movement]
    rfl

/-- Reading a posting back gives the posting. -/
lemma readPosting_toJson (p : Posting) : readPosting p.toJson = .ok p := by
  simp [Posting.toJson, readPosting, List.lookup_cons]

/-- Reading postings back gives the postings. -/
lemma mapM_readPosting_toJson (ps : List Posting) :
    (ps.map Posting.toJson).mapM readPosting = .ok ps := by
  induction ps with
  | nil => rfl
  | cons p ps ih =>
    rw [List.map_cons, List.mapM_cons, readPosting_toJson, ih]
    rfl

/-- The postings of a payload that lists a wallet movement. -/
lemma readPostings_movement {fields : List (String × Json)} {walletId : String} {n : Int}
    (h : fields.lookup "postings" = some (.arr ((movement walletId n).map Posting.toJson))) :
    readPostings (.obj fields) = .ok (movement walletId n) := by
  simp only [readPostings, Json.access, h, bind, Except.bind]
  rw [mapM_readPosting_toJson]
  simp [assertBalancedPostings_movement, pure, Except.pure]

/-- A movement has exactly one posting of its wallet. -/
lemma movement_filter (walletId : String) (n : Int) :
    (movement walletId n).filter (fun p => p.accountId = walletAccountId walletId) =
      [{ accountId := walletAccountId walletId, amountMinor := toString n }] := by
  simp [movement, walletAccountId_ne_external]

end Ledger

end PeerLedger
