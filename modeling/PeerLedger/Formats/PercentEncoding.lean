import PeerLedger.Formats.JsonText

/-!
# Percent encoding

`encode` is `encodeURIComponent`: every character but the unreserved ones is written as its bytes in
UTF-8, each as a percent sign and two digits.  `decode` is `decodeURIComponent`, which refuses a
text whose bytes are no UTF-8.  What was encoded is decoded again (`decode_encode`).
-/

namespace Formats

namespace PercentEncoding

/-- The characters that are not encoded. -/
def isUnreserved (c : Char) : Bool := c.isAlphanum || c ∈ "-_.!~*'()".toList

/-- A digit of an encoded byte. -/
def digit (n : Nat) : Char := "0123456789ABCDEF".toList.getD n '0'

/-- A byte in its encoded form. -/
def encodeByte (b : UInt8) : List Char := ['%', digit (b.toNat / 16), digit (b.toNat % 16)]

def encodeChar (c : Char) : List Char :=
  if isUnreserved c then [c] else (String.utf8EncodeChar c).flatMap encodeByte

/-- `encodeURIComponent`. -/
def encode (text : List Char) : List Char := text.flatMap encodeChar

/-- The bytes of a text in which a percent sign and two digits stand for a byte. -/
def octets : List Char → Option (List UInt8)
  | [] => some []
  | '%' :: a :: b :: rest =>
    match JsonText.hexValue a, JsonText.hexValue b with
    | some x, some y => (octets rest).map (UInt8.ofNat (x * 16 + y) :: ·)
    | _, _ => none
  | '%' :: _ => none
  | c :: rest => (octets rest).map (String.utf8EncodeChar c ++ ·)

/-- `decodeURIComponent`; `none` where it throws. -/
def decode (text : List Char) : Option (List Char) :=
  (octets text).bind fun bytes =>
    -- the bytes are the encoding of a text
    if Utf8.encode (Utf8.decode bytes) = bytes then some (Utf8.decode bytes) else none

/-! ### What was encoded is decoded -/

lemma octets_cons {c : Char} (h : c ≠ '%') (rest : List Char) :
    octets (c :: rest) = (octets rest).map (String.utf8EncodeChar c ++ ·) := by
  rw [octets.eq_def]
  split
  · next heq => exact absurd heq (List.cons_ne_nil _ _)
  · next heq => exact absurd (List.cons.inj heq).1 h
  · next heq => exact absurd (List.cons.inj heq).1 h
  · next heq =>
    obtain ⟨rfl, rfl⟩ := List.cons.inj heq
    rfl

lemma hexValue_digit : ∀ n < 16, JsonText.hexValue (digit n) = some n := by decide

lemma octets_encodeByte (b : UInt8) (rest : List Char) :
    octets (encodeByte b ++ rest) = (octets rest).map (b :: ·) := by
  have hhigh := hexValue_digit (b.toNat / 16) (by have := b.toNat_lt; omega)
  have hlow := hexValue_digit (b.toNat % 16) (by omega)
  have hbyte : UInt8.ofNat (b.toNat / 16 * 16 + b.toNat % 16) = b := by
    rw [Nat.div_add_mod']
    exact UInt8.ofNat_toNat
  simp only [encodeByte, List.cons_append, List.nil_append, octets, hhigh, hlow, hbyte]

lemma octets_encodeBytes (bytes : List UInt8) (rest : List Char) :
    octets (bytes.flatMap encodeByte ++ rest) = (octets rest).map (bytes ++ ·) := by
  induction bytes with
  | nil =>
    change octets rest = _
    cases octets rest <;> rfl
  | cons b bytes ih =>
    rw [List.flatMap_cons, List.append_assoc, octets_encodeByte, ih, Option.map_map]
    rfl

/-- The percent sign is encoded. -/
lemma ne_percent_of_isUnreserved {c : Char} (h : isUnreserved c = true) : c ≠ '%' := by
  rintro rfl
  exact absurd h (by decide)

lemma octets_encode (text : List Char) : octets (encode text) = some (Utf8.encode text) := by
  induction text with
  | nil => rfl
  | cons c text ih =>
    have hchar : octets (encodeChar c ++ encode text) =
        (octets (encode text)).map (String.utf8EncodeChar c ++ ·) := by
      unfold encodeChar
      split
      · next h => exact octets_cons (ne_percent_of_isUnreserved h) _
      · exact octets_encodeBytes _ _
    rw [encode, List.flatMap_cons, ← encode, hchar, ih]
    rfl

/-- `decodeURIComponent` reads what `encodeURIComponent` has written. -/
theorem decode_encode (text : List Char) : decode (encode text) = some text := by
  rw [decode, octets_encode, Option.bind_some, Utf8.decode_encode, if_pos rfl]

end PercentEncoding

end Formats
