import PeerLedger.Formats.IsoDate

/-!
# Signed JSON tokens

`sign` writes a token in its compact form: the header, the payload and the signature, each in
base64url, with dots between them.  When the first member of the payload is a text whose written form
fills whole groups of three bytes, the token opens with digits that depend on that text only
(`sign_eq_opening`), and the digits determine the text (`opening_inj`).  The payload of a token can be
read without the secret (`payloadOf_sign`).
-/

namespace Formats

namespace JsonWebToken

/-- The bytes of a text in base64url. -/
def segment (text : List Char) : List Char := Base64Url.encode (Utf8.encode text)

/-- The header of a token that is signed with a shared secret. -/
def header : JsonText.Value :=
  .object (JsonText.stringMembers
    [("alg".toList, "HS256".toList), ("typ".toList, "JWT".toList)])

/-- What is signed. -/
def signingInput (payload : JsonText.Value) : List Char :=
  segment (JsonText.stringify header) ++ '.' :: segment (JsonText.stringify payload)

/-- The token; `mac` is the code of a text under a secret, in base64url. -/
def sign (mac : List Char → List Char → List Char) (secret : List Char) (payload : JsonText.Value) :
    List Char :=
  signingInput payload ++ '.' :: mac secret (signingInput payload)

/-- The written form of an object up to its first member, a text. -/
def firstMember (key text : List Char) : List Char :=
  Char.ofNat 0x7B :: (JsonText.quote key ++ ':' :: JsonText.quote text)

/-- A token up to the first member of its payload. -/
def opening (key text : List Char) : List Char :=
  segment (JsonText.stringify header) ++ '.' :: segment (firstMember key text)

lemma segment_append {a : List Char} (h : (Utf8.encode a).length % 3 = 0) (b : List Char) :
    segment (a ++ b) = segment a ++ segment b := by
  unfold segment
  rw [Utf8.encode_append, Base64Url.encode_append h]

/-- The digits determine the text. -/
lemma segment_inj {a b : List Char} (h : segment a = segment b) : a = b := by
  have hbytes : Utf8.encode a = Utf8.encode b := by
    rw [← Base64Url.decode_encode (Utf8.encode a), ← Base64Url.decode_encode (Utf8.encode b)]
    exact congrArg Base64Url.decode h
  rw [← Utf8.decode_encode a, ← Utf8.decode_encode b, hbytes]

/-- An object is written from its first member on. -/
lemma stringify_firstMember (key text : List Char) (members : List (List Char × JsonText.Value)) :
    ∃ rest, JsonText.stringify (.object ((key, .string text) :: members)) =
      firstMember key text ++ rest := by
  unfold firstMember
  cases members with
  | nil =>
    refine ⟨[Char.ofNat 0x7D], ?_⟩
    simp [JsonText.stringify, JsonText.stringifyMembers]
  | cons m rest =>
    refine ⟨',' :: (JsonText.stringifyMembers (m :: rest) ++ [Char.ofNat 0x7D]), ?_⟩
    simp [JsonText.stringify, JsonText.stringifyMembers]

/-- A token opens with digits that depend on the first member of its payload only. -/
theorem sign_eq_opening (mac : List Char → List Char → List Char) (secret key text : List Char)
    (members : List (List Char × JsonText.Value))
    (haligned : (Utf8.encode (firstMember key text)).length % 3 = 0) :
    ∃ rest, sign mac secret (.object ((key, .string text) :: members)) =
      opening key text ++ rest := by
  obtain ⟨rest, hrest⟩ := stringify_firstMember key text members
  unfold sign
  set input := signingInput (.object ((key, .string text) :: members)) with hinput
  have hsplit : input = opening key text ++ segment rest := by
    rw [hinput, signingInput, hrest, segment_append haligned, opening, List.append_assoc,
      List.cons_append]
  refine ⟨segment rest ++ '.' :: mac secret input, ?_⟩
  rw [← List.append_assoc, ← hsplit]

lemma length_segment {text : List Char} (h : (Utf8.encode text).length % 3 = 0) :
    (segment text).length = (Utf8.encode text).length / 3 * 4 := Base64Url.length_encode h

/-- The header is 36 digits. -/
lemma length_header : (segment (JsonText.stringify header)).length = 36 := by decide +kernel

lemma length_opening {key text : List Char}
    (haligned : (Utf8.encode (firstMember key text)).length % 3 = 0) :
    (opening key text).length = 37 + (Utf8.encode (firstMember key text)).length / 3 * 4 := by
  rw [opening, List.length_append, List.length_cons, length_header, length_segment haligned]
  omega

/-- The digits that a token opens with determine the first member. -/
theorem opening_inj {key text text' : List Char} (h : opening key text = opening key text') :
    text = text' := by
  unfold opening at h
  have hsegment := List.append_cancel_left h
  have hmember := segment_inj (List.cons.inj hsegment).2
  unfold firstMember at hmember
  have hquoted := List.append_cancel_left (List.cons.inj hmember).2
  exact JsonText.quote_inj (List.cons.inj hquoted).2

/-! ### The payload -/

/-- The payload of a token, whoever has signed it. -/
def payloadOf (token : List Char) : Option JsonText.Value :=
  match token.splitOn '.' with
  | _ :: encoded :: _ => JsonText.parse (Utf8.decode (Base64Url.decode encoded))
  | _ => none

lemma dot_not_mem_segment (text : List Char) : '.' ∉ segment text := by
  intro hmem
  exact absurd (Base64Url.mem_alphabet_of_mem_encode hmem) (by decide)

/-- The payload stands between the first dots of a token. -/
lemma splitOn_sign (mac : List Char → List Char → List Char) (secret : List Char)
    (payload : JsonText.Value) : ∃ rest, (sign mac secret payload).splitOn '.' =
      segment (JsonText.stringify header) :: segment (JsonText.stringify payload) :: rest := by
  unfold sign signingInput
  rw [List.append_assoc, List.cons_append,
    List.splitOn_append_cons_self_of_not_mem (dot_not_mem_segment _),
    List.splitOn_append_cons_self_of_not_mem (dot_not_mem_segment _)]
  exact ⟨_, rfl⟩

/-- The payload of a token is the one that was signed. -/
theorem payloadOf_sign (mac : List Char → List Char → List Char) (secret : List Char)
    {payload : JsonText.Value} (h : JsonText.WellFormed payload) :
    payloadOf (sign mac secret payload) = some payload := by
  obtain ⟨rest, hsplit⟩ := splitOn_sign mac secret payload
  rw [payloadOf, hsplit]
  change JsonText.parse (Utf8.decode (Base64Url.decode (segment (JsonText.stringify payload)))) = _
  rw [segment, Base64Url.decode_encode, Utf8.decode_encode, JsonText.parse_stringify h]

end JsonWebToken

end Formats
