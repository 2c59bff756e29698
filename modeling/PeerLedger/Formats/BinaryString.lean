import PeerLedger.Formats.JsonWebToken
import Mathlib.Data.List.Basic

/-!
# Binary strings

`atob` decodes plain base64 into a string with one character for each byte, which is the text only
when its bytes are below 128.  JSON survives this: the binary string of a written object is a written
object whose texts are binary strings (`ofText_object`).
-/

namespace Formats

namespace BinaryString

/-- One character for each byte. -/
def ofBytes (bytes : List UInt8) : List Char := bytes.map fun b => Char.ofNat b.toNat

/-- The characters for the bytes of a text. -/
def ofText (text : List Char) : List Char := ofBytes (Utf8.encode text)

def isAsciiWhiteSpace (c : Char) : Bool := c.toNat ∈ [0x09, 0x0A, 0x0C, 0x0D, 0x20]

/-- The six bits of a digit of plain base64. -/
def value (c : Char) : Option ℕ := if c = '-' ∨ c = '_' then none else Base64Url.value c

/-- The digits without one or two padding characters that complete a group of four. -/
def unpadded (digits : List Char) : List Char :=
  if digits.length % 4 ≠ 0 then digits
  else if digits.drop (digits.length - 2) = ['=', '='] then digits.take (digits.length - 2)
  else if digits.drop (digits.length - 1) = ['='] then digits.take (digits.length - 1)
  else digits

/-- `atob`; `none` stands for the exception. -/
def atob (text : List Char) : Option (List Char) :=
  let digits := unpadded (text.filter fun c => !isAsciiWhiteSpace c)
  if digits.length % 4 = 1 then none
  else (digits.mapM value).map fun values => ofBytes (Base64Url.toBytes values)

/-- The digit of plain base64. -/
def plain (c : Char) : Char := if c = '-' then '+' else if c = '_' then '/' else c

/-! ### What is decoded -/

lemma plain_digit {c : Char} (h : c ∈ Base64Url.alphabet) :
    value (plain c) = Base64Url.value c ∧ (Base64Url.value c).isSome = true ∧
      isAsciiWhiteSpace (plain c) = false ∧ plain c ≠ '=' := by
  have hall : Base64Url.alphabet.all (fun c => value (plain c) = Base64Url.value c ∧
      (Base64Url.value c).isSome = true ∧ isAsciiWhiteSpace (plain c) = false ∧
      plain c ≠ '=') = true := by decide +kernel
  exact of_decide_eq_true (List.all_eq_true.mp hall c h)

lemma mapM_value {digits : List Char} (h : ∀ c ∈ digits, c ∈ Base64Url.alphabet) :
    (digits.map plain).mapM value = some (digits.filterMap Base64Url.value) := by
  induction digits with
  | nil => rfl
  | cons c digits ih =>
    obtain ⟨hvalue, hsome, -, -⟩ := plain_digit (h c List.mem_cons_self)
    obtain ⟨n, hn⟩ := Option.isSome_iff_exists.mp hsome
    rw [List.map_cons, List.mapM_cons, hvalue, hn,
      ih fun d hd => h d (List.mem_cons_of_mem c hd), List.filterMap_cons, hn]
    rfl

/-- Digits without padding. -/
lemma unpadded_eq {digits : List Char} (h : ∀ c ∈ digits, c ≠ '=') : unpadded digits = digits := by
  have hnone : ∀ n, ∀ rest, digits.drop n ≠ '=' :: rest := by
    intro n rest heq
    have hmem : '=' ∈ digits.drop n := by
      rw [heq]
      exact List.mem_cons_self
    exact h '=' (List.mem_of_mem_drop hmem) rfl
  unfold unpadded
  split
  · rfl
  · rw [if_neg (hnone _ _), if_neg (hnone _ _)]

/-- The digits of some bytes do not end one digit after a group. -/
lemma length_encode_ne (bytes : List UInt8) : (Base64Url.encode bytes).length % 4 ≠ 1 := by
  induction bytes using Base64Url.encode.induct with
  | case1 a b c rest ih =>
    simp only [Base64Url.encode, List.length_cons]
    omega
  | case2 a b => simp [Base64Url.encode]
  | case3 a => simp [Base64Url.encode]
  | case4 => simp [Base64Url.encode]

/-- `atob` reads base64url whose digits were replaced by those of plain base64. -/
theorem atob_encode (bytes : List UInt8) :
    atob ((Base64Url.encode bytes).map plain) = some (ofBytes bytes) := by
  have hdigits : ∀ c ∈ Base64Url.encode bytes, c ∈ Base64Url.alphabet :=
    fun c hc => Base64Url.mem_alphabet_of_mem_encode hc
  have hplain : ∀ c ∈ (Base64Url.encode bytes).map plain,
      isAsciiWhiteSpace c = false ∧ c ≠ '=' := by
    intro c hc
    obtain ⟨d, hd, rfl⟩ := List.mem_map.mp hc
    exact (plain_digit (hdigits d hd)).2.2
  have hfilter : ((Base64Url.encode bytes).map plain).filter (fun c => !isAsciiWhiteSpace c) =
      (Base64Url.encode bytes).map plain := by
    refine List.filter_eq_self.mpr fun c hc => ?_
    rw [(hplain c hc).1]
    rfl
  unfold atob
  simp only [hfilter, unpadded_eq fun c hc => (hplain c hc).2, List.length_map,
    if_neg (length_encode_ne bytes), mapM_value hdigits, Option.map_some]
  exact congrArg (fun decoded => some (ofBytes decoded)) (Base64Url.decode_encode bytes)

/-! ### Binary strings of JSON -/

lemma ofText_append (a b : List Char) : ofText (a ++ b) = ofText a ++ ofText b := by
  unfold ofText ofBytes
  rw [Utf8.encode_append, List.map_append]

lemma ofText_cons (c : Char) (text : List Char) : ofText (c :: text) = ofText [c] ++ ofText text :=
  ofText_append [c] text

lemma ofText_singleton {c : Char} (h : c.toNat < 128) : ofText [c] = [c] := by
  have hbytes : Utf8.encode [c] = [UInt8.ofNat c.toNat] := by
    rw [Utf8.encode, List.flatMap_singleton, Utf8.utf8EncodeChar_eq, if_pos (by omega)]
  rw [ofText, ofBytes, hbytes, List.map_singleton, Utf8.toNat_ofNat (by omega), Char.ofNat_toNat]

/-- A text of characters below 128 is its own binary string. -/
lemma ofText_eq {text : List Char} (h : ∀ c ∈ text, c.toNat < 128) : ofText text = text := by
  induction text with
  | nil => rfl
  | cons c text ih =>
    rw [ofText_cons, ofText_singleton (h c List.mem_cons_self),
      ih fun d hd => h d (List.mem_cons_of_mem c hd), List.singleton_append]

/-- The bytes of another character are 128 at least. -/
lemma le_of_mem_encode {c : Char} (h : 128 ≤ c.toNat) {b : UInt8} (hb : b ∈ Utf8.encode [c]) :
    128 ≤ b.toNat := by
  have hcase := Utf8.toNat_cases c
  rw [Utf8.encode, List.flatMap_singleton, Utf8.utf8EncodeChar_eq, if_neg (by omega)] at hb
  split_ifs at hb with h₂ h₃
  all_goals
    simp only [List.mem_cons, List.not_mem_nil, or_false] at hb
  · rcases hb with rfl | rfl <;> rw [Utf8.toNat_ofNat] <;> omega
  · rcases hb with rfl | rfl | rfl <;> rw [Utf8.toNat_ofNat] <;> omega
  · rcases hb with rfl | rfl | rfl | rfl <;> rw [Utf8.toNat_ofNat] <;> omega

/-- A character from 128 on is not escaped. -/
lemma escape_eq {c : Char} (h : 128 ≤ c.toNat) : JsonText.escape c = [c] := by
  have hquote : ¬ (c = JsonText.quoteMark ∨ c = JsonText.backslash) := by
    rintro (rfl | rfl) <;> exact absurd h (by decide)
  unfold JsonText.escape
  rw [if_neg hquote, if_neg (by omega), if_neg (by omega), if_neg (by omega), if_neg (by omega),
    if_neg (by omega), if_neg (by omega)]

lemma toNat_charOfNat : ∀ n < 256, (Char.ofNat n).toNat = n := by decide +kernel

/-- A character below 128 is written with such characters. -/
lemma escape_ascii {c : Char} (h : c.toNat < 128) : ∀ d ∈ JsonText.escape c, d.toNat < 128 := by
  have hall : ∀ n < 128, (JsonText.escape (Char.ofNat n)).all (fun d => d.toNat < 128) = true := by
    decide +kernel
  intro d hd
  have hchar := hall c.toNat h
  rw [Char.ofNat_toNat] at hchar
  exact of_decide_eq_true (List.all_eq_true.mp hchar d hd)

lemma ofText_escape (c : Char) :
    ofText (JsonText.escape c) = (ofText [c]).flatMap JsonText.escape := by
  rcases Nat.lt_or_ge c.toNat 128 with hlt | hge
  · rw [ofText_singleton hlt, List.flatMap_singleton, ofText_eq (escape_ascii hlt)]
  · rw [escape_eq hge]
    symm
    have hself : (ofText [c]).flatMap JsonText.escape = (ofText [c]).flatMap fun d => [d] := by
      refine List.flatMap_congr fun d hd => ?_
      obtain ⟨b, hb, rfl⟩ := List.mem_map.mp hd
      have hlarge := le_of_mem_encode hge hb
      rw [← toNat_charOfNat b.toNat b.toNat_lt] at hlarge
      exact escape_eq hlarge
    rw [hself, List.flatMap_singleton']

/-- The binary string of a quoted text quotes the binary string. -/
theorem ofText_quote (text : List Char) :
    ofText (JsonText.quote text) = JsonText.quote (ofText text) := by
  have hmark : ofText [JsonText.quoteMark] = [JsonText.quoteMark] :=
    ofText_singleton (by decide)
  have hbody : ofText (text.flatMap JsonText.escape) = (ofText text).flatMap JsonText.escape := by
    induction text with
    | nil => rfl
    | cons c text ih =>
      rw [List.flatMap_cons, ofText_append, ih, ofText_escape, ofText_cons c text,
        List.flatMap_append]
  unfold JsonText.quote
  rw [ofText_cons, ofText_append, hmark, hbody, List.singleton_append]

/-- A text as a binary string. -/
def ofValue : JsonText.Value → JsonText.Value
  | .string text => .string (ofText text)
  | value => value

lemma ofText_members {members : List (List Char × JsonText.Value)}
    (h : ∀ m ∈ members, ofText (JsonText.stringify m.2) = JsonText.stringify (ofValue m.2)) :
    ofText (JsonText.stringifyMembers members) =
      JsonText.stringifyMembers (members.map fun m => (ofText m.1, ofValue m.2)) := by
  have hcolon : ofText [':'] = [':'] := ofText_singleton (by decide)
  have hcomma : ofText [','] = [','] := ofText_singleton (by decide)
  induction members with
  | nil => rfl
  | cons m members ih =>
    obtain ⟨key, value⟩ := m
    have hvalue := h (key, value) List.mem_cons_self
    rcases members with _ | ⟨m', members⟩
    · rw [JsonText.stringifyMembers, ofText_append, ofText_cons, ofText_quote, hcolon, hvalue]
      rfl
    · have hrest := ih fun m hm => h m (List.mem_cons_of_mem _ hm)
      rw [JsonText.stringifyMembers_cons, ofText_append, ofText_cons, ofText_append,
        ofText_cons ',', ofText_quote, hcolon, hcomma, hvalue, hrest]
      exact (JsonText.stringifyMembers_cons (ofText key) (ofValue value)
        (ofText m'.1, ofValue m'.2) _).symm

/-- The binary string of a written object is a written object of binary strings. -/
theorem ofText_object {members : List (List Char × JsonText.Value)}
    (h : ∀ m ∈ members, ofText (JsonText.stringify m.2) = JsonText.stringify (ofValue m.2)) :
    ofText (JsonText.stringify (.object members)) =
      JsonText.stringify (.object (members.map fun m => (ofText m.1, ofValue m.2))) := by
  have hopen : ofText [Char.ofNat 0x7B] = [Char.ofNat 0x7B] := ofText_singleton (by decide)
  have hclose : ofText [Char.ofNat 0x7D] = [Char.ofNat 0x7D] := ofText_singleton (by decide)
  rw [JsonText.stringify, JsonText.stringify, ofText_cons, ofText_append, ofText_members h, hopen,
    hclose]
  rfl

lemma ofText_digits (n : ℕ) : ofText (toString n).toList = (toString n).toList := by
  refine ofText_eq fun c hc => ?_
  have hdigit : c.isDigit = true := by
    have hdigits : (toString n).toList = Nat.toDigits 10 n := Nat.toList_repr
    rw [hdigits] at hc
    exact Nat.isDigit_of_mem_toDigits (by decide) (by decide) hc
  unfold Char.isDigit at hdigit
  simp only [ge_iff_le, Bool.and_eq_true, decide_eq_true_eq] at hdigit
  have hnine : c.toNat ≤ '9'.toNat := hdigit.2
  exact lt_of_le_of_lt hnine (by decide)

end BinaryString

end Formats
