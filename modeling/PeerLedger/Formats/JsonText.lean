import PeerLedger.Formats.Base64Url

/-!
# JSON text

`stringify` and `parse` are `JSON.stringify` and `JSON.parse`.  A string is quoted with the escapes of
ECMAScript, and an escaped surrogate pair is read as the character that it stands for.  A value whose
numbers have proper literals is read again as it was written (`parse_stringify`).
-/

namespace Formats

namespace JsonText

/-- A JSON value; a number keeps its literal. -/
inductive Value where
  | null
  | bool (b : Bool)
  | number (literal : List Char)
  | string (text : List Char)
  | array (elements : List Value)
  | object (members : List (List Char × Value))

/-- The last member of an object with a key. -/
def Value.member (key : List Char) : Value → Option Value
  | .object members => members.reverse.lookup key
  | _ => none

/-! ### Writing -/

def quoteMark : Char := Char.ofNat 0x22
def backslash : Char := Char.ofNat 0x5C

/-- The digit of four bits. -/
def hexDigit (n : Nat) : Char := "0123456789abcdef".toList.getD n '0'

/-- A character inside a quoted string. -/
def escape (c : Char) : List Char :=
  if c = quoteMark ∨ c = backslash then [backslash, c]
  else if c.toNat = 0x08 then [backslash, 'b']
  else if c.toNat = 0x09 then [backslash, 't']
  else if c.toNat = 0x0A then [backslash, 'n']
  else if c.toNat = 0x0C then [backslash, 'f']
  else if c.toNat = 0x0D then [backslash, 'r']
  else if c.toNat < 0x20 then
    [backslash, 'u', '0', '0', hexDigit (c.toNat / 16), hexDigit (c.toNat % 16)]
  else [c]

/-- A quoted string. -/
def quote (text : List Char) : List Char := quoteMark :: (text.flatMap escape ++ [quoteMark])

mutual

/-- `JSON.stringify`. -/
def stringify : Value → List Char
  | .null => "null".toList
  | .bool b => (toString b).toList
  | .number literal => literal
  | .string text => quote text
  | .array elements => '[' :: (stringifyElements elements ++ [']'])
  | .object members => Char.ofNat 0x7B :: (stringifyMembers members ++ [Char.ofNat 0x7D])

/-- The elements of an array, with commas between them. -/
def stringifyElements : List Value → List Char
  | [] => []
  | [element] => stringify element
  | element :: rest => stringify element ++ ',' :: stringifyElements rest

/-- The members of an object, with commas between them. -/
def stringifyMembers : List (List Char × Value) → List Char
  | [] => []
  | [(key, value)] => quote key ++ ':' :: stringify value
  | (key, value) :: rest => quote key ++ ':' :: (stringify value ++ ',' :: stringifyMembers rest)

end

/-! ### Reading -/

def isSpace (c : Char) : Bool := c = ' ' || c.toNat = 0x09 || c.toNat = 0x0A || c.toNat = 0x0D

/-- The text after white space. -/
def skip (text : List Char) : List Char := text.dropWhile isSpace

/-- The value of a hexadecimal digit. -/
def hexValue (c : Char) : Option Nat :=
  if '0' ≤ c ∧ c ≤ '9' then some (c.toNat - 0x30)
  else if 'a' ≤ c ∧ c ≤ 'f' then some (c.toNat - 0x57)
  else if 'A' ≤ c ∧ c ≤ 'F' then some (c.toNat - 0x37)
  else none

/-- The value of four hexadecimal digits. -/
def hexValue4 (a b c d : Char) : Option Nat :=
  match hexValue a, hexValue b, hexValue c, hexValue d with
  | some a, some b, some c, some d => some (((a * 16 + b) * 16 + c) * 16 + d)
  | _, _, _, _ => none

/-- The character of an escape of one letter. -/
def escaped (c : Char) : Option Nat :=
  if c = quoteMark ∨ c = backslash ∨ c = '/' then some c.toNat
  else if c = 'b' then some 0x08
  else if c = 't' then some 0x09
  else if c = 'n' then some 0x0A
  else if c = 'f' then some 0x0C
  else if c = 'r' then some 0x0D
  else none

/-- The code units of a quoted string after its first quotation mark, and the text after it. -/
def stringBody : List Char → Option (List Nat × List Char)
  | [] => none
  | c :: rest =>
    if c = quoteMark then some ([], rest)
    else if c.toNat < 0x20 then none
    else if c ≠ backslash then (stringBody rest).map fun p => (c.toNat :: p.1, p.2)
    else
      match rest with
      | [] => none
      | e :: rest =>
        if e = 'u' then
          match rest with
          | x :: y :: z :: w :: rest =>
            match hexValue4 x y z w with
            | some n => (stringBody rest).map fun p => (n :: p.1, p.2)
            | none => none
          | _ => none
        else
          match escaped e with
          | some n => (stringBody rest).map fun p => (n :: p.1, p.2)
          | none => none

/-- A code unit that stands alone. -/
def loneUnit (n : Nat) : Char := if 0xD800 ≤ n ∧ n ≤ 0xDFFF then Utf8.replacement else Char.ofNat n

/-- The characters of some code units; a surrogate without its partner is replaced. -/
def fromUnits : List Nat → List Char
  | [] => []
  | [n] => [loneUnit n]
  | n :: m :: rest =>
    if 0xD800 ≤ n ∧ n ≤ 0xDBFF ∧ 0xDC00 ≤ m ∧ m ≤ 0xDFFF then
      Char.ofNat (0x10000 + (n - 0xD800) * 0x400 + (m - 0xDC00)) :: fromUnits rest
    else loneUnit n :: fromUnits (m :: rest)

/-- The digits at the start of a text, of which there is at least one, and the text after them. -/
def someDigits (text : List Char) : Option (List Char × List Char) :=
  match text.span Char.isDigit with
  | ([], _) => none
  | (digits, rest) => some (digits, rest)

/-- The whole part of a number. -/
def wholePart : List Char → Option (List Char × List Char)
  | '0' :: rest => some (['0'], rest)
  | text => someDigits text

/-- The fraction of a number, if it has one. -/
def fraction : List Char → Option (List Char × List Char)
  | '.' :: rest => (someDigits rest).map fun p => ('.' :: p.1, p.2)
  | text => some ([], text)

/-- The exponent of a number, if it has one. -/
def exponent : List Char → Option (List Char × List Char)
  | e :: s :: rest =>
    if e = 'e' ∨ e = 'E' then
      if s = '+' ∨ s = '-' then (someDigits rest).map fun p => (e :: s :: p.1, p.2)
      else (someDigits (s :: rest)).map fun p => (e :: p.1, p.2)
    else some ([], e :: s :: rest)
  | [e] => if e = 'e' ∨ e = 'E' then none else some ([], [e])
  | [] => some ([], [])

/-- A number without its sign. -/
def unsigned (text : List Char) : Option (List Char × List Char) := do
  let (whole, text) ← wholePart text
  let (part, text) ← fraction text
  let (power, text) ← exponent text
  return (whole ++ part ++ power, text)

/-- A number, and the text after it. -/
def number : List Char → Option (Value × List Char)
  | '-' :: text => (unsigned text).map fun p => (.number ('-' :: p.1), p.2)
  | text => (unsigned text).map fun p => (.number p.1, p.2)

/-- A word or a number, and the text after it. -/
def word (text : List Char) : Option (Value × List Char) :=
  if "null".toList.isPrefixOf text then some (.null, text.drop 4)
  else if "true".toList.isPrefixOf text then some (.bool true, text.drop 4)
  else if "false".toList.isPrefixOf text then some (.bool false, text.drop 5)
  else number text

mutual

/-- A value of depth at most `fuel`, and the text after it. -/
def value : Nat → List Char → Option (Value × List Char)
  | 0, _ => none
  | fuel + 1, text =>
    match skip text with
    | [] => none
    | c :: rest =>
      if c = quoteMark then (stringBody rest).map fun p => (.string (fromUnits p.1), p.2)
      else if c = '[' then
        match skip rest with
        | ']' :: rest => some (.array [], rest)
        | _ => (elements fuel rest).map fun p => (.array p.1, p.2)
      else if c.toNat = 0x7B then
        match skip rest with
        | [] => none
        | d :: rest' =>
          if d.toNat = 0x7D then some (.object [], rest')
          else (members fuel rest).map fun p => (.object p.1, p.2)
      else word (c :: rest)

/-- At least one element of an array, and the text after its end. -/
def elements : Nat → List Char → Option (List Value × List Char)
  | 0, _ => none
  | fuel + 1, text =>
    match value fuel text with
    | none => none
    | some (element, rest) =>
      match skip rest with
      | [] => none
      | c :: rest =>
        if c = ',' then (elements fuel rest).map fun p => (element :: p.1, p.2)
        else if c = ']' then some ([element], rest)
        else none

/-- At least one member of an object, and the text after its end. -/
def members : Nat → List Char → Option (List (List Char × Value) × List Char)
  | 0, _ => none
  | fuel + 1, text =>
    match skip text with
    | [] => none
    | c :: rest =>
      if c ≠ quoteMark then none
      else
        match stringBody rest with
        | none => none
        | some (units, rest) =>
          match skip rest with
          | [] => none
          | c :: rest =>
            if c ≠ ':' then none
            else
              match value fuel rest with
              | none => none
              | some (member, rest) =>
                match skip rest with
                | [] => none
                | c :: rest =>
                  if c = ',' then
                    (members fuel rest).map fun p => ((fromUnits units, member) :: p.1, p.2)
                  else if c.toNat = 0x7D then some ([(fromUnits units, member)], rest)
                  else none

end

/-- `JSON.parse`; `none` is a syntax error. -/
def parse (text : List Char) : Option Value :=
  match value (text.length + 1) text with
  | some (v, rest) => if (skip rest).isEmpty then some v else none
  | none => none

/-! ### Strings are read again -/

lemma skip_cons {c : Char} (h : isSpace c = false) (rest : List Char) :
    skip (c :: rest) = c :: rest := by
  simp [skip, h]

lemma stringBody_plain {c : Char} (hq : c ≠ quoteMark) (hb : c ≠ backslash) (hn : ¬ c.toNat < 0x20)
    (rest : List Char) :
    stringBody (c :: rest) = (stringBody rest).map fun p => (c.toNat :: p.1, p.2) := by
  rw [stringBody.eq_def]
  simp only [if_neg hq, if_neg hn, if_pos hb]

/-- An escape of one letter. -/
lemma stringBody_escaped {e : Char} {n : Nat} (hu : e ≠ 'u') (he : escaped e = some n)
    (rest : List Char) :
    stringBody (backslash :: e :: rest) = (stringBody rest).map fun p => (n :: p.1, p.2) := by
  rw [stringBody.eq_def]
  have hq : backslash ≠ quoteMark := by decide
  have hn : ¬ backslash.toNat < 0x20 := by decide
  simp only [if_neg hq, if_neg hn, ne_eq, not_true_eq_false, if_false, if_neg hu, he]

/-- An escape of four digits. -/
lemma stringBody_unit {x y z w : Char} {n : Nat} (h : hexValue4 x y z w = some n)
    (rest : List Char) : stringBody (backslash :: 'u' :: x :: y :: z :: w :: rest) =
      (stringBody rest).map fun p => (n :: p.1, p.2) := by
  rw [stringBody.eq_def]
  have hq : backslash ≠ quoteMark := by decide
  have hn : ¬ backslash.toNat < 0x20 := by decide
  simp only [if_neg hq, if_neg hn, ne_eq, not_true_eq_false, if_false, if_true, h]

/-- The digits of a control character. -/
lemma hexValue4_control {n : Nat} (h : n < 0x20) :
    hexValue4 '0' '0' (hexDigit (n / 16)) (hexDigit (n % 16)) = some n := by
  have hall : ∀ n < 0x20, hexValue4 '0' '0' (hexDigit (n / 16)) (hexDigit (n % 16)) = some n := by
    decide +kernel
  exact hall n h

/-- An escaped character is read as itself. -/
lemma stringBody_escape (c : Char) (rest : List Char) :
    stringBody (escape c ++ rest) = (stringBody rest).map fun p => (c.toNat :: p.1, p.2) := by
  unfold escape
  split_ifs with hmark h8 h9 hA hC hD hcontrol
  · refine stringBody_escaped ?_ ?_ rest
    · rintro rfl
      revert hmark
      decide
    · rcases hmark with rfl | rfl <;> decide
  · exact h8 ▸ stringBody_escaped (by decide) (by decide) rest
  · exact h9 ▸ stringBody_escaped (by decide) (by decide) rest
  · exact hA ▸ stringBody_escaped (by decide) (by decide) rest
  · exact hC ▸ stringBody_escaped (by decide) (by decide) rest
  · exact hD ▸ stringBody_escaped (by decide) (by decide) rest
  · exact stringBody_unit (hexValue4_control hcontrol) rest
  · rw [not_or] at hmark
    exact stringBody_plain hmark.1 hmark.2 hcontrol rest

/-- The code units of a quoted string are its characters. -/
lemma stringBody_quoted (text rest : List Char) :
    stringBody (text.flatMap escape ++ quoteMark :: rest) = some (text.map Char.toNat, rest) := by
  induction text with
  | nil =>
    rw [List.flatMap_nil, List.nil_append, stringBody.eq_def]
    simp
  | cons c text ih =>
    rw [List.flatMap_cons, List.append_assoc, stringBody_escape, ih]
    rfl

/-- A character is no surrogate. -/
lemma loneUnit_toNat (c : Char) : ¬ (0xD800 ≤ c.toNat ∧ c.toNat ≤ 0xDFFF) := by
  have hvalid := c.valid
  change c.toNat < 0xD800 ∨ (0xDFFF < c.toNat ∧ c.toNat < 0x110000) at hvalid
  omega

lemma fromUnits_map (text : List Char) : fromUnits (text.map Char.toNat) = text := by
  have hlone : ∀ c : Char, loneUnit c.toNat = c := by
    intro c
    rw [loneUnit, if_neg (loneUnit_toNat c), Char.ofNat_toNat]
  induction text with
  | nil => rfl
  | cons c text ih =>
    cases text with
    | nil => simp [fromUnits, hlone]
    | cons d text =>
      have hc := loneUnit_toNat c
      simp only [List.map_cons] at ih ⊢
      rw [fromUnits, if_neg (by omega), hlone, ih]

lemma quote_append (text rest : List Char) :
    quote text ++ rest = quoteMark :: (text.flatMap escape ++ quoteMark :: rest) := by
  simp [quote]

/-- A quoted string is read as the string. -/
lemma value_quote (fuel : Nat) (text rest : List Char) :
    value (fuel + 1) (quote text ++ rest) = some (.string text, rest) := by
  have hspace : isSpace quoteMark = false := by decide
  rw [quote_append, value, skip_cons hspace]
  simp only [if_true, stringBody_quoted, Option.map_some, fromUnits_map]

/-- A quoted string and what follows it can be told apart. -/
lemma quote_append_inj {text text' rest rest' : List Char} :
    quote text ++ rest = quote text' ++ rest' ↔ text = text' ∧ rest = rest' := by
  constructor
  · intro h
    have hvalue := value_quote 0 text rest
    rw [h, value_quote] at hvalue
    simp only [Option.some.injEq, Prod.mk.injEq, Value.string.injEq] at hvalue
    exact ⟨hvalue.1.symm, hvalue.2.symm⟩
  · rintro ⟨rfl, rfl⟩
    rfl

/-- The quoted form determines the string. -/
lemma quote_inj {text text' : List Char} (h : quote text = quote text') : text = text' :=
  (quote_append_inj.mp (congrArg (· ++ []) h)).1

/-! ### Values are read again -/

/-- What can follow a value: nothing that could go on with a number. -/
def Ends (rest : List Char) : Prop :=
  ∀ c tail, rest = c :: tail → c.isDigit = false ∧ c ≠ '.' ∧ c ≠ 'e' ∧ c ≠ 'E'

lemma ends_nil : Ends [] := fun _ _ h => absurd h.symm (List.cons_ne_nil _ _)

lemma ends_cons {c : Char} (h : c.isDigit = false ∧ c ≠ '.' ∧ c ≠ 'e' ∧ c ≠ 'E')
    (rest : List Char) : Ends (c :: rest) := by
  intro d tail hd
  rwa [← (List.cons.inj hd).1]

/-- A literal that is read to its end, whatever ends it. -/
structure IsLiteral (literal : List Char) : Prop where
  head : ∃ c tail, literal = c :: tail ∧ (c = '-' ∨ c.isDigit = true)
  read : ∀ rest, Ends rest → number (literal ++ rest) = some (.number literal, rest)

/-- The values whose numbers have proper literals. -/
inductive WellFormed : Value → Prop
  | null : WellFormed .null
  | bool (b : Bool) : WellFormed (.bool b)
  | number {literal : List Char} (h : IsLiteral literal) : WellFormed (.number literal)
  | string (text : List Char) : WellFormed (.string text)
  | array {elements : List Value} (h : ∀ e ∈ elements, WellFormed e) : WellFormed (.array elements)
  | object {members : List (List Char × Value)} (h : ∀ m ∈ members, WellFormed m.2) :
      WellFormed (.object members)

/-- The first character of a number begins nothing else. -/
lemma number_head {c : Char} (h : c = '-' ∨ c.isDigit = true) :
    isSpace c = false ∧ c ≠ quoteMark ∧ c ≠ '[' ∧ c ≠ ']' ∧ c.toNat ≠ 0x7B ∧ c ≠ 'n' ∧ c ≠ 't' ∧
      c ≠ 'f' := by
  have hrange : c.toNat = 45 ∨ (48 ≤ c.toNat ∧ c.toNat ≤ 57) := by
    rcases h with rfl | h
    · exact .inl rfl
    · rw [Char.isDigit, Bool.and_eq_true, decide_eq_true_eq, decide_eq_true_eq] at h
      exact .inr ⟨UInt32.le_iff_toNat_le.mp h.1, UInt32.le_iff_toNat_le.mp h.2⟩
  have hne : ∀ d : Char, d.toNat ≠ 45 → d.toNat < 48 ∨ 57 < d.toNat → c ≠ d := by
    rintro d hminus hdigit rfl
    omega
  refine ⟨?_, hne _ (by decide) (by decide), hne _ (by decide) (by decide),
    hne _ (by decide) (by decide), by omega, hne _ (by decide) (by decide),
    hne _ (by decide) (by decide), hne _ (by decide) (by decide)⟩
  have hblank : c ≠ ' ' := hne _ (by decide) (by decide)
  have h9 : c.toNat ≠ 0x09 := by omega
  have hA : c.toNat ≠ 0x0A := by omega
  have hD : c.toNat ≠ 0x0D := by omega
  simp only [isSpace, hblank, h9, hA, hD, decide_false, Bool.or_false]

/-- The text of a value starts with a character that is neither white space nor the end of an
array. -/
lemma WellFormed.stringify_head {v : Value} (h : WellFormed v) :
    ∃ c tail, stringify v = c :: tail ∧ isSpace c = false ∧ c ≠ ']' := by
  cases h with
  | null => exact ⟨'n', "ull".toList, by rw [stringify]; rfl, by decide, by decide⟩
  | bool b =>
    rw [stringify]
    rcases b with _ | _
    · exact ⟨'f', "alse".toList, rfl, by decide, by decide⟩
    · exact ⟨'t', "rue".toList, rfl, by decide, by decide⟩
  | number h =>
    obtain ⟨c, tail, rfl, hc⟩ := h.head
    obtain ⟨hspace, -, -, hend, -⟩ := number_head hc
    exact ⟨c, tail, by rw [stringify], hspace, hend⟩
  | string text => exact ⟨quoteMark, _, by rw [stringify, quote], by decide, by decide⟩
  | array h => exact ⟨'[', _, by rw [stringify], by decide, by decide⟩
  | object h => exact ⟨Char.ofNat 0x7B, _, by rw [stringify], by decide, by decide⟩

/-- The text of a value, and what follows it, are told apart. -/
def ReadsBack (v : Value) : Prop :=
  ∀ fuel rest, (stringify v).length < fuel → Ends rest →
    value fuel (stringify v ++ rest) = some (v, rest)

/-- A word or a number is read when nothing else begins in the same way. -/
lemma value_word {fuel : Nat} {c : Char} {tail : List Char} (hspace : isSpace c = false)
    (hquote : c ≠ quoteMark) (harray : c ≠ '[') (hobject : c.toNat ≠ 0x7B) :
    value (fuel + 1) (c :: tail) = word (c :: tail) := by
  rw [value, skip_cons hspace]
  simp only [if_neg hquote, if_neg harray, if_neg hobject]

/-- The characters that end an element, a member or a text. -/
lemma ends_punctuation (rest : List Char) :
    Ends (',' :: rest) ∧ Ends (']' :: rest) ∧ Ends (Char.ofNat 0x7D :: rest) :=
  ⟨ends_cons (by decide) rest, ends_cons (by decide) rest, ends_cons (by decide) rest⟩

lemma readsBack_number {literal : List Char} (h : IsLiteral literal) :
    ReadsBack (.number literal) := by
  intro fuel rest hfuel hrest
  obtain ⟨fuel, rfl⟩ := Nat.exists_eq_add_of_lt (Nat.lt_of_le_of_lt (Nat.zero_le _) hfuel)
  obtain ⟨c, tail, hliteral, hc⟩ := h.head
  obtain ⟨hspace, hquote, harray, -, hobject, hn, ht, hf⟩ := number_head hc
  have hread := h.read rest hrest
  rw [stringify]
  rw [hliteral, List.cons_append] at hread ⊢
  rw [Nat.zero_add, value_word hspace hquote harray hobject, word, ← hread]
  have hprefix : ∀ (d : Char) (word tail : List Char), c ≠ d →
      (d :: word).isPrefixOf (c :: tail) = false := by
    intro d word tail hne
    rw [List.isPrefixOf_cons_cons]
    simp [Ne.symm hne]
  rw [show "null".toList = 'n' :: "ull".toList from rfl,
    show "true".toList = 't' :: "rue".toList from rfl,
    show "false".toList = 'f' :: "alse".toList from rfl, hprefix _ _ _ hn, hprefix _ _ _ ht,
    hprefix _ _ _ hf]
  rfl

lemma stringifyElements_cons (e e' : Value) (es : List Value) :
    stringifyElements (e :: e' :: es) = stringify e ++ ',' :: stringifyElements (e' :: es) := by
  rw [stringifyElements]
  exact List.cons_ne_nil _ _

lemma stringifyMembers_cons (key : List Char) (v : Value) (m : List Char × Value)
    (ms : List (List Char × Value)) : stringifyMembers ((key, v) :: m :: ms) =
      quote key ++ ':' :: (stringify v ++ ',' :: stringifyMembers (m :: ms)) := by
  rw [stringifyMembers]
  exact List.cons_ne_nil _ _

/-- The elements of an array are read one after the other. -/
lemma elements_stringify {e : Value} {es : List Value}
    (hback : ∀ v ∈ e :: es, ReadsBack v) (fuel : Nat) (rest : List Char)
    (hfuel : (stringifyElements (e :: es)).length + 1 < fuel) :
    elements fuel (stringifyElements (e :: es) ++ ']' :: rest) = some (e :: es, rest) := by
  have hclose : isSpace ']' = false := by decide
  have hcomma : isSpace ',' = false := by decide
  induction es generalizing e fuel with
  | nil =>
    obtain ⟨fuel, rfl⟩ := Nat.exists_eq_add_of_lt hfuel
    rw [stringifyElements] at hfuel ⊢
    have hread := hback e List.mem_cons_self ((stringify e).length + 1 + fuel) (']' :: rest)
      (by omega) (ends_punctuation rest).2.1
    rw [elements, hread]
    dsimp only
    rw [skip_cons hclose]
    rfl
  | cons e' es ih =>
    obtain ⟨fuel, rfl⟩ := Nat.exists_eq_add_of_lt hfuel
    have hlength : (stringifyElements (e :: e' :: es)).length =
        (stringify e).length + (stringifyElements (e' :: es)).length + 1 := by
      rw [stringifyElements_cons, List.length_append, List.length_cons]
      omega
    rw [hlength] at hfuel ⊢
    have hread := hback e List.mem_cons_self
      ((stringify e).length + (stringifyElements (e' :: es)).length + 1 + 1 + fuel)
      (',' :: (stringifyElements (e' :: es) ++ ']' :: rest)) (by omega) (ends_punctuation _).1
    rw [stringifyElements_cons, List.append_assoc, List.cons_append, elements, hread]
    dsimp only
    rw [skip_cons hcomma]
    dsimp only
    rw [if_pos rfl, ih
      (fun v hv => hback v (List.mem_cons_of_mem e hv)) _ (by omega)]
    rfl

/-- The members of an object are read one after the other. -/
lemma members_stringify {m : List Char × Value} {ms : List (List Char × Value)}
    (hback : ∀ m' ∈ m :: ms, ReadsBack m'.2) (fuel : Nat) (rest : List Char)
    (hfuel : (stringifyMembers (m :: ms)).length + 1 < fuel) :
    members fuel (stringifyMembers (m :: ms) ++ Char.ofNat 0x7D :: rest) =
      some (m :: ms, rest) := by
  have hmark : isSpace quoteMark = false := by decide
  have hcolon : isSpace ':' = false := by decide
  have hclose : isSpace (Char.ofNat 0x7D) = false := by decide
  have hcomma : isSpace ',' = false := by decide
  have hne : Char.ofNat 0x7D ≠ ',' := by decide
  have hcode : (Char.ofNat 0x7D).toNat = 0x7D := by decide
  induction ms generalizing m fuel with
  | nil =>
    obtain ⟨key, v⟩ := m
    obtain ⟨fuel, rfl⟩ := Nat.exists_eq_add_of_lt hfuel
    have htext : stringifyMembers [(key, v)] = quote key ++ ':' :: stringify v := by
      rw [stringifyMembers]
    have hlength : (stringifyMembers [(key, v)]).length =
        (quote key).length + (stringify v).length + 1 := by
      rw [htext, List.length_append, List.length_cons]
      omega
    rw [hlength] at hfuel ⊢
    have hv : ReadsBack v := hback (key, v) List.mem_cons_self
    have hread := hv ((quote key).length + (stringify v).length + 1 + 1 + fuel)
      (Char.ofNat 0x7D :: rest) (by omega) (ends_punctuation rest).2.2
    rw [htext, List.append_assoc, List.cons_append, quote_append, members, skip_cons hmark]
    simp only [ne_eq, not_true_eq_false, if_false, stringBody_quoted, skip_cons hcolon, hread,
      skip_cons hclose, if_neg hne, if_pos hcode, fromUnits_map]
  | cons m' ms ih =>
    obtain ⟨key, v⟩ := m
    obtain ⟨fuel, rfl⟩ := Nat.exists_eq_add_of_lt hfuel
    have hlength : (stringifyMembers ((key, v) :: m' :: ms)).length =
        (quote key).length + (stringify v).length + (stringifyMembers (m' :: ms)).length + 2 := by
      rw [stringifyMembers_cons, List.length_append, List.length_cons, List.length_append,
        List.length_cons]
      omega
    rw [hlength] at hfuel ⊢
    have hv : ReadsBack v := hback (key, v) List.mem_cons_self
    have hread := hv ((quote key).length + (stringify v).length +
        (stringifyMembers (m' :: ms)).length + 2 + 1 + fuel)
      (',' :: (stringifyMembers (m' :: ms) ++ Char.ofNat 0x7D :: rest)) (by omega)
      (ends_punctuation _).1
    rw [stringifyMembers_cons, List.append_assoc, List.cons_append, List.append_assoc,
      List.cons_append, quote_append, members, skip_cons hmark]
    simp only [ne_eq, not_true_eq_false, if_false, stringBody_quoted, skip_cons hcolon, hread,
      skip_cons hcomma, if_true, fromUnits_map]
    rw [ih (fun v hv => hback v (List.mem_cons_of_mem _ hv)) _ (by omega)]
    rfl

lemma readsBack_bool (b : Bool) : ReadsBack (.bool b) := by
  intro fuel rest hfuel _
  obtain ⟨fuel, rfl⟩ := Nat.exists_eq_add_of_lt (Nat.lt_of_le_of_lt (Nat.zero_le _) hfuel)
  rw [stringify, Nat.zero_add]
  rcases b with _ | _
  · exact @value_word fuel 'f' ("alse".toList ++ rest) (by decide) (by decide) (by decide)
      (by decide)
  · exact @value_word fuel 't' ("rue".toList ++ rest) (by decide) (by decide) (by decide)
      (by decide)

lemma readsBack_array {es : List Value} (hformed : ∀ v ∈ es, WellFormed v)
    (hback : ∀ v ∈ es, ReadsBack v) : ReadsBack (.array es) := by
  intro fuel rest hfuel _
  obtain ⟨fuel, rfl⟩ := Nat.exists_eq_add_of_lt (Nat.lt_of_le_of_lt (Nat.zero_le _) hfuel)
  have hopen : isSpace '[' = false := by decide
  have hmark : '[' ≠ quoteMark := by decide
  rw [stringify] at hfuel ⊢
  rw [List.cons_append, List.append_assoc, Nat.zero_add, value, skip_cons hopen]
  simp only [if_neg hmark, if_true]
  cases es with
  | nil => rfl
  | cons e es =>
    have hread := elements_stringify hback fuel rest (by
      rw [List.length_cons, List.length_append, List.length_singleton] at hfuel
      omega)
    obtain ⟨c, tail, htext, hspace, hend⟩ : ∃ c tail, stringifyElements (e :: es) ++ ']' :: rest =
        c :: tail ∧ isSpace c = false ∧ c ≠ ']' := by
      obtain ⟨c, tail, hhead, hc⟩ := (hformed e List.mem_cons_self).stringify_head
      cases es with
      | nil => exact ⟨c, _, by rw [stringifyElements, hhead]; rfl, hc⟩
      | cons e' es => exact ⟨c, _, by rw [stringifyElements_cons, hhead]; rfl, hc⟩
    rw [List.singleton_append]
    rw [htext] at hread ⊢
    rw [skip_cons hspace]
    split
    next hhead => exact absurd (List.cons.inj hhead).1 hend
    next =>
      rw [hread]
      rfl

lemma readsBack_object {ms : List (List Char × Value)} (hback : ∀ m ∈ ms, ReadsBack m.2) :
    ReadsBack (.object ms) := by
  intro fuel rest hfuel _
  obtain ⟨fuel, rfl⟩ := Nat.exists_eq_add_of_lt (Nat.lt_of_le_of_lt (Nat.zero_le _) hfuel)
  have hopen : isSpace (Char.ofNat 0x7B) = false := by decide
  have hmark : Char.ofNat 0x7B ≠ quoteMark := by decide
  have hbracket : Char.ofNat 0x7B ≠ '[' := by decide
  have hcode : (Char.ofNat 0x7B).toNat = 0x7B := by decide
  rw [stringify] at hfuel ⊢
  rw [List.cons_append, List.append_assoc, Nat.zero_add, value, skip_cons hopen]
  simp only [if_neg hmark, if_neg hbracket, if_pos hcode]
  cases ms with
  | nil => rfl
  | cons m ms =>
    have hread := members_stringify hback fuel rest (by
      rw [List.length_cons, List.length_append, List.length_singleton] at hfuel
      omega)
    obtain ⟨tail, htext⟩ : ∃ tail, stringifyMembers (m :: ms) ++ Char.ofNat 0x7D :: rest =
        quoteMark :: tail := by
      obtain ⟨key, v⟩ := m
      cases ms with
      | nil => exact ⟨_, by rw [stringifyMembers, List.append_assoc]; exact quote_append key _⟩
      | cons m' ms =>
        exact ⟨_, by rw [stringifyMembers_cons, List.append_assoc]; exact quote_append key _⟩
    have hspace : isSpace quoteMark = false := by decide
    have hopening : quoteMark.toNat ≠ 0x7D := by decide
    rw [List.singleton_append]
    rw [htext] at hread ⊢
    simp only [skip_cons hspace, if_neg hopening, hread, Option.map_some]

/-- A value is read again as it was written. -/
lemma WellFormed.readsBack {v : Value} (h : WellFormed v) : ReadsBack v := by
  induction h with
  | null =>
    intro fuel rest hfuel _
    obtain ⟨fuel, rfl⟩ := Nat.exists_eq_add_of_lt (Nat.lt_of_le_of_lt (Nat.zero_le _) hfuel)
    rw [stringify, Nat.zero_add]
    exact @value_word fuel 'n' ("ull".toList ++ rest) (by decide) (by decide) (by decide)
      (by decide)
  | bool b => exact readsBack_bool b
  | number h => exact readsBack_number h
  | string text =>
    intro fuel rest hfuel _
    obtain ⟨fuel, rfl⟩ := Nat.exists_eq_add_of_lt (Nat.lt_of_le_of_lt (Nat.zero_le _) hfuel)
    rw [stringify, Nat.zero_add, value_quote]
  | array h ih => exact readsBack_array h ih
  | object _ ih => exact readsBack_object ih

/-- `JSON.parse` reads what `JSON.stringify` writes. -/
theorem parse_stringify {v : Value} (h : WellFormed v) : parse (stringify v) = some v := by
  have hread := h.readsBack ((stringify v).length + 1) [] (Nat.lt_succ_self _) ends_nil
  rw [List.append_nil] at hread
  rw [parse, hread]
  rfl

/-! ### Objects of strings -/

/-- The members of an object of strings. -/
def stringMembers (members : List (List Char × List Char)) : List (List Char × Value) :=
  members.map fun m => (m.1, .string m.2)

/-- An object of strings is read again as it was written. -/
theorem parse_stringify_strings (members : List (List Char × List Char)) :
    parse (stringify (.object (stringMembers members))) = some (.object (stringMembers members)) := by
  refine parse_stringify (.object fun m hm => ?_)
  obtain ⟨m', -, rfl⟩ := List.mem_map.mp hm
  exact .string m'.2

end JsonText

end Formats
