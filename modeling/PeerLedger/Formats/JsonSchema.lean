import PeerLedger.Formats.DateTime
import Mathlib.Computability.RegularExpressions
import Mathlib.Data.Rat.Lemmas

/-!
# JSON schemas

The keywords of JSON Schema (draft 2020-12) over any type of JSON values.  A schema is given by what it
accepts, and each keyword constrains the values of its own type only.  A pattern is a regular
expression for the whole text, of classes of characters (`oneOf`).  A document is a schema under its
`"$id"`, against which the references in it are resolved to the ids of other documents.
-/

namespace Formats

namespace JsonSchema

/-- A JSON value with its direct parts. -/
inductive Shape (α : Type) where
  | null
  | bool (b : Bool)
  | number (n : ℚ)
  | string (text : List Char)
  | array (elements : List α)
  | object (members : List (String × α))

/-- A type of JSON values. -/
class Node (α : Type) where
  shape : α → Shape α

export Node (shape)

/-- A schema, by the values that it accepts. -/
abbrev Schema (α : Type) := α → Bool

/-- The names of `type`. -/
inductive TypeName where
  | null
  | boolean
  | integer
  | number
  | string
  | array
  | object

section Keywords

variable {α : Type} [Node α]

/-- The values of a type. -/
def TypeName.admits : TypeName → Shape α → Bool
  | .null, .null => true
  | .boolean, .bool _ => true
  | .integer, .number n => n.den = 1
  | .number, .number _ => true
  | .string, .string _ => true
  | .array, .array _ => true
  | .object, .object _ => true
  | _, _ => false

/-- `"type"`. -/
def type (names : List TypeName) : Schema α := fun v => names.any fun name => name.admits (shape v)

/-- `"const"` of a text. -/
def constText (text : String) : Schema α := fun v =>
  match shape v with
  | .string s => s = text.toList
  | _ => false

/-- `"const"` of a number. -/
def constNumber (number : ℚ) : Schema α := fun v =>
  match shape v with
  | .number n => n = number
  | _ => false

/-- `"minimum"`. -/
def minimum (bound : ℚ) : Schema α := fun v =>
  match shape v with
  | .number n => bound ≤ n
  | _ => true

/-- A condition on texts. -/
def onText (holds : List Char → Bool) : Schema α := fun v =>
  match shape v with
  | .string s => holds s
  | _ => true

/-- `"minLength"`. -/
def minLength (bound : ℕ) : Schema α := onText fun s => bound ≤ s.length

/-- `"maxLength"`. -/
def maxLength (bound : ℕ) : Schema α := onText fun s => s.length ≤ bound

/-- `"pattern"` of an expression for the whole text. -/
def pattern (expression : RegularExpression Char) : Schema α := onText expression.rmatch

/-- `"required"`. -/
def required (names : List String) : Schema α := fun v =>
  match shape v with
  | .object members => names.all fun name => (members.lookup name).isSome
  | _ => true

/-- `"properties"`. -/
def properties (schemas : List (String × Schema α)) : Schema α := fun v =>
  match shape v with
  | .object members => schemas.all fun p => (members.lookup p.1).all p.2
  | _ => true

/-- `"additionalProperties": false` next to properties with these names. -/
def noAdditional (names : List String) : Schema α := fun v =>
  match shape v with
  | .object members => members.all fun m => m.1 ∈ names
  | _ => true

/-- `"allOf"`, and the conjunction of the keywords of a schema. -/
def allOf (schemas : List (Schema α)) : Schema α := fun v => schemas.all fun schema => schema v

end Keywords

/-! ### Documents -/

/-- A part of the schema of a document: `"$ref"`, or keywords without references. -/
inductive Part (α : Type) where
  | ref (reference : String)
  | keywords (schema : Schema α)

/-- A schema document: its `"$id"` and the parts whose conjunction its schema is. -/
structure Document (α : Type) where
  id : String
  parts : List (Part α)

/-- The parts of a URI between its slashes. -/
def uriSegments (uri : String) : List (List Char) := uri.toList.splitOn '/'

/-- A segment of a relative reference after the segments before it. -/
def addSegment (path : List (List Char)) (segment : List Char) : List (List Char) :=
  if segment = ['.'] then path
  else if segment = ['.', '.'] then path.dropLast
  else path ++ [segment]

/-- The URI of a relative path against a base URI: the path takes the place of the base's last
segment. -/
def resolveReference (base reference : String) : String :=
  String.ofList (['/'].intercalate
    ((uriSegments reference).foldl addSegment (uriSegments base).dropLast))

namespace Document

variable {α : Type}

/-- The schema of a document whose references name documents among these ones, as those that they
name do in turn; `depth` bounds how far references lead. -/
def resolve (documents : List (Document α)) : ℕ → Document α → Option (Schema α)
  | 0, _ => none
  | depth + 1, document => do
    let schemas ← document.parts.mapM fun
      | .keywords schema => some schema
      | .ref reference => do
        let target ← documents.find? fun d => d.id = resolveReference document.id reference
        target.resolve documents depth
    return allOf schemas

variable {documents : List (Document α)} {depth : ℕ} {id reference : String} {schema : Schema α}

/-- A document without references. -/
lemma resolve_keywords : resolve documents (depth + 1) ⟨id, [.keywords schema]⟩ =
    some (allOf [schema]) := rfl

/-- A reference resolves as the document does that it names. -/
lemma resolve_ref {target : Document α} {resolved : Schema α}
    (hfind : documents.find? (fun d => d.id = resolveReference id reference) = some target)
    (htarget : target.resolve documents depth = some resolved) :
    resolve documents (depth + 1) ⟨id, [.ref reference, .keywords schema]⟩ =
      some (allOf [resolved, schema]) := by
  rw [resolve]
  simp [hfind, htarget]

/-- A reference that names no document does not resolve. -/
lemma resolve_ref_none
    (hfind : documents.find? (fun d => d.id = resolveReference id reference) = none) :
    resolve documents (depth + 1) ⟨id, [.ref reference, .keywords schema]⟩ = none := by
  rw [resolve]
  simp [hfind]

end Document

/-! ### Formats -/

/-- A hexadecimal digit of either case. -/
def isHexDigit (c : Char) : Bool :=
  c.isDigit || ('a' ≤ c && c ≤ 'f') || ('A' ≤ c && c ≤ 'F')

/-- The format `uuid`. -/
def isUuid (text : List Char) : Bool :=
  text.length = 36 ∧ text.zipIdx.all fun (c, index) =>
    if index ∈ [8, 13, 18, 23] then c = '-' else isHexDigit c

/-- `"format": "uuid"`. -/
def uuid {α : Type} [Node α] : Schema α := onText isUuid

/-- `"format": "date-time"`. -/
def dateTime {α : Type} [Node α] : Schema α := onText IsoDate.isDateTime

/-! ### Patterns -/

/-- The characters from one to another. -/
def charRange (first last : Char) : List Char :=
  (List.range (last.toNat + 1 - first.toNat)).map fun n => Char.ofNat (first.toNat + n)

/-- A class of characters. -/
def oneOf (chars : List Char) : RegularExpression Char :=
  chars.foldr (fun c expression => .char c + expression) 0

/-- A text. -/
def literal (text : String) : RegularExpression Char :=
  text.toList.foldr (fun c expression => .char c * expression) 1

/-- `+`. -/
def oneOrMore (expression : RegularExpression Char) : RegularExpression Char :=
  expression * expression.star

lemma mem_oneOf {chars : List Char} {text : List Char} :
    text ∈ (oneOf chars).matches' ↔ ∃ c ∈ chars, text = [c] := by
  induction chars with
  | nil =>
    rw [oneOf, List.foldr_nil, RegularExpression.matches'_zero]
    simp
  | cons c chars ih =>
    rw [oneOf, List.foldr_cons, RegularExpression.matches'_add, Language.mem_add]
    change text ∈ (RegularExpression.char c).matches' ∨ text ∈ (oneOf chars).matches' ↔ _
    rw [ih, RegularExpression.matches'_char]
    constructor
    · rintro (rfl | ⟨d, hd, rfl⟩)
      · exact ⟨c, List.mem_cons_self, rfl⟩
      · exact ⟨d, List.mem_cons_of_mem c hd, rfl⟩
    · rintro ⟨d, hd, rfl⟩
      rcases List.mem_cons.mp hd with rfl | hd
      · exact .inl rfl
      · exact .inr ⟨d, hd, rfl⟩

/-- Any number of characters of a class. -/
lemma mem_star_oneOf {chars text : List Char} :
    text ∈ (oneOf chars).star.matches' ↔ ∀ c ∈ text, c ∈ chars := by
  rw [RegularExpression.matches'_star, Language.mem_kstar]
  constructor
  · rintro ⟨parts, rfl, hparts⟩ c hc
    obtain ⟨part, hpart, hc⟩ := List.mem_flatten.mp hc
    obtain ⟨d, hd, rfl⟩ := mem_oneOf.mp (hparts part hpart)
    rwa [List.mem_singleton.mp hc]
  · intro hall
    refine ⟨text.map fun c => [c], ?_, fun part hpart => ?_⟩
    · rw [← List.flatMap_def, List.flatMap_singleton']
    · obtain ⟨c, hc, rfl⟩ := List.mem_map.mp hpart
      exact mem_oneOf.mpr ⟨c, hall c hc, rfl⟩

lemma mem_literal {text : String} {chars : List Char} :
    chars ∈ (literal text).matches' ↔ chars = text.toList := by
  unfold literal
  induction text.toList generalizing chars with
  | nil => rw [List.foldr_nil, RegularExpression.matches'_epsilon, Language.mem_one]
  | cons c rest ih =>
    rw [List.foldr_cons, RegularExpression.matches'_mul, RegularExpression.matches'_char,
      Language.mem_mul]
    constructor
    · rintro ⟨a, rfl, b, hb, rfl⟩
      rw [ih.mp hb]
      rfl
    · rintro rfl
      exact ⟨[c], rfl, rest, ih.mpr rfl, rfl⟩

lemma mem_charRange {first last c : Char} (hfirst : first.toNat ≤ c.toNat)
    (hlast : c.toNat ≤ last.toNat) : c ∈ charRange first last := by
  refine List.mem_map.mpr ⟨c.toNat - first.toNat, List.mem_range.mpr (by omega), ?_⟩
  rw [Nat.add_sub_cancel' hfirst, Char.ofNat_toNat]

/-- A number of characters of a class. -/
lemma mem_oneOf_pow {chars text : List Char} (h : ∀ c ∈ text, c ∈ chars) :
    text ∈ (oneOf chars ^ text.length).matches' := by
  rw [RegularExpression.matches'_pow]
  induction text with
  | nil => exact (Language.mem_one _).mpr rfl
  | cons c text ih =>
    rw [List.forall_mem_cons] at h
    rw [List.length_cons, pow_succ']
    exact Language.append_mem_mul (mem_oneOf.mpr ⟨c, h.1, rfl⟩) (ih h.2)

/-- A text whose parts match matches. -/
lemma rmatch_mul {P Q : RegularExpression Char} {a b : List Char} (ha : a ∈ P.matches')
    (hb : b ∈ Q.matches') : (P * Q).rmatch (a ++ b) = true := by
  rw [RegularExpression.rmatch_iff_matches', RegularExpression.matches'_mul]
  exact Language.append_mem_mul ha hb

/-- Characters of a class after a literal text. -/
lemma rmatch_literal_oneOrMore {text : String} {chars : List Char} {c : Char} {rest : List Char}
    (hc : c ∈ chars) (hrest : ∀ d ∈ rest, d ∈ chars) :
    (literal text * oneOrMore (oneOf chars)).rmatch (text.toList ++ c :: rest) = true := by
  refine rmatch_mul (mem_literal.mpr rfl) ?_
  rw [oneOrMore, RegularExpression.matches'_mul]
  exact Language.append_mem_mul (mem_oneOf.mpr ⟨c, hc, rfl⟩) (mem_star_oneOf.mpr hrest)

end JsonSchema

end Formats
