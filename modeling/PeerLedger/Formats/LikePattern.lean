import Mathlib.Data.List.Basic

/-!
# Patterns of `LIKE`

The comparison of a text with a pattern as PostgreSQL makes it (`MatchText`): `%` stands for any text,
`_` for any character, and a backslash takes the next character literally.  A backslash at the end of
the pattern has nothing to take and is an error, which the comparison only notices when it gets there.
-/

namespace Formats

namespace LikePattern

/-- How a comparison ends. -/
inductive Outcome where
  | matched
  | differs
  /-- The text differs, and has become too short for the rest of the pattern: a later start of the
  search for what follows a `%` is of no use. -/
  | aborted
  /-- The comparison has reached a backslash at the end of the pattern. -/
  | invalid
deriving DecidableEq

/-- The search for a place in the text where `c` stands, followed by what `rest` matches. -/
def search (c : Char) (rest : List Char → Outcome) : List Char → Outcome
  | [] => .aborted
  | d :: text =>
    if d = c then
      match rest text with
      | .differs => search c rest text
      | outcome => outcome
    else search c rest text

/-- The comparison of a pattern with a text; `wild` after a `%`, as long as wildcards follow. -/
def compare : List Char → Bool → List Char → Outcome
  | [], wild, text => if wild || text.isEmpty then .matched else .differs
  | c :: pattern, false, [] => if (c :: pattern).all (· = '%') then .matched else .aborted
  | c :: pattern, false, d :: text =>
    if c = '%' then compare pattern true (d :: text)
    else if c = '_' then compare pattern false text
    else if c = '\\' then
      match pattern with
      | [] => .invalid
      | e :: pattern => if e = d then compare pattern false text else .differs
    else if c = d then compare pattern false text
    else .differs
  | c :: pattern, true, text =>
    if c = '%' then compare pattern true text
    else if c = '_' then
      match text with
      | [] => .aborted
      | _ :: text => compare pattern true text
    else if c = '\\' then
      match pattern with
      | [] => .invalid
      | e :: pattern => search e (compare pattern false) text
    else search c (compare pattern false) text

example : compare "a_n@%.com".toList false "ann@example.com".toList = .matched := by
  decide +kernel

example : compare "ann\\".toList false "anne".toList = .invalid := by
  decide +kernel

/-- A pattern without wildcards and backslashes. -/
def Plain (pattern : List Char) : Prop := ∀ c ∈ pattern, c ≠ '%' ∧ c ≠ '_' ∧ c ≠ '\\'

/-- Before a character that is no wildcard, the texts are compared character by character. -/
lemma compare_cons {c : Char} (h : c ≠ '%' ∧ c ≠ '_' ∧ c ≠ '\\') (d : Char)
    (pattern text : List Char) : compare (c :: pattern) false (d :: text) =
      if c = d then compare pattern false text else .differs := by
  cases pattern <;> simp [compare, h]

/-- A plain pattern matches itself only, and every comparison with it ends well. -/
lemma compare_plain {pattern text : List Char} (h : Plain pattern) :
    compare pattern false text ≠ .invalid ∧
      (compare pattern false text = .matched → text = pattern) := by
  induction pattern generalizing text with
  | nil => cases text <;> simp [compare]
  | cons c pattern ih =>
    have hc := h c List.mem_cons_self
    cases text with
    | nil => simp [compare, hc.1]
    | cons d text =>
      rw [compare_cons hc]
      obtain ⟨hvalid, hmatched⟩ := @ih text fun e he => h e (List.mem_cons_of_mem _ he)
      split_ifs with hcd
      · exact ⟨hvalid, fun htext => by rw [hcd, hmatched htext]⟩
      · simp

end LikePattern

end Formats
