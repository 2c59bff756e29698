import Mathlib.Data.List.Basic
import Mathlib.Data.List.GetD
import Mathlib.Tactic.Common

/-!
# Text as bytes, and bytes as base64url

`Base64Url.encode` writes three bytes as four digits and leaves the padding out; `decode` takes the
digits of both alphabets and ignores every other character, as the buffers of Node do.  What was
encoded is decoded again (`decode_encode`), and the digits of a text whose length is a multiple of
three do not depend on what follows it (`encode_append`).

`Utf8.decode` puts a replacement character for every maximal part that is no UTF-8.
-/

namespace Formats

namespace Utf8

/-- The bytes of a text. -/
def encode (text : List Char) : List UInt8 := text.flatMap String.utf8EncodeChar

/-- A character that has been read in part: how many bytes are missing, the value of the bytes read,
and the range of the next byte. -/
structure Pending where
  needed : Nat
  point : Nat
  lower : Nat
  upper : Nat

/-- Between characters. -/
def Pending.none : Pending := { needed := 0, point := 0, lower := 0x80, upper := 0xBF }

/-- The replacement character. -/
def replacement : Char := Char.ofNat 0xFFFD

/-- The first byte of a character. -/
def lead (b : Nat) : List Char × Pending :=
  if b ≤ 0x7F then ([Char.ofNat b], .none)
  else if 0xC2 ≤ b ∧ b ≤ 0xDF then ([], { Pending.none with needed := 1, point := b - 0xC0 })
  else if 0xE0 ≤ b ∧ b ≤ 0xEF then
    ([], { needed := 2, point := b - 0xE0, lower := if b = 0xE0 then 0xA0 else 0x80,
           upper := if b = 0xED then 0x9F else 0xBF })
  else if 0xF0 ≤ b ∧ b ≤ 0xF4 then
    ([], { needed := 3, point := b - 0xF0, lower := if b = 0xF0 then 0x90 else 0x80,
           upper := if b = 0xF4 then 0x8F else 0xBF })
  else ([replacement], .none)

/-- The next byte: the characters that it ends, and what is read in part after it. -/
def step (s : Pending) (b : Nat) : List Char × Pending :=
  if s.needed = 0 then lead b
  else if s.lower ≤ b ∧ b ≤ s.upper then
    let point := s.point * 64 + (b - 0x80)
    if s.needed = 1 then ([Char.ofNat point], .none)
    else ([], { Pending.none with needed := s.needed - 1, point })
  else (replacement :: (lead b).1, (lead b).2)

/-- The text of the bytes that follow a part of a character. -/
def decodeFrom (s : Pending) : List UInt8 → List Char
  | [] => if s.needed = 0 then [] else [replacement]
  | b :: rest => (step s b.toNat).1 ++ decodeFrom (step s b.toNat).2 rest

/-- The text of some bytes. -/
def decode (bytes : List UInt8) : List Char := decodeFrom .none bytes

lemma encode_append (a b : List Char) : encode (a ++ b) = encode a ++ encode b :=
  List.flatMap_append

/-- A character is one byte at least. -/
lemma length_le_encode (text : List Char) : text.length ≤ (encode text).length := by
  unfold encode
  induction text with
  | nil => exact Nat.zero_le _
  | cons c text ih =>
    have hchar : 0 < (String.utf8EncodeChar c).length := by
      rw [String.length_utf8EncodeChar]
      exact c.utf8Size_pos
    rw [List.flatMap_cons, List.length_append, List.length_cons]
    omega

/-- A character below 128 is one byte. -/
lemma length_encode_ascii {text : List Char} (h : ∀ c ∈ text, c.toNat < 128) :
    (encode text).length = text.length := by
  unfold encode
  induction text with
  | nil => rfl
  | cons c text ih =>
    have hchar : String.utf8EncodeChar c = [UInt8.ofNat c.toNat] := by
      have hc := h c List.mem_cons_self
      unfold String.utf8EncodeChar
      exact if_pos (by change c.toNat ≤ 0x7F; omega)
    rw [List.flatMap_cons, List.length_append, ih fun c' hc' => h c' (List.mem_cons_of_mem c hc'),
      hchar, List.length_singleton, List.length_cons]
    omega

lemma toNat_ofNat {n : Nat} (h : n < 256) : (UInt8.ofNat n).toNat = n := by
  rw [UInt8.toNat_ofNat']
  omega

/-- A character is no surrogate. -/
lemma toNat_cases (c : Char) : c.toNat < 0xD800 ∨ 0xDFFF < c.toNat ∧ c.toNat < 0x110000 := c.valid

lemma utf8EncodeChar_eq (c : Char) : String.utf8EncodeChar c =
    if c.toNat ≤ 0x7F then [UInt8.ofNat c.toNat]
    else if c.toNat ≤ 0x7FF then
      [UInt8.ofNat (c.toNat / 64 % 0x20 + 0xC0), UInt8.ofNat (c.toNat % 0x40 + 0x80)]
    else if c.toNat ≤ 0xFFFF then
      [UInt8.ofNat (c.toNat / 4096 % 0x10 + 0xE0), UInt8.ofNat (c.toNat / 64 % 0x40 + 0x80),
        UInt8.ofNat (c.toNat % 0x40 + 0x80)]
    else
      [UInt8.ofNat (c.toNat / 262144 % 0x08 + 0xF0), UInt8.ofNat (c.toNat / 4096 % 0x40 + 0x80),
        UInt8.ofNat (c.toNat / 64 % 0x40 + 0x80), UInt8.ofNat (c.toNat % 0x40 + 0x80)] := rfl

/-- A byte that a character starts with. -/
lemma step_none (b : Nat) : step .none b = lead b := rfl

/-- The last byte of a character. -/
lemma step_last {p l u b : Nat} (hb : l ≤ b ∧ b ≤ u) :
    step ⟨1, p, l, u⟩ b = ([Char.ofNat (p * 64 + (b - 0x80))], .none) := by
  simp only [step, if_neg Nat.one_ne_zero, if_pos hb, if_true]

/-- A byte in the middle of a character. -/
lemma step_more {n p l u b : Nat} (hb : l ≤ b ∧ b ≤ u) :
    step ⟨n + 2, p, l, u⟩ b = ([], ⟨n + 1, p * 64 + (b - 0x80), 0x80, 0xBF⟩) := by
  have hmany : n + 2 ≠ 1 := by omega
  simp only [step, if_neg (Nat.succ_ne_zero (n + 1)), if_pos hb, if_neg hmany]
  rfl

/-- The first byte of two. -/
lemma lead_two {b : Nat} (h : 0xC2 ≤ b ∧ b ≤ 0xDF) : lead b = ([], ⟨1, b - 0xC0, 0x80, 0xBF⟩) := by
  rw [lead, if_neg (by omega), if_pos h]
  rfl

/-- The first byte of three. -/
lemma lead_three {b : Nat} (h : 0xE0 ≤ b ∧ b ≤ 0xEF) :
    lead b = ([], ⟨2, b - 0xE0, if b = 0xE0 then 0xA0 else 0x80,
      if b = 0xED then 0x9F else 0xBF⟩) := by
  rw [lead, if_neg (by omega), if_neg (by omega), if_pos h]

/-- The first byte of four. -/
lemma lead_four {b : Nat} (h : 0xF0 ≤ b ∧ b ≤ 0xF4) :
    lead b = ([], ⟨3, b - 0xF0, if b = 0xF0 then 0x90 else 0x80,
      if b = 0xF4 then 0x8F else 0xBF⟩) := by
  rw [lead, if_neg (by omega), if_neg (by omega), if_neg (by omega), if_pos h]

/-- The bytes of a character are read as the character. -/
lemma decodeFrom_char (c : Char) (rest : List UInt8) :
    decodeFrom .none (String.utf8EncodeChar c ++ rest) = c :: decodeFrom .none rest := by
  have hcases := toNat_cases c
  have hc : Char.ofNat c.toNat = c := Char.ofNat_toNat c
  rw [utf8EncodeChar_eq]
  generalize c.toNat = v at hcases hc
  split_ifs with h1 h2 h3
  · have hbyte : (UInt8.ofNat v).toNat = v := toNat_ofNat (by omega)
    have hlead : lead v = ([c], .none) := by rw [lead, if_pos h1, hc]
    rw [List.singleton_append, decodeFrom, hbyte, step_none, hlead]
    rfl
  · have h₁ : (UInt8.ofNat (v / 64 % 0x20 + 0xc0)).toNat = v / 64 + 0xC0 := by
      rw [toNat_ofNat (by omega)]
      omega
    have h₂ : (UInt8.ofNat (v % 0x40 + 0x80)).toNat = v % 64 + 0x80 := toNat_ofNat (by omega)
    have hlead := lead_two (b := v / 64 + 0xC0) (by omega)
    have hpoint : (v / 64 + 0xC0 - 0xC0) * 64 + (v % 64 + 0x80 - 0x80) = v := by omega
    simp only [List.cons_append, List.nil_append, decodeFrom, h₁, h₂, step_none, hlead]
    rw [step_last (by omega), hpoint, hc]
    rfl
  · have h₁ : (UInt8.ofNat (v / 4096 % 0x10 + 0xe0)).toNat = v / 4096 + 0xE0 := by
      rw [toNat_ofNat (by omega)]
      omega
    have h₂ : (UInt8.ofNat (v / 64 % 0x40 + 0x80)).toNat = v / 64 % 64 + 0x80 :=
      toNat_ofNat (by omega)
    have h₃ : (UInt8.ofNat (v % 0x40 + 0x80)).toNat = v % 64 + 0x80 := toNat_ofNat (by omega)
    have hlead := lead_three (b := v / 4096 + 0xE0) (by omega)
    have hsecond : (if v / 4096 + 0xE0 = 0xE0 then 0xA0 else 0x80) ≤ v / 64 % 64 + 0x80 ∧
        v / 64 % 64 + 0x80 ≤ if v / 4096 + 0xE0 = 0xED then 0x9F else 0xBF := by
      split_ifs <;> omega
    have hpoint : ((v / 4096 + 0xE0 - 0xE0) * 64 + (v / 64 % 64 + 0x80 - 0x80)) * 64 +
        (v % 64 + 0x80 - 0x80) = v := by omega
    simp only [List.cons_append, List.nil_append, decodeFrom, h₁, h₂, h₃, step_none, hlead]
    rw [step_more hsecond, step_last (by omega), hpoint, hc]
    rfl
  · have h₁ : (UInt8.ofNat (v / 262144 % 0x08 + 0xf0)).toNat = v / 262144 + 0xF0 := by
      rw [toNat_ofNat (by omega)]
      omega
    have h₂ : (UInt8.ofNat (v / 4096 % 0x40 + 0x80)).toNat = v / 4096 % 64 + 0x80 :=
      toNat_ofNat (by omega)
    have h₃ : (UInt8.ofNat (v / 64 % 0x40 + 0x80)).toNat = v / 64 % 64 + 0x80 :=
      toNat_ofNat (by omega)
    have h₄ : (UInt8.ofNat (v % 0x40 + 0x80)).toNat = v % 64 + 0x80 := toNat_ofNat (by omega)
    have hlead := lead_four (b := v / 262144 + 0xF0) (by omega)
    have hsecond : (if v / 262144 + 0xF0 = 0xF0 then 0x90 else 0x80) ≤ v / 4096 % 64 + 0x80 ∧
        v / 4096 % 64 + 0x80 ≤ if v / 262144 + 0xF0 = 0xF4 then 0x8F else 0xBF := by
      split_ifs <;> omega
    have hpoint : (((v / 262144 + 0xF0 - 0xF0) * 64 + (v / 4096 % 64 + 0x80 - 0x80)) * 64 +
        (v / 64 % 64 + 0x80 - 0x80)) * 64 + (v % 64 + 0x80 - 0x80) = v := by omega
    simp only [List.cons_append, List.nil_append, decodeFrom, h₁, h₂, h₃, h₄, step_none, hlead]
    rw [step_more hsecond, step_more (by omega), step_last (by omega), hpoint, hc]
    rfl

/-- A text is read again as it was written. -/
theorem decode_encode (text : List Char) : decode (encode text) = text := by
  induction text with
  | nil => rfl
  | cons c text ih =>
    unfold decode encode at ih ⊢
    rw [List.flatMap_cons, decodeFrom_char, ih]

end Utf8

namespace Base64Url

/-- The digits. -/
def alphabet : List Char :=
  "ABCDEFGHIJKLMNOPQRSTUVWXYZabcdefghijklmnopqrstuvwxyz0123456789-_".toList

/-- The digit of six bits. -/
def digit (n : Nat) : Char := alphabet.getD n 'A'

/-- The six bits of a digit, which may be one of plain base64. -/
def value (c : Char) : Option Nat :=
  if c = '+' then some 62 else if c = '/' then some 63 else alphabet.idxOf? c

/-- The digits of some bytes. -/
def encode : List UInt8 → List Char
  | a :: b :: c :: rest =>
    digit (a.toNat / 4) :: digit (a.toNat % 4 * 16 + b.toNat / 16) ::
      digit (b.toNat % 16 * 4 + c.toNat / 64) :: digit (c.toNat % 64) :: encode rest
  | [a, b] =>
    [digit (a.toNat / 4), digit (a.toNat % 4 * 16 + b.toNat / 16), digit (b.toNat % 16 * 4)]
  | [a] => [digit (a.toNat / 4), digit (a.toNat % 4 * 16)]
  | [] => []

/-- The bytes of some values of digits. -/
def toBytes : List Nat → List UInt8
  | p :: q :: r :: s :: rest =>
    UInt8.ofNat (p * 4 + q / 16) :: UInt8.ofNat (q % 16 * 16 + r / 4) ::
      UInt8.ofNat (r % 4 * 64 + s) :: toBytes rest
  | [p, q, r] => [UInt8.ofNat (p * 4 + q / 16), UInt8.ofNat (q % 16 * 16 + r / 4)]
  | [p, q] => [UInt8.ofNat (p * 4 + q / 16)]
  | _ => []

/-- The bytes of a text; characters that are no digits are ignored. -/
def decode (text : List Char) : List UInt8 := toBytes (text.filterMap value)

lemma value_digit {n : Nat} (h : n < 64) : value (digit n) = some n := by
  have hall : ∀ n < 64, value (digit n) = some n := by decide +kernel
  exact hall n h

lemma ofNat_eq {n : Nat} {b : UInt8} (h : n = b.toNat) : UInt8.ofNat n = b := by
  rw [h, UInt8.ofNat_toNat]

/-- What was encoded is decoded again. -/
theorem decode_encode (bytes : List UInt8) : decode (encode bytes) = bytes := by
  induction bytes using encode.induct with
  | case1 a b c rest ih =>
    have ha := a.toNat_lt
    have hb := b.toNat_lt
    have hc := c.toNat_lt
    have h₁ := value_digit (n := a.toNat / 4) (by omega)
    have h₂ := value_digit (n := a.toNat % 4 * 16 + b.toNat / 16) (by omega)
    have h₃ := value_digit (n := b.toNat % 16 * 4 + c.toNat / 64) (by omega)
    have h₄ := value_digit (n := c.toNat % 64) (by omega)
    unfold decode at ih ⊢
    simp only [encode, List.filterMap_cons, h₁, h₂, h₃, h₄, toBytes, ih]
    rw [ofNat_eq (b := a) (by omega), ofNat_eq (b := b) (by omega), ofNat_eq (b := c) (by omega)]
  | case2 a b =>
    have ha := a.toNat_lt
    have hb := b.toNat_lt
    have h₁ := value_digit (n := a.toNat / 4) (by omega)
    have h₂ := value_digit (n := a.toNat % 4 * 16 + b.toNat / 16) (by omega)
    have h₃ := value_digit (n := b.toNat % 16 * 4) (by omega)
    unfold decode
    simp only [encode, List.filterMap_cons, List.filterMap_nil, h₁, h₂, h₃, toBytes]
    rw [ofNat_eq (b := a) (by omega), ofNat_eq (b := b) (by omega)]
  | case3 a =>
    have ha := a.toNat_lt
    have h₁ := value_digit (n := a.toNat / 4) (by omega)
    have h₂ := value_digit (n := a.toNat % 4 * 16) (by omega)
    unfold decode
    simp only [encode, List.filterMap_cons, List.filterMap_nil, h₁, h₂, toBytes]
    rw [ofNat_eq (b := a) (by omega)]
  | case4 => rfl

/-- Three bytes at a time, the digits do not depend on what follows. -/
theorem encode_append {a : List UInt8} (h : a.length % 3 = 0) (b : List UInt8) :
    encode (a ++ b) = encode a ++ encode b := by
  induction a using encode.induct with
  | case1 x y z rest ih =>
    have hrest : rest.length % 3 = 0 := by
      simp only [List.length_cons] at h
      omega
    simp only [List.cons_append, encode, ih hrest]
  | case2 x y => simp at h
  | case3 x => simp at h
  | case4 => rfl

/-- Three bytes are four digits. -/
lemma length_encode {a : List UInt8} (h : a.length % 3 = 0) :
    (encode a).length = a.length / 3 * 4 := by
  induction a using encode.induct with
  | case1 x y z rest ih =>
    simp only [List.length_cons] at h
    simp only [encode, List.length_cons, ih (by omega)]
    omega
  | case2 x y => simp at h
  | case3 x => simp at h
  | case4 => rfl

/-- A digit is in the alphabet. -/
lemma digit_mem (n : ℕ) : digit n ∈ alphabet := by
  unfold digit
  rcases Nat.lt_or_ge n alphabet.length with hlt | hge
  · rw [List.getD_eq_getElem _ _ hlt]
    exact List.getElem_mem hlt
  · rw [List.getD_eq_default _ _ hge]
    decide

/-- The digits of some bytes are in the alphabet. -/
lemma mem_alphabet_of_mem_encode {bytes : List UInt8} {c : Char}
    (h : c ∈ encode bytes) : c ∈ alphabet := by
  induction bytes using encode.induct with
  | case1 a b d rest ih =>
    rw [encode] at h
    simp only [List.mem_cons] at h
    rcases h with rfl | rfl | rfl | rfl | h
    · exact digit_mem _
    · exact digit_mem _
    · exact digit_mem _
    · exact digit_mem _
    · exact ih h
  | case2 a b =>
    simp only [encode, List.mem_cons, List.not_mem_nil, or_false] at h
    rcases h with rfl | rfl | rfl <;> exact digit_mem _
  | case3 a =>
    simp only [encode, List.mem_cons, List.not_mem_nil, or_false] at h
    rcases h with rfl | rfl <;> exact digit_mem _
  | case4 => exact absurd h List.not_mem_nil

end Base64Url

end Formats
