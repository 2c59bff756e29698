import PeerLedger.Formats.JsonText
import Mathlib.Tactic.IntervalCases
import Mathlib.Tactic.Ring

/-!
# Times as text

A time is a number of milliseconds since the beginning of 1970, and a day is a number of days since
then.  `toISOString` writes a time as `Date.prototype.toISOString` does, and `parse` reads what it
writes (`parse_toISOString`).  The calendar is that of ECMAScript: the year of a day is the last one
that has begun by then.
-/

namespace Formats

namespace IsoDate

/-! ### The calendar -/

/-- The first day of a year. -/
def dayFromYear (y : Int) : Int :=
  365 * (y - 1970) + (y - 1969) / 4 - (y - 1901) / 100 + (y - 1601) / 400

/-- The number of leap days of a year. -/
def leapDays (y : Int) : Int :=
  if y % 400 = 0 then 1 else if y % 100 = 0 then 0 else if y % 4 = 0 then 1 else 0

/-- The year of a day. -/
def yearFromDay (day : Int) : Int :=
  let y := 1970 + 400 * day / 146097
  if day < dayFromYear y then y - 1
  else if dayFromYear (y + 1) ≤ day then y + 1
  else y

/-- The first day of a month in a year with `leap` leap days; January is `1`. -/
def monthStart (leap : Int) : Nat → Int
  | 1 => 0
  | 2 => 31
  | 3 => 59 + leap
  | 4 => 90 + leap
  | 5 => 120 + leap
  | 6 => 151 + leap
  | 7 => 181 + leap
  | 8 => 212 + leap
  | 9 => 243 + leap
  | 10 => 273 + leap
  | 11 => 304 + leap
  | _ => 334 + leap

/-- The month of a day of a year: the last of the months from `m` down that has begun by then. -/
def monthUpTo (leap day : Int) : Nat → Nat
  | m + 2 => if monthStart leap (m + 2) ≤ day then m + 2 else monthUpTo leap day (m + 1)
  | _ => 1

/-- The month of a day of a year. -/
def monthFromDay (leap day : Int) : Nat := monthUpTo leap day 12

/-- A year has the days of its leap years. -/
lemma dayFromYear_succ (y : Int) : dayFromYear (y + 1) = dayFromYear y + 365 + leapDays y := by
  unfold dayFromYear leapDays
  split_ifs <;> omega

/-- The year of a day has begun by then, and the next one has not. -/
lemma yearFromDay_spec (day : Int) :
    dayFromYear (yearFromDay day) ≤ day ∧ day < dayFromYear (yearFromDay day + 1) := by
  unfold yearFromDay
  dsimp only
  split_ifs with hbefore hafter
  · refine ⟨?_, by simpa using hbefore⟩
    unfold dayFromYear
    omega
  · refine ⟨hafter, ?_⟩
    unfold dayFromYear
    omega
  · omega

lemma leapDays_cases (y : Int) : leapDays y = 0 ∨ leapDays y = 1 := by
  unfold leapDays
  split_ifs <;> simp

/-- The month that is found has begun, and it is the last one or the next one has not begun. -/
lemma monthUpTo_spec {leap day : Int} (h : 0 ≤ day) (m : Nat) :
    1 ≤ monthUpTo leap day (m + 1) ∧ monthUpTo leap day (m + 1) ≤ m + 1 ∧
      monthStart leap (monthUpTo leap day (m + 1)) ≤ day ∧
      (monthUpTo leap day (m + 1) = m + 1 ∨
        day < monthStart leap (monthUpTo leap day (m + 1) + 1)) := by
  induction m with
  | zero => exact ⟨Nat.le_refl 1, Nat.le_refl 1, h, .inl rfl⟩
  | succ m ih =>
    rw [monthUpTo]
    split_ifs with hbegun
    · exact ⟨by omega, Nat.le_refl _, hbegun, .inl rfl⟩
    · obtain ⟨hone, hle, hstart, hnext⟩ := ih
      refine ⟨hone, by omega, hstart, .inr ?_⟩
      rcases hnext with heq | hlt
      · rw [heq]
        exact not_le.mp hbegun
      · exact hlt

/-- A month has at most 31 days. -/
lemma monthStart_succ {leap : Int} (hleap : leap = 0 ∨ leap = 1) {m : Nat} (h : 1 ≤ m)
    (hm : m < 12) : monthStart leap (m + 1) ≤ monthStart leap m + 31 := by
  interval_cases m <;> simp only [monthStart] <;> omega

/-- A day of a year is one of the first 31 days of its month. -/
lemma monthFromDay_spec {leap day : Int} (hleap : leap = 0 ∨ leap = 1) (h : 0 ≤ day)
    (hday : day < 365 + leap) :
    1 ≤ monthFromDay leap day ∧ monthFromDay leap day ≤ 12 ∧
      monthStart leap (monthFromDay leap day) ≤ day ∧
      day < monthStart leap (monthFromDay leap day) + 31 := by
  obtain ⟨hone, hle, hstart, hnext⟩ : 1 ≤ monthUpTo leap day 12 ∧ monthUpTo leap day 12 ≤ 12 ∧
      monthStart leap (monthUpTo leap day 12) ≤ day ∧ (monthUpTo leap day 12 = 12 ∨
        day < monthStart leap (monthUpTo leap day 12 + 1)) := monthUpTo_spec h 11
  unfold monthFromDay
  refine ⟨hone, hle, hstart, ?_⟩
  rcases Nat.lt_or_ge (monthUpTo leap day 12) 12 with hlt | hge
  · have hspan := monthStart_succ hleap hone hlt
    rcases hnext with heq | hnext
    · omega
    · omega
  · have heq : monthUpTo leap day 12 = 12 := by omega
    rw [heq]
    change day < 334 + leap + 31
    omega

/-! ### Digits -/

/-- A decimal digit. -/
def digit (n : Nat) : Char := Char.ofNat (48 + n)

/-- The last `width` decimal digits of a number. -/
def digits : Nat → Nat → List Char
  | 0, _ => []
  | width + 1, n => digit (n / 10 ^ width % 10) :: digits width n

/-- The number of the next `width` characters, which are digits, and the text after them. -/
def readDigits : Nat → List Char → Option (Nat × List Char)
  | 0, text => some (0, text)
  | _ + 1, [] => none
  | width + 1, c :: text =>
    if c.isDigit then
      (readDigits width text).map fun p => ((c.toNat - 48) * 10 ^ width + p.1, p.2)
    else none

lemma digit_spec {n : Nat} (h : n < 10) : (digit n).isDigit = true ∧ (digit n).toNat - 48 = n := by
  have hall : ∀ n < 10, (digit n).isDigit = true ∧ (digit n).toNat - 48 = n := by decide
  exact hall n h

lemma readDigits_mod (width n : Nat) (rest : List Char) :
    readDigits width (digits width n ++ rest) = some (n % 10 ^ width, rest) := by
  induction width with
  | zero => simp [digits, readDigits, Nat.mod_one]
  | succ width ih =>
    obtain ⟨hdigit, hvalue⟩ := digit_spec (Nat.mod_lt (n / 10 ^ width) (by decide : 0 < 10))
    rw [digits, List.cons_append, readDigits, if_pos hdigit, ih, hvalue, Option.map_some,
      Nat.mod_pow_succ]
    congr 2
    rw [Nat.mul_comm, Nat.add_comm]

/-- Digits are read again as they were written. -/
lemma readDigits_digits {width n : Nat} (h : n < 10 ^ width) (rest : List Char) :
    readDigits width (digits width n ++ rest) = some (n, rest) := by
  rw [readDigits_mod, Nat.mod_eq_of_lt h]

/-! ### Text -/

/-- A year: four digits, or a sign and six digits. -/
def yearText (y : Int) : List Char :=
  if 0 ≤ y ∧ y ≤ 9999 then digits 4 y.toNat
  else if 0 < y then '+' :: digits 6 y.toNat
  else '-' :: digits 6 (-y).toNat

def readYear : List Char → Option (Int × List Char)
  | '+' :: text => (readDigits 6 text).map fun p => ((p.1 : Int), p.2)
  | '-' :: text =>
    (readDigits 6 text).bind fun p => if p.1 = 0 then none else some (-(p.1 : Int), p.2)
  | text => (readDigits 4 text).map fun p => ((p.1 : Int), p.2)

/-- The text after a character. -/
def expect (c : Char) : List Char → Option (List Char)
  | d :: text => if d = c then some text else none
  | [] => none

def millisPerDay : Int := 86400000

/-- The times that a `Date` can have. -/
def maxTime : Int := 8640000000000000

/-- A day: its year, its month and the day of the month. -/
def dayText (day : Int) : List Char :=
  let y := yearFromDay day
  let m := monthFromDay (leapDays y) (day - dayFromYear y)
  yearText y ++ '-' :: (digits 2 m ++ '-' ::
    digits 2 (day - dayFromYear y - monthStart (leapDays y) m + 1).toNat)

/-- A time of day. -/
def clockText (ms : Nat) : List Char :=
  digits 2 (ms / 3600000) ++ ':' :: (digits 2 (ms / 60000 % 60) ++ ':' ::
    (digits 2 (ms / 1000 % 60) ++ '.' :: digits 3 (ms % 1000)))

/-- `Date.prototype.toISOString`. -/
def toISOString (time : Int) : List Char :=
  dayText (time / millisPerDay) ++ 'T' :: (clockText (time % millisPerDay).toNat ++ ['Z'])

/-- A day, and the text after it.  Every month can have 31 days, as for the engine. -/
def readDay (text : List Char) : Option (Int × List Char) := do
  let (y, text) ← readYear text
  let text ← expect '-' text
  let (m, text) ← readDigits 2 text
  let text ← expect '-' text
  let (d, text) ← readDigits 2 text
  if 1 ≤ m ∧ m ≤ 12 ∧ 1 ≤ d ∧ d ≤ 31 then
    some (dayFromYear y + monthStart (leapDays y) m + (d : Int) - 1, text)
  else none

/-- A time of day, and the text after it. -/
def readClock (text : List Char) : Option (Nat × List Char) := do
  let (hour, text) ← readDigits 2 text
  let text ← expect ':' text
  let (minute, text) ← readDigits 2 text
  let text ← expect ':' text
  let (second, text) ← readDigits 2 text
  let text ← expect '.' text
  let (ms, text) ← readDigits 3 text
  if minute < 60 ∧ second < 60 ∧
      (hour < 24 ∨ hour = 24 ∧ minute = 0 ∧ second = 0 ∧ ms = 0) then
    some (hour * 3600000 + minute * 60000 + second * 1000 + ms, text)
  else none

/-- The time of a text of the form that `toISOString` writes. -/
def parse (text : List Char) : Option Int := do
  let (day, text) ← readDay text
  let text ← expect 'T' text
  let (ms, text) ← readClock text
  let text ← expect 'Z' text
  let time := day * millisPerDay + ms
  if text.isEmpty ∧ -maxTime ≤ time ∧ time ≤ maxTime then some time else none

/-! ### Times are read again -/

lemma expect_cons (c : Char) (text : List Char) : expect c (c :: text) = some text := by
  simp [expect]

/-- A year without a sign has four digits. -/
lemma readYear_digit {c : Char} (h : c.isDigit = true) (text : List Char) :
    readYear (c :: text) = (readDigits 4 (c :: text)).map fun p => ((p.1 : Int), p.2) := by
  unfold readYear
  split
  · next heq =>
    obtain ⟨rfl, -⟩ := List.cons.inj heq
    exact absurd h (by decide)
  · next heq =>
    obtain ⟨rfl, -⟩ := List.cons.inj heq
    exact absurd h (by decide)
  · rfl

/-- A year is read again. -/
lemma readYear_yearText {y : Int} (h : -999999 ≤ y ∧ y ≤ 999999) (rest : List Char) :
    readYear (yearText y ++ rest) = some (y, rest) := by
  unfold yearText
  split_ifs with hshort hpos
  · have hlt : y.toNat < 10 ^ 4 := by omega
    have hread := readDigits_digits hlt rest
    have hcast : (y.toNat : Int) = y := by omega
    have hdigit := (digit_spec (Nat.mod_lt (y.toNat / 10 ^ 3) (by decide : 0 < 10))).1
    rw [digits, List.cons_append] at hread ⊢
    rw [readYear_digit hdigit, hread, Option.map_some, hcast]
  · have hlt : y.toNat < 10 ^ 6 := by omega
    have hread := readDigits_digits hlt rest
    have hcast : (y.toNat : Int) = y := by omega
    rw [List.cons_append, readYear, hread, Option.map_some, hcast]
  · have hlt : (-y).toNat < 10 ^ 6 := by omega
    have hread := readDigits_digits hlt rest
    have hne : (-y).toNat ≠ 0 := by omega
    have hcast : -((-y).toNat : Int) = y := by omega
    rw [List.cons_append, readYear, hread, Option.bind_some, if_neg hne, hcast]

/-- A day is read again. -/
lemma readDay_dayText {day : Int} (h : -100000000 ≤ day ∧ day ≤ 100000000) (rest : List Char) :
    readDay (dayText day ++ rest) = some (day, rest) := by
  unfold dayText
  dsimp only
  obtain ⟨hbegun, hnext⟩ := yearFromDay_spec day
  generalize yearFromDay day = y at hbegun hnext ⊢
  rw [dayFromYear_succ] at hnext
  have hyear : -999999 ≤ y ∧ y ≤ 999999 := by
    unfold dayFromYear at hbegun hnext
    have hleap := leapDays_cases y
    omega
  obtain ⟨hone, htwelve, hstart, hend⟩ := monthFromDay_spec (leapDays_cases y)
    (show 0 ≤ day - dayFromYear y by omega) (by omega)
  generalize monthFromDay (leapDays y) (day - dayFromYear y) = m at hone htwelve hstart hend ⊢
  obtain ⟨d, hd⟩ : ∃ d : Nat, (d : Int) = day - dayFromYear y - monthStart (leapDays y) m + 1 :=
    ⟨_, Int.toNat_of_nonneg (by omega)⟩
  have hm : m < 10 ^ 2 := by omega
  have hd_lt : d < 10 ^ 2 := by omega
  have hvalid : 1 ≤ m ∧ m ≤ 12 ∧ 1 ≤ d ∧ d ≤ 31 := by omega
  have hday : dayFromYear y + monthStart (leapDays y) m + (d : Int) - 1 = day := by omega
  rw [← hd, Int.toNat_natCast, List.append_assoc, readDay, readYear_yearText hyear]
  simp only [List.cons_append, List.append_assoc, Option.bind_eq_bind, Option.bind_some,
    expect_cons, readDigits_digits hm, readDigits_digits hd_lt, if_pos hvalid, hday]

/-- A time of day is read again. -/
lemma readClock_clockText {ms : Nat} (h : ms < 86400000) (rest : List Char) :
    readClock (clockText ms ++ rest) = some (ms, rest) := by
  have hhour : ms / 3600000 < 10 ^ 2 := by omega
  have hminute : ms / 60000 % 60 < 10 ^ 2 := by omega
  have hsecond : ms / 1000 % 60 < 10 ^ 2 := by omega
  have hmilli : ms % 1000 < 10 ^ 3 := by omega
  have hvalid : ms / 60000 % 60 < 60 ∧ ms / 1000 % 60 < 60 ∧ (ms / 3600000 < 24 ∨
      ms / 3600000 = 24 ∧ ms / 60000 % 60 = 0 ∧ ms / 1000 % 60 = 0 ∧ ms % 1000 = 0) := by omega
  have hclock : ms / 3600000 * 3600000 + ms / 60000 % 60 * 60000 + ms / 1000 % 60 * 1000 +
      ms % 1000 = ms := by omega
  rw [clockText, readClock, List.append_assoc, readDigits_digits hhour]
  simp only [List.cons_append, List.append_assoc, Option.bind_eq_bind, Option.bind_some,
    expect_cons, readDigits_digits hminute, readDigits_digits hsecond, readDigits_digits hmilli,
    if_pos hvalid, hclock]

/-- Every time of a `Date` is read again as it was written. -/
theorem parse_toISOString {time : Int} (h : -maxTime ≤ time ∧ time ≤ maxTime) :
    parse (toISOString time) = some time := by
  have hday : -100000000 ≤ time / millisPerDay ∧ time / millisPerDay ≤ 100000000 := by
    unfold millisPerDay
    unfold maxTime at h
    omega
  have hms : (time % millisPerDay).toNat < 86400000 := by
    unfold millisPerDay
    omega
  have htime : time / millisPerDay * millisPerDay + ((time % millisPerDay).toNat : Int) = time := by
    unfold millisPerDay
    omega
  rw [toISOString, parse, readDay_dayText hday]
  simp only [Option.bind_eq_bind, Option.bind_some, expect_cons, readClock_clockText hms, htime,
    List.isEmpty_nil, true_and, if_pos h]

end IsoDate

end Formats
