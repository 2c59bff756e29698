import PeerLedger.Formats.JsonWebToken

/-!
# Times of the internet

`isDateTime` is the form `date-time` of RFC 3339: a year of four digits, and a day that its month has.
What `toISOString` writes has the form if and only if the year has four digits
(`isDateTime_toISOString`).
-/

namespace Formats

namespace IsoDate

/-- The number of days of a month in a year with `leap` leap days. -/
def daysInMonth (leap : Int) (m : Nat) : Int :=
  if m = 12 then 31 else monthStart leap (m + 1) - monthStart leap m

/-- The text after a day: `full-date`. -/
def afterDate (text : List Char) : Option (List Char) := do
  let (y, text) ← readDigits 4 text
  let text ← expect '-' text
  let (m, text) ← readDigits 2 text
  let text ← expect '-' text
  let (d, text) ← readDigits 2 text
  if 1 ≤ m ∧ m ≤ 12 ∧ 1 ≤ d ∧ (d : Int) ≤ daysInMonth (leapDays y) m then some text else none

/-- The text after a fraction of a second, if there is one. -/
def afterFraction : List Char → Option (List Char)
  | '.' :: c :: text => if c.isDigit then some (text.dropWhile Char.isDigit) else none
  | ['.'] => none
  | text => some text

/-- The text after a time of day: `partial-time`.  A second can be a leap second. -/
def afterTime (text : List Char) : Option (List Char) := do
  let (hour, text) ← readDigits 2 text
  let text ← expect ':' text
  let (minute, text) ← readDigits 2 text
  let text ← expect ':' text
  let (second, text) ← readDigits 2 text
  if hour < 24 ∧ minute < 60 ∧ second ≤ 60 then afterFraction text else none

/-- A distance from universal time: `time-offset`. -/
def isOffset : List Char → Bool
  | [] => false
  | [c] => c = 'Z' || c = 'z'
  | sign :: text =>
    (sign = '+' || sign = '-') &&
      match readDigits 2 text with
      | some (hour, ':' :: text) =>
        match readDigits 2 text with
        | some (minute, []) => hour < 24 && minute < 60
        | _ => false
      | _ => false

/-- `date-time`. -/
def isDateTime (text : List Char) : Bool :=
  match afterDate text with
  | some (c :: text) => (c = 'T' || c = 't') && (afterTime text).any isOffset
  | _ => false

/-- The year of a time. -/
def yearOf (time : Int) : Int := yearFromDay (time / millisPerDay)

/-! ### What `toISOString` writes -/

lemma daysInMonth_spec {leap day : Int} (h : 0 ≤ day) (hday : day < 365 + leap) :
    day - monthStart leap (monthFromDay leap day) + 1 ≤
      daysInMonth leap (monthFromDay leap day) := by
  obtain ⟨-, -, -, hnext⟩ : 1 ≤ monthUpTo leap day 12 ∧ monthUpTo leap day 12 ≤ 12 ∧
      monthStart leap (monthUpTo leap day 12) ≤ day ∧ (monthUpTo leap day 12 = 12 ∨
        day < monthStart leap (monthUpTo leap day 12 + 1)) := monthUpTo_spec h 11
  unfold monthFromDay daysInMonth
  split_ifs with htwelve
  · rw [htwelve]
    change day - (334 + leap) + 1 ≤ 31
    omega
  · have hlt := hnext.resolve_left htwelve
    omega

/-- A day of a year of four digits is written as a `full-date`. -/
lemma afterDate_dayText {day : Int} (h : 0 ≤ yearFromDay day ∧ yearFromDay day ≤ 9999)
    (rest : List Char) : afterDate (dayText day ++ rest) = some rest := by
  unfold dayText
  dsimp only
  obtain ⟨hbegun, hnext⟩ := yearFromDay_spec day
  generalize yearFromDay day = y at h hbegun hnext ⊢
  rw [dayFromYear_succ] at hnext
  have hlow : 0 ≤ day - dayFromYear y := by omega
  have hhigh : day - dayFromYear y < 365 + leapDays y := by omega
  obtain ⟨hone, htwelve, hstart, hend⟩ := monthFromDay_spec (leapDays_cases y) hlow hhigh
  have hdays := daysInMonth_spec hlow hhigh
  generalize monthFromDay (leapDays y) (day - dayFromYear y) = m at hone htwelve hstart hend hdays ⊢
  obtain ⟨d, hd⟩ : ∃ d : Nat, (d : Int) = day - dayFromYear y - monthStart (leapDays y) m + 1 :=
    ⟨_, Int.toNat_of_nonneg (by omega)⟩
  have hy : y.toNat < 10 ^ 4 := by omega
  have hm : m < 10 ^ 2 := by omega
  have hd_lt : d < 10 ^ 2 := by omega
  have hcast : ((y.toNat : Nat) : Int) = y := by omega
  have hvalid : 1 ≤ m ∧ m ≤ 12 ∧ 1 ≤ d ∧ (d : Int) ≤ daysInMonth (leapDays y) m := by omega
  rw [← hd, Int.toNat_natCast, List.append_assoc, afterDate, yearText, if_pos h,
    readDigits_digits hy]
  simp only [List.cons_append, List.append_assoc, Option.bind_eq_bind, Option.bind_some,
    expect_cons, readDigits_digits hm, readDigits_digits hd_lt, hcast, if_pos hvalid]

/-- A day of another year is not. -/
lemma afterDate_dayText_signed {day : Int} (h : ¬ (0 ≤ yearFromDay day ∧ yearFromDay day ≤ 9999))
    (rest : List Char) : afterDate (dayText day ++ rest) = none := by
  have hsign : ∀ c text, c.isDigit = false → afterDate (c :: text) = none := by
    intro c text hc
    have hread : readDigits 4 (c :: text) = none := by
      rw [readDigits, hc]
      rfl
    rw [afterDate, hread]
    rfl
  unfold dayText yearText
  dsimp only
  rw [if_neg h]
  split_ifs
  · exact hsign '+' _ rfl
  · exact hsign '-' _ rfl

/-- The milliseconds are a fraction of a second. -/
lemma afterFraction_digits {ms : Nat} (rest : List Char) (hrest : rest.head?.all (!·.isDigit)) :
    afterFraction ('.' :: (digits 3 ms ++ rest)) = some rest := by
  have hdigit : ∀ n, (digit (n % 10)).isDigit = true := fun n =>
    (digit_spec (Nat.mod_lt n (by decide))).1
  have hdrop : rest.dropWhile Char.isDigit = rest := by
    cases rest with
    | nil => rfl
    | cons c rest =>
      refine List.dropWhile_cons_of_neg ?_
      simpa using hrest
  simp only [digits, List.cons_append, List.nil_append, afterFraction, hdigit, if_true,
    List.dropWhile_cons, hdrop]

/-- A time of day is written as a `partial-time`. -/
lemma afterTime_clockText {ms : Nat} (h : ms < 86400000) :
    afterTime (clockText ms ++ ['Z']) = some ['Z'] := by
  have hhour : ms / 3600000 < 10 ^ 2 := by omega
  have hminute : ms / 60000 % 60 < 10 ^ 2 := by omega
  have hsecond : ms / 1000 % 60 < 10 ^ 2 := by omega
  have hvalid : ms / 3600000 < 24 ∧ ms / 60000 % 60 < 60 ∧ ms / 1000 % 60 ≤ 60 := by omega
  rw [clockText, afterTime, List.append_assoc, readDigits_digits hhour]
  simp only [List.cons_append, List.append_assoc, Option.bind_eq_bind, Option.bind_some,
    expect_cons, readDigits_digits hminute, readDigits_digits hsecond, if_pos hvalid]
  exact afterFraction_digits _ rfl

/-- The text of a time is a `date-time` if and only if the year has four digits. -/
theorem isDateTime_toISOString (time : Int) :
    isDateTime (toISOString time) = true ↔ 0 ≤ yearOf time ∧ yearOf time ≤ 9999 := by
  unfold isDateTime toISOString yearOf
  have hms : (time % millisPerDay).toNat < 86400000 := by
    unfold millisPerDay
    omega
  by_cases hyear : 0 ≤ yearFromDay (time / millisPerDay) ∧ yearFromDay (time / millisPerDay) ≤ 9999
  · rw [afterDate_dayText hyear]
    dsimp only
    rw [afterTime_clockText hms]
    exact iff_of_true rfl hyear
  · rw [afterDate_dayText_signed hyear]
    exact iff_of_false Bool.false_ne_true hyear

end IsoDate

end Formats
