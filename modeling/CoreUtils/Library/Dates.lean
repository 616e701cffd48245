import Mathlib.Algebra.Ring.Nat
import Mathlib.Data.Int.Notation
import Mathlib.Tactic.Common

/-!
# Dates as milliseconds since the epoch

The part of the ECMAScript `Date` that programs here print: a date is a whole number of milliseconds
since 1970, or no number at all, and `toISOString` writes the proleptic Gregorian date in UTC.
-/

namespace CoreUtils.Dates

/-- A `Date`: its time value, which is missing for the invalid date. -/
abbrev Date := Option ℤ

/-- Milliseconds in a day. -/
def msPerDay : ℤ := 86400000

/-- The year, month and day of a day number counted from 1970. The calendar is cut into eras of 400
years that start in March, so that the leap day comes last. -/
def civilFromDays (days : ℤ) : ℤ × ℕ × ℕ :=
  let shifted := days + 719468
  let era := shifted / 146097
  let dayOfEra := (shifted % 146097).toNat
  let yearOfEra := (dayOfEra - dayOfEra / 1460 + dayOfEra / 36524 - dayOfEra / 146096) / 365
  let dayOfYear := dayOfEra - (365 * yearOfEra + yearOfEra / 4 - yearOfEra / 100)
  let monthFromMarch := (5 * dayOfYear + 2) / 153
  let day := dayOfYear - (153 * monthFromMarch + 2) / 5 + 1
  let month := if monthFromMarch < 10 then monthFromMarch + 3 else monthFromMarch - 9
  let year := (yearOfEra : ℤ) + era * 400 + if month ≤ 2 then 1 else 0
  (year, month, day)

/-- A number in decimal, filled up with zeros from the left. -/
def padded (width value : ℕ) : String :=
  let digits := toString value
  String.ofList (List.replicate (width - digits.length) '0') ++ digits

/-- A year as four digits, or as a sign and six digits outside 0..9999. -/
def isoYear (year : ℤ) : String :=
  if 0 ≤ year ∧ year ≤ 9999 then padded 4 year.toNat
  else (if year < 0 then "-" else "+") ++ padded 6 year.natAbs

/-- `Date.prototype.toISOString` of a valid date. -/
def isoString (ms : ℤ) : String :=
  let (year, month, day) := civilFromDays (ms / msPerDay)
  let time := (ms % msPerDay).toNat
  isoYear year ++ "-" ++ padded 2 month ++ "-" ++ padded 2 day ++ "T" ++
    padded 2 (time / 3600000) ++ ":" ++ padded 2 (time / 60000 % 60) ++ ":" ++
    padded 2 (time / 1000 % 60) ++ "." ++ padded 3 (time % 1000) ++ "Z"

/-- `Date.prototype.toISOString`; the invalid date throws the given `RangeError` message. -/
def toISOString : Date → Except String String
  | none => .error "Invalid time value"
  | some ms => .ok (isoString ms)

/-! ## The form of a printed date -/

/-- The greatest distance of a valid date from the epoch, in milliseconds. -/
def MAXIMUM_TIME : ℤ := 8640000000000000

/-- A text of a number of decimal digits. -/
def Digits (count : ℕ) (text : List Char) : Prop :=
  text.length = count ∧ ∀ c ∈ text, c.isDigit = true

/-- Four digits, or a sign and six. -/
inductive IsYear : List Char → Prop where
  | common {year : List Char} (h : Digits 4 year) : IsYear year
  | extended {sign : Char} {year : List Char} (hsign : sign = '+' ∨ sign = '-')
      (h : Digits 6 year) : IsYear (sign :: year)

/-- The canonical form of a date: year, month, day, and the time of day in UTC. -/
def IsCanonical (text : List Char) : Prop :=
  ∃ year month day hour minute second millisecond, IsYear year ∧ Digits 2 month ∧ Digits 2 day ∧
    Digits 2 hour ∧ Digits 2 minute ∧ Digits 2 second ∧ Digits 3 millisecond ∧
    text = year ++ '-' :: month ++ '-' :: day ++ 'T' :: hour ++ ':' :: minute ++ ':' :: second ++
      '.' :: millisecond ++ ['Z']

/-- A padded number has as many digits as it is wide. -/
theorem digits_padded {width value : ℕ} (hwidth : 0 < width) (h : value < 10 ^ width) :
    Digits width (padded width value).toList := by
  have hlength : (toString value).length ≤ width := by
    show value.repr.length ≤ width
    rw [← String.length_toList, Nat.toList_repr]
    exact (Nat.length_toDigits_le_iff (by decide) hwidth).mpr h
  have htext : (padded width value).toList =
      List.replicate (width - (toString value).length) '0' ++ Nat.toDigits 10 value := by
    rw [padded, String.toList_append, String.toList_ofList]
    exact congrArg _ Nat.toList_repr
  rw [htext]
  constructor
  · rw [List.length_append, List.length_replicate, ← Nat.toList_repr, String.length_toList]
    show width - (toString value).length + (toString value).length = width
    omega
  · intro c hc
    rcases List.mem_append.mp hc with hzero | hdigit
    · rw [List.eq_of_mem_replicate hzero]
      rfl
    · exact Nat.isDigit_of_mem_toDigits (by decide) (by decide) hdigit

/-- The year of a valid date. -/
theorem isYear_isoYear {year : ℤ} (h : year.natAbs < 1000000) : IsYear (isoYear year).toList := by
  unfold isoYear
  split
  · rename_i hcommon
    exact .common (digits_padded (by decide) (by omega))
  · rw [String.toList_append]
    split
    · exact .extended (.inr rfl) (digits_padded (by decide) h)
    · exact .extended (.inl rfl) (digits_padded (by decide) h)

/-- The parts of a valid date are not too large. -/
theorem civilFromDays_lt {days : ℤ} (h : -100000001 ≤ days ∧ days ≤ 100000000) :
    (civilFromDays days).1.natAbs < 1000000 ∧ (civilFromDays days).2.1 < 100 ∧
      (civilFromDays days).2.2 < 100 := by
  simp only [civilFromDays]
  have hera : ((days + 719468) % 146097).toNat < 146097 := by omega
  have hdays : (days + 719468) / 146097 * 400 ≤ 280000 ∧
      -280000 ≤ (days + 719468) / 146097 * 400 := by omega
  generalize ((days + 719468) % 146097).toNat = dayOfEra at hera
  generalize (days + 719468) / 146097 * 400 = eraYears at hdays
  have hyear : (dayOfEra - dayOfEra / 1460 + dayOfEra / 36524 - dayOfEra / 146096) / 365 ≤ 400 := by
    omega
  generalize hyearOfEra :
    (dayOfEra - dayOfEra / 1460 + dayOfEra / 36524 - dayOfEra / 146096) / 365 = yearOfEra at hyear
  have hday : dayOfEra - (365 * yearOfEra + yearOfEra / 4 - yearOfEra / 100) ≤ 500 := by omega
  generalize dayOfEra - (365 * yearOfEra + yearOfEra / 4 - yearOfEra / 100) = dayOfYear at hday
  refine ⟨?_, ?_, ?_⟩
  · split <;> split <;> omega
  · split <;> omega
  · omega

/-- A valid date is printed in the canonical form. -/
theorem isCanonical_isoString {ms : ℤ} (h : -MAXIMUM_TIME ≤ ms ∧ ms ≤ MAXIMUM_TIME) :
    IsCanonical (isoString ms).toList := by
  unfold MAXIMUM_TIME at h
  have hdays : -100000001 ≤ ms / msPerDay ∧ ms / msPerDay ≤ 100000000 := by
    unfold msPerDay
    omega
  obtain ⟨hyear, hmonth, hday⟩ := civilFromDays_lt hdays
  have htime : (ms % msPerDay).toNat < 86400000 := by
    unfold msPerDay
    omega
  generalize htimeOf : (ms % msPerDay).toNat = time at htime
  have htext : (isoString ms).toList = (isoYear (civilFromDays (ms / msPerDay)).1).toList ++
      '-' :: (padded 2 (civilFromDays (ms / msPerDay)).2.1).toList ++
      '-' :: (padded 2 (civilFromDays (ms / msPerDay)).2.2).toList ++
      'T' :: (padded 2 (time / 3600000)).toList ++ ':' :: (padded 2 (time / 60000 % 60)).toList ++
      ':' :: (padded 2 (time / 1000 % 60)).toList ++ '.' :: (padded 3 (time % 1000)).toList ++
      ['Z'] := by
    simp only [isoString, htimeOf, String.toList_append]
    simp
  rw [htext]
  exact ⟨_, _, _, _, _, _, _, isYear_isoYear hyear, digits_padded (by decide) hmonth,
    digits_padded (by decide) hday, digits_padded (by decide) (by omega),
    digits_padded (by decide) (by omega), digits_padded (by decide) (by omega),
    digits_padded (by decide) (by omega), rfl⟩

end CoreUtils.Dates
