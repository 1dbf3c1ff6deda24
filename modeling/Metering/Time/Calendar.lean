/-!
# Calendar dates

Days are counted from 1970-01-01 in the proleptic Gregorian calendar. Counting
goes by eras of four centuries, each of which has the same number of days, and
by years that start in March, so that a leap day is the last day of its year.
-/

namespace Metering

/-- A date of the proleptic Gregorian calendar. -/
structure Date where
  /-- The year, where 0 is the year before 1. -/
  year : Int
  /-- The month, from 1 to 12. -/
  month : Nat
  /-- The day of the month, from 1. -/
  day : Nat
deriving DecidableEq, Repr

namespace Date

/-- Whether a year has a twenty-ninth of February. -/
def isLeapYear (year : Int) : Bool :=
  year % 4 == 0 && (year % 100 != 0 || year % 400 == 0)

/-- The number of days of a month. -/
def daysInMonth (year : Int) (month : Nat) : Nat :=
  if month = 2 then
    if isLeapYear year then 29 else 28
  else if month = 4 ∨ month = 6 ∨ month = 9 ∨ month = 11 then
    30
  else
    31

/-- Whether the calendar has this date. -/
def isValid (date : Date) : Bool :=
  1 ≤ date.month && date.month ≤ 12 && 1 ≤ date.day &&
    date.day ≤ daysInMonth date.year date.month

/-- Days in an era of four hundred years. -/
def daysPerEra : Int := 146097

/-- Days from the first of March of the year 0 to the start of 1970. -/
def daysToEpoch : Int := 719468

/-- The number of days from 1970-01-01 to a date. -/
def dayNumber (date : Date) : Int :=
  let year := if date.month ≤ 2 then date.year - 1 else date.year
  let era := year / 400
  let yearOfEra := year % 400
  let monthFromMarch : Int := (date.month + 9) % 12
  let dayOfYear := (153 * monthFromMarch + 2) / 5 + date.day - 1
  let dayOfEra := yearOfEra * 365 + yearOfEra / 4 - yearOfEra / 100 + dayOfYear
  era * daysPerEra + dayOfEra - daysToEpoch

/-- The date a number of days after 1970-01-01. -/
def ofDayNumber (number : Int) : Date :=
  let shifted := number + daysToEpoch
  let era := shifted / daysPerEra
  let dayOfEra := shifted % daysPerEra
  let yearOfEra := (dayOfEra - dayOfEra / 1460 + dayOfEra / 36524 - dayOfEra / 146096) / 365
  let dayOfYear := dayOfEra - (365 * yearOfEra + yearOfEra / 4 - yearOfEra / 100)
  let monthFromMarch := (5 * dayOfYear + 2) / 153
  let day := dayOfYear - (153 * monthFromMarch + 2) / 5 + 1
  let month := if monthFromMarch < 10 then monthFromMarch + 3 else monthFromMarch - 9
  let year := yearOfEra + era * 400
  ⟨if month ≤ 2 then year + 1 else year, month.toNat, day.toNat⟩

example : (Date.mk 1970 1 1).dayNumber = 0 := by decide
example : Date.ofDayNumber 19782 = ⟨2024, 2, 29⟩ := by decide
example : (Date.mk (-262143) 1 1).dayNumber = -96465292 := by decide

end Date

end Metering
