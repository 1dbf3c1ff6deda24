import Metering.Time.Text

/-!
# Dates and day numbers

Every day has a date of the calendar, and the number of that date is the day
(`isValid_ofDayNumber`, `dayNumber_ofDayNumber`). The arithmetic is that of a day
in an era: dividing it by the lengths of leap cycles gives a year of which the
day is one of at most 366, and the 366th only in a leap year (`dayOfYear_spec`).
-/

namespace Metering

namespace Date

/-! ## A day in an era -/

/-- The year of the era that a day of it falls in, where years start in March. -/
def yearOfEra (dayOfEra : Int) : Int :=
  (dayOfEra - dayOfEra / 1460 + dayOfEra / 36524 - dayOfEra / 146096) / 365

/-- The day of the year that a day of an era is, from zero. -/
def dayOfYear (dayOfEra : Int) : Int :=
  dayOfEra - (365 * yearOfEra dayOfEra + yearOfEra dayOfEra / 4 - yearOfEra dayOfEra / 100)

/-- The number of days in the whole centuries before a year is found by the leap days. -/
theorem century_eq {dayOfEra : Int} (nonneg : 0 ≤ dayOfEra) (less : dayOfEra < 146096) :
    dayOfEra / 36524 = yearOfEra dayOfEra / 100 := by
  have few : dayOfEra / 36524 = 0 ∨ dayOfEra / 36524 = 1 ∨ dayOfEra / 36524 = 2 ∨
      dayOfEra / 36524 = 3 := by omega
  unfold yearOfEra
  rcases few with none | one | two | three <;> omega

/-- A day of an era falls in one of four hundred years of at most 366 days. The last of 366 days is
the end of a February in a leap year. -/
theorem dayOfYear_spec {dayOfEra : Int} (nonneg : 0 ≤ dayOfEra) (less : dayOfEra < daysPerEra) :
    (0 ≤ yearOfEra dayOfEra ∧ yearOfEra dayOfEra ≤ 399) ∧
      (0 ≤ dayOfYear dayOfEra ∧ dayOfYear dayOfEra ≤ 365) ∧
      (dayOfYear dayOfEra = 365 → isLeapYear (yearOfEra dayOfEra + 1)) := by
  unfold daysPerEra at less
  have years : 0 ≤ yearOfEra dayOfEra ∧ yearOfEra dayOfEra ≤ 399 := by
    unfold yearOfEra
    omega
  refine ⟨years, ?_⟩
  rcases Int.lt_or_eq_of_le (Int.le_of_lt_add_one less : dayOfEra ≤ 146096) with inside | last
  · have century := century_eq nonneg inside
    have divided : 365 * yearOfEra dayOfEra ≤ dayOfEra - dayOfEra / 1460 + dayOfEra / 36524 ∧
        dayOfEra - dayOfEra / 1460 + dayOfEra / 36524 ≤ 365 * yearOfEra dayOfEra + 364 := by
      unfold yearOfEra
      omega
    unfold dayOfYear isLeapYear
    rw [← century]
    generalize yearOfEra dayOfEra = year at *
    -- A day is as many leap cycles in as its year, or one more at the end of a leap year.
    have cycles : year / 4 ≤ dayOfEra / 1460 := by omega
    have ahead : dayOfEra / 1460 ≤ year / 4 + 1 := by omega
    refine ⟨by omega, fun long => ?_⟩
    have extra : dayOfEra / 1460 = year / 4 + 1 := by omega
    have ends : year = 4 * (year / 4) + 3 := by omega
    have fourth : (year + 1) % 4 = 0 := by omega
    have common : (year + 1) % 100 ≠ 0 := by
      intro round
      have last : year = 100 * (dayOfEra / 36524) + 99 := by omega
      omega
    simp [fourth, common]
  · subst last
    decide

/-! ## A day of a year -/

/-- The month, counted from March, that a day of a year falls in. -/
def monthFromMarch (dayOfYear : Int) : Int := (5 * dayOfYear + 2) / 153

/-- A day of a year falls in one of twelve months, and on a day of that month. -/
theorem monthFromMarch_spec {dayOfYear : Int} (nonneg : 0 ≤ dayOfYear) (le : dayOfYear ≤ 365) :
    (0 ≤ monthFromMarch dayOfYear ∧ monthFromMarch dayOfYear ≤ 11) ∧
      0 ≤ dayOfYear - (153 * monthFromMarch dayOfYear + 2) / 5 := by
  unfold monthFromMarch
  omega

/-- The date of a day of a year in an era, where years start in March. -/
def ofYearDay (era year dayOfYear : Int) : Date :=
  let month := monthFromMarch dayOfYear
  let day := (dayOfYear - (153 * month + 2) / 5 + 1).toNat
  if month < 10 then
    ⟨year + era * 400, (month + 3).toNat, day⟩
  else
    ⟨year + era * 400 + 1, (month - 9).toNat, day⟩

section YearDay

variable {era year ofYear : Int}

/-- The number of the date of a day of a year. -/
theorem dayNumber_ofYearDay (years : 0 ≤ year ∧ year ≤ 399) (days : 0 ≤ ofYear ∧ ofYear ≤ 365) :
    (ofYearDay era year ofYear).dayNumber =
      era * daysPerEra + (365 * year + year / 4 - year / 100) + ofYear - daysToEpoch := by
  obtain ⟨months, positive⟩ := monthFromMarch_spec days.1 days.2
  have whole : (year + era * 400) / 400 = era := by omega
  have rest : (year + era * 400) % 400 = year := by omega
  unfold ofYearDay dayNumber
  generalize monthFromMarch ofYear = month at *
  by_cases early : month < 10
  · have back : (((month + 3).toNat : Int) + 9) % 12 = month := by omega
    have late : ¬ (month + 3).toNat ≤ 2 := by omega
    simp only [if_pos early, if_neg late, back, whole, rest]
    omega
  · have back : (((month - 9).toNat : Int) + 9) % 12 = month := by omega
    have soon : (month - 9).toNat ≤ 2 := by omega
    simp only [if_neg early, if_pos soon, Int.add_sub_cancel, back, whole, rest]
    omega

/-- Leap years come back in every era. -/
theorem isLeapYear_add_era (year era : Int) : isLeapYear (year + era * 400) = isLeapYear year := by
  have fourth : (year + era * 400) % 4 = year % 4 := by omega
  have hundredth : (year + era * 400) % 100 = year % 100 := by omega
  have whole : (year + era * 400) % 400 = year % 400 := by omega
  unfold isLeapYear
  rw [fourth, hundredth, whole]

/-- A date is one of the calendar if its month is one of the twelve and its day one of the month. -/
theorem isValid_iff (date : Date) : date.isValid ↔
    (1 ≤ date.month ∧ date.month ≤ 12) ∧ 1 ≤ date.day ∧
      date.day ≤ daysInMonth date.year date.month := by
  simp [isValid, and_assoc]

/-- The date of a day of a year is one of the calendar, if only leap years have a last day of
February in their 366th. -/
theorem isValid_ofYearDay (days : 0 ≤ ofYear ∧ ofYear ≤ 365)
    (leap : ofYear = 365 → isLeapYear (year + 1)) : (ofYearDay era year ofYear).isValid := by
  obtain ⟨months, positive⟩ := monthFromMarch_spec days.1 days.2
  rw [isValid_iff]
  unfold ofYearDay
  by_cases early : monthFromMarch ofYear < 10
  · simp only [if_pos early]
    refine ⟨by omega, by omega, ?_⟩
    have apart : (monthFromMarch ofYear + 3).toNat ≠ 2 := by omega
    unfold daysInMonth
    unfold monthFromMarch at *
    rw [if_neg apart]
    split <;> omega
  · simp only [if_neg early]
    refine ⟨by omega, by omega, ?_⟩
    have shifted : year + era * 400 + 1 = year + 1 + era * 400 := by omega
    unfold daysInMonth
    rw [shifted, isLeapYear_add_era]
    unfold monthFromMarch at *
    split
    · -- The month is the last one of the year from March, so its end is that of the year.
      split
      · omega
      · rename_i common
        have short : ofYear ≠ 365 := fun long => common (leap long)
        omega
    · rw [if_neg (by omega)]
      omega

end YearDay

/-! ## Days and dates -/

/-- A day is a day of a year in an era, and its date is that of this day. -/
theorem exists_ofDayNumber_eq (number : Int) :
    ∃ era year ofYear : Int,
      number = era * daysPerEra + (365 * year + year / 4 - year / 100) + ofYear - daysToEpoch ∧
      (0 ≤ year ∧ year ≤ 399) ∧ (0 ≤ ofYear ∧ ofYear ≤ 365) ∧
      (ofYear = 365 → isLeapYear (year + 1)) ∧
      ofDayNumber number = ofYearDay era year ofYear := by
  have low : 0 ≤ (number + daysToEpoch) % daysPerEra := Int.emod_nonneg _ (by decide)
  have high : (number + daysToEpoch) % daysPerEra < daysPerEra := Int.emod_lt_of_pos _ (by decide)
  obtain ⟨years, days, leap⟩ := dayOfYear_spec low high
  obtain ⟨⟨first, last⟩, _⟩ := monthFromMarch_spec days.1 days.2
  refine ⟨(number + daysToEpoch) / daysPerEra, _, _, ?_, years, days, leap, ?_⟩
  · have split := Int.ediv_mul_add_emod (number + daysToEpoch) daysPerEra
    unfold dayOfYear
    omega
  · generalize same : dayOfYear ((number + daysToEpoch) % daysPerEra) = ofYear at *
    unfold dayOfYear yearOfEra at same
    unfold ofDayNumber ofYearDay
    simp only [same]
    change (⟨if (if monthFromMarch ofYear < 10 then _ else _) ≤ (2 : Int) then _ else _,
      Int.toNat (if monthFromMarch ofYear < 10 then _ else _), _⟩ : Date) = _
    split
    · rw [if_neg (by omega)]
      rfl
    · rw [if_pos (by omega)]
      rfl

/-- The number of the date of a day is the day. -/
theorem dayNumber_ofDayNumber (number : Int) : (ofDayNumber number).dayNumber = number := by
  obtain ⟨era, year, ofYear, split, years, days, _, same⟩ := exists_ofDayNumber_eq number
  rw [same, dayNumber_ofYearDay years days, split]

/-- The date of a day is one of the calendar. -/
theorem isValid_ofDayNumber (number : Int) : (ofDayNumber number).isValid := by
  obtain ⟨era, year, ofYear, _, _, days, leap, same⟩ := exists_ofDayNumber_eq number
  rw [same]
  exact isValid_ofYearDay days leap

/-- The years of the days that instants fall on. -/
theorem year_ofDayNumber {number : Int} (low : -96465292 ≤ number) (high : number ≤ 95026236) :
    -262143 ≤ (ofDayNumber number).year ∧ (ofDayNumber number).year ≤ 262142 := by
  obtain ⟨era, year, ofYear, split, years, days, _, same⟩ := exists_ofDayNumber_eq number
  unfold daysPerEra daysToEpoch at split
  -- Only the first and the last era are not whole.
  have lowest : era = -656 ∨ -655 ≤ era := by omega
  have highest : era = 655 ∨ era ≤ 654 := by omega
  rw [same]
  unfold ofYearDay monthFromMarch
  by_cases early : (5 * ofYear + 2) / 153 < 10
  · simp only [if_pos early]
    constructor
    · rcases lowest with rfl | later <;> omega
    · rcases highest with rfl | earlier <;> omega
  · simp only [if_neg early]
    constructor
    · rcases lowest with rfl | later <;> omega
    · rcases highest with rfl | earlier <;> omega

end Date

end Metering
