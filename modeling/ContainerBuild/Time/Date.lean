namespace ContainerBuild

/-!
# The civil calendar

Dates of the Gregorian calendar, extended to all years, and their day numbers.  Day zero is
1970-01-01.

The arithmetic counts years from the first of March, so that the odd day of a leap year comes
last, and in eras of 400 years, all of which have the same number of days.
-/

/-- A date; the year 0 is the one before the year 1. -/
structure Date where
  year : Int
  month : Nat
  day : Nat
deriving DecidableEq

namespace Date

/-- Whether a year has a 29th of February. -/
def isLeapYear (year : Int) : Bool := year % 4 == 0 && (year % 100 != 0 || year % 400 == 0)

/-- The number of days of a month, zero if there is no such month. -/
def daysInMonth (year : Int) (month : Nat) : Nat :=
  if month = 2 then
    if isLeapYear year then 29 else 28
  else if month = 4 ∨ month = 6 ∨ month = 9 ∨ month = 11 then
    30
  else if 1 ≤ month ∧ month ≤ 12 then
    31
  else
    0

/-- Whether the calendar has a date. -/
def Exists (date : Date) : Prop := 1 ≤ date.day ∧ date.day ≤ daysInMonth date.year date.month

instance (date : Date) : Decidable date.Exists := by unfold Exists; infer_instance

/-- The days of an era of 400 years. -/
def daysPerEra : Int := 146097

/-- The day number of the first of March of the year 0, from 1970-01-01. -/
def epochOffset : Int := 719468

/-- Days from the first of March to the first of a month, months counted from March as zero. -/
def daysBeforeMonth (month : Int) : Int := (153 * month + 2) / 5

/-- The day number of a date. -/
def toDayNumber (date : Date) : Int :=
  let year := if date.month ≤ 2 then date.year - 1 else date.year
  let month : Int := if date.month ≤ 2 then date.month + 9 else date.month - 3
  let era := year / 400
  let yearOfEra := year % 400
  let dayOfYear := daysBeforeMonth month + date.day - 1
  era * daysPerEra + (yearOfEra * 365 + yearOfEra / 4 - yearOfEra / 100 + dayOfYear) - epochOffset

/-- The date of a day number. -/
def ofDayNumber (number : Int) : Date :=
  let era := (number + epochOffset) / daysPerEra
  let dayOfEra := (number + epochOffset) % daysPerEra
  let yearOfEra := (dayOfEra - dayOfEra / 1460 + dayOfEra / 36524 - dayOfEra / 146096) / 365
  let dayOfYear := dayOfEra - (yearOfEra * 365 + yearOfEra / 4 - yearOfEra / 100)
  let month := (5 * dayOfYear + 2) / 153
  let day := dayOfYear - daysBeforeMonth month + 1
  let year := era * 400 + yearOfEra
  if month < 10 then
    ⟨year, (month + 3).toNat, day.toNat⟩
  else
    ⟨year + 1, (month - 9).toNat, day.toNat⟩

end Date
end ContainerBuild
