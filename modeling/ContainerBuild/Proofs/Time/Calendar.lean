import ContainerBuild.Time.Date
import Mathlib.Tactic.IntervalCases

namespace ContainerBuild
namespace Date

/-!
# The calendar of day numbers

Every day number has a date, the date exists, and its day number is the one it came from.  The
year of a day of an era is found by taking the odd days of leap years out; that this is right
is seen by splitting the day into centuries, cycles of four years, years and days.
-/

/-- A day of an era, split up.  Years end with February, so only the last year of a cycle can
have a 366th day, and the last cycle of a century lacks it unless the century is the last. -/
structure Split (dayOfEra century cycle year dayOfYear : Int) : Prop where
  centuries : 0 ≤ century ∧ century ≤ 3
  cycles : 0 ≤ cycle ∧ cycle ≤ 24
  years : 0 ≤ year ∧ year ≤ 3
  days : 0 ≤ dayOfYear ∧ dayOfYear ≤ 365
  leap : dayOfYear = 365 → year = 3 ∧ (cycle = 24 → century = 3)
  total : dayOfEra = century * 36524 + cycle * 1461 + year * 365 + dayOfYear

theorem exists_split {dayOfEra : Int} (low : 0 ≤ dayOfEra) (high : dayOfEra < daysPerEra) :
    ∃ century cycle year dayOfYear, Split dayOfEra century cycle year dayOfYear := by
  unfold daysPerEra at high
  have centuries : ∃ century rest : Int, 0 ≤ century ∧ century ≤ 3 ∧ 0 ≤ rest ∧
      (rest < 36524 ∨ rest = 36524 ∧ century = 3) ∧ dayOfEra = century * 36524 + rest := by
    by_cases last : dayOfEra = 146096
    · exact ⟨3, 36524, by omega⟩
    · exact ⟨dayOfEra / 36524, dayOfEra % 36524, by omega⟩
  rcases centuries with ⟨century, dayOfCentury, _, _, _, _, rfl⟩
  have years : ∃ year rest : Int, 0 ≤ year ∧ year ≤ 3 ∧ 0 ≤ rest ∧
      (rest ≤ 364 ∨ rest = 365 ∧ year = 3) ∧ dayOfCentury % 1461 = year * 365 + rest := by
    by_cases last : dayOfCentury % 1461 = 1460
    · exact ⟨3, 365, by omega⟩
    · exact ⟨dayOfCentury % 1461 / 365, dayOfCentury % 1461 % 365, by omega⟩
  rcases years with ⟨year, dayOfYear, _, _, _, _, _⟩
  refine ⟨century, dayOfCentury / 1461, year, dayOfYear, ?_⟩
  constructor <;> omega

namespace Split

variable {dayOfEra century cycle year dayOfYear : Int}

/-- The last day of a cycle is the one that dividing by its other days gets wrong. -/
theorem div_cycle (split : Split dayOfEra century cycle year dayOfYear) :
    dayOfEra / 1460 = century * 25 + cycle ∧ dayOfYear ≤ 364 ∨
      dayOfEra / 1460 = century * 25 + cycle + 1 ∧ 1 ≤ dayOfYear := by
  rcases split with ⟨centuries, cycles, years, days, leap, total⟩
  by_cases last : dayOfYear = 365
  · have lastYear := (leap last).1
    omega
  · omega

theorem yearOfEra_eq (split : Split dayOfEra century cycle year dayOfYear) :
    (dayOfEra - dayOfEra / 1460 + dayOfEra / 36524 - dayOfEra / 146096) / 365 =
      century * 100 + cycle * 4 + year := by
  have quotients := split.div_cycle
  rcases split with ⟨centuries, cycles, years, days, leap, total⟩
  by_cases last : dayOfEra = 146096
  · subst last
    omega
  · have inCentury : dayOfEra / 36524 = century := by omega
    have inEra : dayOfEra / 146096 = 0 := by omega
    rcases quotients with ⟨inCycle, small⟩ | ⟨inCycle, large⟩
    · omega
    · omega

theorem daysBeforeYear_eq (split : Split dayOfEra century cycle year dayOfYear)
    {yearOfEra : Int} (same : yearOfEra = century * 100 + cycle * 4 + year) :
    yearOfEra * 365 + yearOfEra / 4 - yearOfEra / 100 = dayOfEra - dayOfYear := by
  rcases split with ⟨centuries, cycles, years, days, leap, total⟩
  omega

theorem isLeapYear_of_last (split : Split dayOfEra century cycle year dayOfYear)
    (last : dayOfYear = 365) (era : Int) :
    isLeapYear (era * 400 + (century * 100 + cycle * 4 + year) + 1) = true := by
  rcases split with ⟨centuries, cycles, years, days, leap, total⟩
  have lastYear := leap last
  have byFour : (era * 400 + (century * 100 + cycle * 4 + year) + 1) % 4 = 0 := by omega
  have byCentury : (era * 400 + (century * 100 + cycle * 4 + year) + 1) % 100 ≠ 0 ∨
      (era * 400 + (century * 100 + cycle * 4 + year) + 1) % 400 = 0 := by
    by_cases lastCycle : cycle = 24
    · have lastCentury := lastYear.2 lastCycle
      omega
    · omega
  simp only [isLeapYear, byFour, beq_self_eq_true, Bool.true_and, Bool.or_eq_true, bne_iff_ne,
    beq_iff_eq]
  exact byCentury

end Split

/-! ## Months from March on -/

/-- The date of a day of a month in a year, years and months counted from March. -/
def ofMarch (year month day : Int) : Date :=
  if month < 10 then ⟨year, (month + 3).toNat, day.toNat⟩
  else ⟨year + 1, (month - 9).toNat, day.toNat⟩

theorem month_of_dayOfYear {dayOfYear month : Int} (low : 0 ≤ dayOfYear) (high : dayOfYear ≤ 365)
    (same : month = (5 * dayOfYear + 2) / 153) :
    0 ≤ month ∧ month ≤ 11 ∧ daysBeforeMonth month ≤ dayOfYear ∧
      dayOfYear < daysBeforeMonth (month + 1) := by
  unfold daysBeforeMonth
  omega

theorem toDayNumber_ofMarch {year month day : Int} (first : 0 ≤ month) (last : month ≤ 11)
    (positive : 1 ≤ day) :
    (ofMarch year month day).toDayNumber =
      year / 400 * daysPerEra + (year % 400 * 365 + year % 400 / 4 - year % 400 / 100 +
        (daysBeforeMonth month + day - 1)) - epochOffset := by
  have dayCast : (day.toNat : Int) = day := Int.toNat_of_nonneg (by omega)
  rw [ofMarch]
  split
  next early =>
    have monthCast : ((month + 3).toNat : Int) - 3 = month := by omega
    have notEarly : ¬ (month + 3).toNat ≤ 2 := by omega
    simp only [toDayNumber, if_neg notEarly, monthCast, dayCast]
  next late =>
    have monthCast : ((month - 9).toNat : Int) + 9 = month := by omega
    have january : (month - 9).toNat ≤ 2 := by omega
    simp only [toDayNumber, if_pos january, monthCast, dayCast, add_sub_cancel_right]

theorem exists_ofMarch {year month day : Int} (first : 0 ≤ month) (last : month ≤ 11)
    (positive : 1 ≤ day) (inMonth : daysBeforeMonth month + day ≤ daysBeforeMonth (month + 1))
    (february : month = 11 → day ≤ 28 ∨ day = 29 ∧ isLeapYear (year + 1) = true) :
    (ofMarch year month day).Exists := by
  rw [ofMarch]
  unfold daysBeforeMonth at inMonth
  split
  next early =>
    have length : daysInMonth year (month + 3).toNat = daysBeforeMonth (month + 1) -
        daysBeforeMonth month := by
      unfold daysInMonth daysBeforeMonth
      interval_cases month <;> rfl
    unfold daysBeforeMonth at length
    exact ⟨by change 1 ≤ day.toNat; omega,
      by change day.toNat ≤ daysInMonth year (month + 3).toNat; omega⟩
  next late =>
    by_cases isFebruary : month = 11
    · subst isFebruary
      refine ⟨by change 1 ≤ day.toNat; omega, ?_⟩
      change day.toNat ≤ if isLeapYear (year + 1) = true then 29 else 28
      rcases february rfl with short | ⟨long, leap⟩
      · split <;> omega
      · rw [if_pos leap]
        omega
    · have january : month = 10 := by omega
      subst january
      exact ⟨by change 1 ≤ day.toNat; omega, by change day.toNat ≤ 31; omega⟩

/-! ## Days of any number -/

/-- The date of a day number, its day of the era split up. -/
theorem ofDayNumber_eq {number century cycle year dayOfYear : Int}
    (split : Split ((number + epochOffset) % daysPerEra) century cycle year dayOfYear) :
    ofDayNumber number = ofMarch
      ((number + epochOffset) / daysPerEra * 400 + (century * 100 + cycle * 4 + year))
      ((5 * dayOfYear + 2) / 153)
      (dayOfYear - daysBeforeMonth ((5 * dayOfYear + 2) / 153) + 1) := by
  have rest := split.daysBeforeYear_eq rfl
  simp only [ofDayNumber, split.yearOfEra_eq, rest, sub_sub_cancel]
  rfl

theorem toDayNumber_ofDayNumber (number : Int) : (ofDayNumber number).toDayNumber = number := by
  have low := Int.emod_nonneg (number + epochOffset) (by decide : daysPerEra ≠ 0)
  have high := Int.emod_lt_of_pos (number + epochOffset) (by decide : 0 < daysPerEra)
  rcases exists_split low high with ⟨century, cycle, year, dayOfYear, split⟩
  have months := month_of_dayOfYear split.days.1 split.days.2 rfl
  have bounds : 0 ≤ century * 100 + cycle * 4 + year ∧
      century * 100 + cycle * 4 + year < 400 := by
    have := split.centuries
    have := split.cycles
    have := split.years
    omega
  have era : ((number + epochOffset) / daysPerEra * 400 + (century * 100 + cycle * 4 + year)) /
      400 = (number + epochOffset) / daysPerEra := by omega
  have yearOfEra : ((number + epochOffset) / daysPerEra * 400 +
      (century * 100 + cycle * 4 + year)) % 400 = century * 100 + cycle * 4 + year := by omega
  have whole := Int.ediv_mul_add_emod (number + epochOffset) daysPerEra
  rw [ofDayNumber_eq split, toDayNumber_ofMarch months.1 months.2.1 (by omega), era, yearOfEra,
    split.daysBeforeYear_eq rfl]
  omega

theorem exists_ofDayNumber (number : Int) : (ofDayNumber number).Exists := by
  have low := Int.emod_nonneg (number + epochOffset) (by decide : daysPerEra ≠ 0)
  have high := Int.emod_lt_of_pos (number + epochOffset) (by decide : 0 < daysPerEra)
  rcases exists_split low high with ⟨century, cycle, year, dayOfYear, split⟩
  have months := month_of_dayOfYear split.days.1 split.days.2 rfl
  have days := split.days
  rw [ofDayNumber_eq split]
  refine exists_ofMarch months.1 months.2.1 (by omega) (by omega) fun february => ?_
  rw [february]
  by_cases last : dayOfYear = 365
  · exact Or.inr ⟨by rw [last]; rfl, split.isLeapYear_of_last last _⟩
  · left
    have before : daysBeforeMonth 11 = 337 := rfl
    omega

end Date
end ContainerBuild
