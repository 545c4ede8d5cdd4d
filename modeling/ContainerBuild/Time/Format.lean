import ContainerBuild.Time.Instant

namespace ContainerBuild
namespace Instant

/-!
# Instants as text

All forms are in UTC.  A year from 0 to 9999 has four digits; any other has a sign and at least
four.  A leap second shows as second sixty.
-/

/-- A number with leading zeros up to a width. -/
def padded (width value : Nat) : List Char :=
  let digits := Nat.toDigits 10 value
  List.replicate (width - digits.length) '0' ++ digits

/-- A year. -/
def yearText (year : Int) : List Char :=
  if 0 ≤ year ∧ year ≤ 9999 then padded 4 year.toNat
  else (if year < 0 then '-' else '+') :: padded 4 year.natAbs

/-- A date, with what stands between its parts. -/
def dateText (mark : List Char) (date : Date) : List Char :=
  yearText date.year ++ mark ++ padded 2 date.month ++ mark ++ padded 2 date.day

/-- A time of day, with what stands between its parts. -/
def clockText (mark : List Char) (clock : Nat × Nat × Nat) : List Char :=
  padded 2 clock.1 ++ mark ++ padded 2 clock.2.1 ++ mark ++ padded 2 clock.2.2

/-- A fraction of a second, of as few groups of three digits as say it exactly. -/
def fractionText (nanos : Nat) : List Char :=
  if nanos = 0 then []
  else if nanos % 1000000 = 0 then '.' :: padded 3 (nanos / 1000000)
  else if nanos % 1000 = 0 then '.' :: padded 6 (nanos / 1000)
  else '.' :: padded 9 nanos

/-- Whole seconds, as in `2019-10-11T15:23:44Z`. -/
def secondsText (instant : Instant) : String :=
  String.ofList (dateText ['-'] instant.date ++ 'T' :: clockText [':'] instant.clock ++ ['Z'])

/-- The exact instant, as in `2019-10-11T15:23:44.500Z`. -/
def exactText (instant : Instant) : String :=
  String.ofList (dateText ['-'] instant.date ++ 'T' :: clockText [':'] instant.clock ++
    fractionText instant.fraction ++ ['Z'])

/-- The exact instant for a reader, as in `2019-10-11 15:23:44.500 UTC`. -/
def proseText (instant : Instant) : String :=
  String.ofList (dateText ['-'] instant.date ++ ' ' :: clockText [':'] instant.clock ++
    fractionText instant.fraction ++ [' ', 'U', 'T', 'C'])

/-- Whole seconds as a run of digits, as in `20191011152344`. -/
def digitsText (instant : Instant) : String :=
  String.ofList (dateText [] instant.date ++ clockText [] instant.clock)

end Instant
end ContainerBuild
