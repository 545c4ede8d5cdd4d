import ContainerBuild.Text.Blank
import ContainerBuild.Time.Instant

namespace ContainerBuild
namespace Rfc3339

/-!
# Reading instants

`parse` reads the form of RFC 3339: a date, one of `T`, `t` and a blank, a time of day with or
without a fraction, and an offset.  Parts are read from left to right and the first fault is
reported, except that the range of the time of day is checked after its fraction, and the range
of the offset after everything else.

`parseLoose` reads more: parts may have fewer digits and white space between them, the year a
sign, and `UTC` may stand for the offset.
-/

/-- Why a text is not an instant. -/
inductive Fault where
  | tooShort
  | badCharacter
  | outOfRange
  | trailing
deriving DecidableEq

/-- What is wrong, in words. -/
def Fault.message : Fault → String
  | .tooShort => "premature end of input"
  | .badCharacter => "input contains invalid characters"
  | .outOfRange => "input is out of range"
  | .trailing => "trailing input"

/-- The value of a digit. -/
def digit? (c : Char) : Option Nat := if c.isDigit then some (c.toNat - 48) else none

/-- Check a condition on what was read. -/
def check (condition : Bool) (fault : Fault) : Except Fault Unit :=
  if condition then .ok () else .error fault

/-! ## Parts of a fixed width -/

/-- Two digits of a text that is known to be long enough; what is not a digit is a bad character,
an early end included. -/
def twoDigits : List Char → Except Fault (Nat × List Char)
  | a :: b :: rest =>
      match digit? a, digit? b with
      | some a, some b => .ok (a * 10 + b, rest)
      | _, _ => .error .badCharacter
  | _ => .error .badCharacter

/-- A given character of a text that is known to be long enough. -/
def mark (expected : Char) : List Char → Except Fault (List Char)
  | c :: rest => if c = expected then .ok rest else .error .badCharacter
  | [] => .error .badCharacter

/-- A date of four, two and two digits, which has to exist. -/
def scanDate (text : List Char) : Except Fault (Date × List Char) := do
  let (century, text) ← twoDigits text
  let (year, text) ← twoDigits text
  let text ← mark '-' text
  let (month, text) ← twoDigits text
  let text ← mark '-' text
  let (day, text) ← twoDigits text
  let date : Date := ⟨(century * 100 + year : Nat), month, day⟩
  check (decide date.Exists) .outOfRange
  .ok (date, text)

/-- What stands between the date and the time of day. -/
def scanSeparator : List Char → Except Fault (List Char)
  | c :: rest => if c = 'T' ∨ c = 't' ∨ c = ' ' then .ok rest else .error .badCharacter
  | [] => .error .tooShort

/-- Hours, minutes and seconds, not yet checked. -/
def scanClock (text : List Char) : Except Fault ((Nat × Nat × Nat) × List Char) := do
  let (hour, text) ← twoDigits text
  let text ← mark ':' text
  let (minute, text) ← twoDigits text
  let text ← mark ':' text
  let (second, text) ← twoDigits text
  .ok ((hour, minute, second), text)

/-! ## Fraction and offset -/

/-- The nanoseconds that the digits after a point say; digits after the ninth say nothing. -/
def nanosOfDigits (digits : List Char) : Nat :=
  Nat.ofDigitChars 10 ((digits.take 9) ++ List.replicate (9 - digits.length) '0') 0

/-- A fraction of a second, if the text goes on with a point. -/
def scanFraction : List Char → Except Fault (Nat × List Char)
  | '.' :: rest =>
      match rest.span Char.isDigit with
      | ([], []) => .error .tooShort
      | ([], _) => .error .badCharacter
      | (digits, rest) => .ok (nanosOfDigits digits, rest)
  | text => .ok (0, text)

/-- Two digits of an offset.  A text with fewer than two bytes is too short. -/
def offsetDigits : List Char → Except Fault ((Char × Char) × List Char)
  | a :: b :: rest => if a.isDigit ∧ b.isDigit then .ok ((a, b), rest) else .error .badCharacter
  | [c] => .error (if c.toNat < 0x80 then .tooShort else .badCharacter)
  | [] => .error .tooShort

/-- The value of two digits. -/
def pairValue (digits : Char × Char) : Nat :=
  (digits.1.toNat - 48) * 10 + (digits.2.toNat - 48)

/-- The colon of an offset. -/
def offsetColon : List Char → Except Fault (List Char)
  | c :: rest => if c = ':' then .ok rest else .error .badCharacter
  | [] => .error .tooShort

/-- Hours and minutes of an offset after its sign, in seconds; `separate` takes what stands
between them. -/
def scanOffsetClock (separate : List Char → Except Fault (List Char)) (negative : Bool)
    (text : List Char) : Except Fault (Int × List Char) := do
  let (hours, text) ← offsetDigits text
  let text ← separate text
  let (minutes, text) ← offsetDigits text
  check (pairValue minutes < 60) .outOfRange
  let seconds : Int := pairValue hours * 3600 + pairValue minutes * 60
  .ok (if negative then -seconds else seconds, text)

/-- An offset from UTC in seconds. -/
def scanOffset (separate : List Char → Except Fault (List Char)) :
    List Char → Except Fault (Int × List Char)
  | [] => .error .tooShort
  | c :: rest =>
      if c = 'Z' ∨ c = 'z' then .ok (0, rest)
      else if c = '+' then scanOffsetClock separate false rest
      else if c = '-' ∨ c = '\u2212' then scanOffsetClock separate true rest
      else .error .badCharacter

/-! ## Instants -/

/-- Whether a clock can show a time of day; second sixty is a leap second, in any minute. -/
def clockInRange (clock : Nat × Nat × Nat) : Bool :=
  clock.1 ≤ 23 && clock.2.1 ≤ 59 && clock.2.2 ≤ 60

/-- The instant of a date and a time of day in a zone. -/
def assemble (date : Date) (clock : Nat × Nat × Nat) (nanos : Nat) (offset : Int) :
    Except Fault Instant :=
  let (hour, minute, second) := clock
  let (second, nanos) := if second = 60 then (59, nanos + nanosPerSecond) else (second, nanos)
  let seconds : Int := date.toDayNumber * secondsPerDay + (hour * 3600 + minute * 60 + second : Nat)
  match Instant.ofUnix? (seconds - offset) nanos with
  | some instant => .ok instant
  | none => .error .outOfRange

/-- Whether an offset is less than a day. -/
def offsetInRange (offset : Int) : Bool := offset.natAbs < secondsPerDay

/-- Read an instant in the form of RFC 3339. -/
def parse (text : String) : Except Fault Instant := do
  check (19 ≤ text.utf8ByteSize) .tooShort
  let (date, rest) ← scanDate text.toList
  let rest ← scanSeparator rest
  let (clock, rest) ← scanClock rest
  let (nanos, rest) ← scanFraction rest
  check (clockInRange clock) .outOfRange
  let (offset, rest) ← scanOffset offsetColon rest
  check rest.isEmpty .trailing
  check (offsetInRange offset) .outOfRange
  assemble date clock nanos offset

/-! ## The loose form -/

/-- The value of one or more digits, at most `width` of them. -/
def scanNumber (width : Nat) (text : List Char) : Except Fault (Nat × List Char) :=
  let run := (text.take width).takeWhile Char.isDigit
  match run, text with
  | [], [] => .error .tooShort
  | [], _ => .error .badCharacter
  | run, text => .ok (Nat.ofDigitChars 10 run 0, text.drop run.length)

/-- A number of one or two digits within bounds, after white space. -/
def scanLooseNumber (least greatest : Nat) (text : List Char) :
    Except Fault (Nat × List Char) := do
  let (value, text) ← scanNumber 2 (Text.trimStart text)
  check (least ≤ value && value ≤ greatest) .outOfRange
  .ok (value, text)

/-- A year of up to four digits, or of any number of digits after a sign. -/
def scanLooseYear (text : List Char) : Except Fault (Int × List Char) :=
  match Text.trimStart text with
  | '-' :: rest => do
      let (value, rest) ← scanNumber rest.length rest
      .ok (-(value : Int), rest)
  | '+' :: rest => do
      let (value, rest) ← scanNumber rest.length rest
      .ok ((value : Int), rest)
  | text => do
      let (value, text) ← scanNumber 4 text
      .ok ((value : Int), text)

/-- A given character after white space. -/
def looseMark (expected : Char) (text : List Char) : Except Fault (List Char) :=
  mark expected (Text.trimStart text)

/-- The offset, or `UTC` in any case for none. -/
def scanLooseOffset : List Char → Except Fault (Int × List Char)
  | a :: b :: c :: rest =>
      if a.toUpper = 'U' ∧ b.toUpper = 'T' ∧ c.toUpper = 'C' then .ok (0, rest)
      else scanOffset (fun text => .ok (text.dropWhile fun c => c == ':' || Text.isBlank c))
        (a :: b :: c :: rest)
  | text =>
      scanOffset (fun text => .ok (text.dropWhile fun c => c == ':' || Text.isBlank c)) text

/-- Whether instants have dates of a year; the offset comes on top of that. -/
def yearInRange (year : Int) : Bool := Instant.firstYear ≤ year && year ≤ Instant.lastYear

/-- Read an instant in the loose form. -/
def parseLoose (text : String) : Except Fault Instant := do
  let (year, rest) ← scanLooseYear text.toList
  let rest ← looseMark '-' rest
  let (month, rest) ← scanLooseNumber 1 12 rest
  let rest ← looseMark '-' rest
  let (day, rest) ← scanLooseNumber 1 31 rest
  let rest ← scanSeparator rest
  let (hour, rest) ← scanLooseNumber 0 23 rest
  let rest ← looseMark ':' rest
  let (minute, rest) ← scanLooseNumber 0 59 rest
  let rest ← looseMark ':' rest
  let (second, rest) ← scanLooseNumber 0 60 rest
  let (nanos, rest) ← scanFraction rest
  let (offset, rest) ← scanLooseOffset (Text.trimStart rest)
  check (Text.trimStart rest).isEmpty .trailing
  let date : Date := ⟨year, month, day⟩
  check (yearInRange year && decide date.Exists && offsetInRange offset) .outOfRange
  assemble date (hour, minute, second) nanos offset

end Rfc3339
end ContainerBuild
