import ContainerBuild.Time.Date

namespace ContainerBuild

/-!
# Instants

An instant is a day, a second of that day and a fraction of that second in nanoseconds, all in
UTC.  A leap second is written as the second before it with 10^9 nanoseconds or more, so an
instant inside one is told apart from the instants around it, and it can only follow the last
second of a minute.

The days of instants reach from the year -262143 to the year 262142, in UTC, and no further.
-/

/-- The nanoseconds of a second. -/
def nanosPerSecond : Nat := 1000000000

/-- The seconds of a day, leap seconds not counted. -/
def secondsPerDay : Nat := 86400

namespace Instant

/-- The first year of an instant. -/
def firstYear : Int := -262143

/-- The last year of an instant. -/
def lastYear : Int := 262142

/-- The first day of an instant. -/
def firstDay : Int := -96465292

/-- The last day of an instant. -/
def lastDay : Int := 95026236

/-- The first day is the first of January of the first year. -/
theorem firstDay_eq : firstDay = (Date.mk firstYear 1 1).toDayNumber := by decide

/-- The last day is the last of December of the last year. -/
theorem lastDay_eq : lastDay = (Date.mk lastYear 12 31).toDayNumber := by decide

end Instant

/-- A point in time. -/
structure Instant where
  day : Int
  second : Nat
  nano : Nat
  valid : second < 86400 ∧ nano < 2000000000 ∧ (1000000000 ≤ nano → second % 60 = 59)
  inRange : Instant.firstDay ≤ day ∧ day ≤ Instant.lastDay
deriving DecidableEq

namespace Instant

/-- Midnight of 1970-01-01. -/
def epoch : Instant := ⟨0, 0, 0, by decide, by decide⟩

instance : Inhabited Instant := ⟨epoch⟩

/-- The instant of a day, a second and nanoseconds, if there is one. -/
def ofParts? (day : Int) (second nano : Nat) : Option Instant :=
  if valid : second < 86400 ∧ nano < 2000000000 ∧ (1000000000 ≤ nano → second % 60 = 59) then
    if inRange : firstDay ≤ day ∧ day ≤ lastDay then some ⟨day, second, nano, valid, inRange⟩
    else none
  else
    none

/-- The instant so many seconds after midnight of 1970-01-01, leap seconds not counted, and so
many nanoseconds after that. -/
def ofUnix? (seconds : Int) (nano : Nat) : Option Instant :=
  ofParts? (seconds / secondsPerDay) (seconds % secondsPerDay).toNat nano

/-- The seconds since midnight of 1970-01-01, leap seconds not counted. -/
def unixSeconds (instant : Instant) : Int := instant.day * secondsPerDay + instant.second

/-- Whether an instant lies in a leap second. -/
def isLeap (instant : Instant) : Bool := nanosPerSecond ≤ instant.nano

/-- Whether one instant comes before another. -/
def Before (earlier later : Instant) : Prop :=
  earlier.day < later.day ∨
    earlier.day = later.day ∧
      (earlier.second < later.second ∨
        earlier.second = later.second ∧ earlier.nano < later.nano)

instance (earlier later : Instant) : Decidable (Before earlier later) := by
  unfold Before; infer_instance

/-- The nanoseconds from `start` to `stop`.

A leap second that lies between the two adds a second.  Seconds of the day are compared for
that, and not the instants, so that the step from a leap second at the end of a day to the next
midnight counts for nothing. -/
def nanosBetween (start stop : Instant) : Int :=
  let days := stop.day - start.day
  let seconds := (stop.second : Int) - start.second
  let leap : Int :=
    if start.second < stop.second ∧ start.isLeap then 1
    else if stop.second < start.second ∧ stop.isLeap then -1
    else 0
  (days * secondsPerDay + seconds + leap) * nanosPerSecond + ((stop.nano : Int) - start.nano)

/-- A duration that fits a signed integer of 64 bits. -/
def signed64? (nanos : Int) : Option Int :=
  if -0x8000000000000000 ≤ nanos ∧ nanos < 0x8000000000000000 then some nanos else none

/-- The nanoseconds from `start` to `stop` as an unsigned integer of 64 bits: none if `stop` is
earlier, or later by more than a signed integer of 64 bits can say. -/
def elapsed64? (start stop : Instant) : Option UInt64 :=
  match signed64? (nanosBetween start stop) with
  | some nanos => if 0 ≤ nanos then some (UInt64.ofNat nanos.toNat) else none
  | none => none

/-- The same instant without the fraction of its second; a leap second stays one. -/
def truncate (instant : Instant) : Instant :=
  ⟨instant.day, instant.second, if nanosPerSecond ≤ instant.nano then nanosPerSecond else 0, by
    have valid := instant.valid
    unfold nanosPerSecond
    refine ⟨valid.1, ?_, ?_⟩ <;> split <;> omega, instant.inRange⟩

/-- The hour, the minute and the second as a clock shows them, sixty in a leap second. -/
def clock (instant : Instant) : Nat × Nat × Nat :=
  (instant.second / 3600, instant.second / 60 % 60,
    instant.second % 60 + if instant.isLeap then 1 else 0)

/-- The date. -/
def date (instant : Instant) : Date := Date.ofDayNumber instant.day

/-- The nanoseconds within the second, leap or not. -/
def fraction (instant : Instant) : Nat := instant.nano % nanosPerSecond

end Instant
end ContainerBuild
