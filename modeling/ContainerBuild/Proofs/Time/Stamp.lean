import ContainerBuild.Proofs.Time.Calendar
import ContainerBuild.Proofs.Time.Elapsed
import ContainerBuild.Time.Timestamp

namespace ContainerBuild
namespace Instant

/-!
# Stamps read back

The text of an instant in whole seconds, of a year that has four digits, is read as that
instant; a leap second is no exception.  A timestamp that records an instant is thus one that
its own text gives.
-/

open Rfc3339

/-! ## Digits -/

theorem digit?_digitChar {digit : Nat} (small : digit < 10) :
    digit? (Nat.digitChar digit) = some digit := by
  have table : ∀ digit < 10, digit? (Nat.digitChar digit) = some digit := by decide
  exact table digit small

theorem padded_one {value : Nat} (small : value < 10) : padded 1 value = [Nat.digitChar value] := by
  rw [padded, Nat.toDigits_of_lt_base small]
  rfl

theorem padded_succ {width : Nat} (positive : 0 < width) (value : Nat) :
    padded (width + 1) value = padded width (value / 10) ++ [Nat.digitChar (value % 10)] := by
  by_cases small : value < 10
  · have quotient : value / 10 = 0 := by omega
    have remainder : value % 10 = value := by omega
    rw [padded, padded, quotient, remainder, Nat.toDigits_of_lt_base small, Nat.toDigits_zero]
    change List.replicate width '0' ++ _ = List.replicate (width - 1) '0' ++ ['0'] ++ _
    rw [← List.replicate_succ', Nat.sub_add_cancel positive]
  · have shorter : width + 1 - ((Nat.toDigits 10 (value / 10)).length + 1) =
        width - (Nat.toDigits 10 (value / 10)).length := by omega
    rw [padded, padded, Nat.toDigits_of_base_le (by decide) (by omega), List.length_append,
      List.length_singleton, shorter, List.append_assoc]

theorem padded_two {value : Nat} (small : value < 100) :
    padded 2 value = [Nat.digitChar (value / 10), Nat.digitChar (value % 10)] := by
  rw [padded_succ Nat.one_pos, padded_one (by omega)]
  rfl

theorem padded_four (value : Nat) :
    padded 4 value = padded 2 (value / 100) ++ padded 2 (value % 100) := by
  have tens : value % 100 / 10 = value / 10 % 10 := by omega
  have ones : value % 100 % 10 = value % 10 := by omega
  rw [padded_succ (by decide), padded_succ (by decide), Nat.div_div_eq_div_mul,
    padded_two (by omega : value % 100 < 100), tens, ones, List.append_assoc]
  rfl

theorem twoDigits_padded {value : Nat} (small : value < 100) (rest : List Char) :
    twoDigits (padded 2 value ++ rest) = .ok (value, rest) := by
  have whole : value / 10 * 10 + value % 10 = value := by omega
  rw [padded_two small]
  simp only [List.cons_append, List.nil_append, twoDigits,
    digit?_digitChar (by omega : value / 10 < 10), digit?_digitChar (by omega : value % 10 < 10),
    whole]

theorem mark_cons (c : Char) (rest : List Char) : mark c (c :: rest) = .ok rest := if_pos rfl

/-! ## Dates and times of day -/

/-- An instant whose year has four digits. -/
def Dated (instant : Instant) : Prop := 0 ≤ instant.date.year ∧ instant.date.year ≤ 9999

instance (instant : Instant) : Decidable instant.Dated := by unfold Dated; infer_instance

theorem month_le_of_exists {date : Date} (exists_ : date.Exists) : date.month ≤ 12 := by
  by_contra late
  have length : Date.daysInMonth date.year date.month = 0 := by
    unfold Date.daysInMonth
    rw [if_neg (by omega), if_neg (by omega), if_neg (by omega)]
  have days := exists_
  unfold Date.Exists at days
  omega

theorem daysInMonth_le (year : Int) (month : Nat) : Date.daysInMonth year month ≤ 31 := by
  unfold Date.daysInMonth
  split
  · split <;> decide
  · split
    · decide
    · split <;> decide

theorem scanDate_dateText {date : Date} (exists_ : date.Exists) (low : 0 ≤ date.year)
    (high : date.year ≤ 9999) (rest : List Char) :
    scanDate (dateText ['-'] date ++ rest) = .ok (date, rest) := by
  have month := month_le_of_exists exists_
  have day := exists_.2.trans (daysInMonth_le date.year date.month)
  have year : ((date.year.toNat / 100 * 100 + date.year.toNat % 100 : Nat) : Int) = date.year := by
    omega
  simp only [scanDate, dateText, yearText, if_pos (And.intro low high), padded_four,
    List.append_assoc, List.cons_append, List.nil_append, bind, Except.bind,
    twoDigits_padded (by omega : date.year.toNat / 100 < 100),
    twoDigits_padded (by omega : date.year.toNat % 100 < 100), mark_cons,
    twoDigits_padded (by omega : date.month < 100), twoDigits_padded (by omega : date.day < 100),
    year, exists_, decide_true, check, if_true]

theorem scanClock_clockText {clock : Nat × Nat × Nat} (hour : clock.1 < 100)
    (minute : clock.2.1 < 100) (second : clock.2.2 < 100) (rest : List Char) :
    scanClock (clockText [':'] clock ++ rest) = .ok (clock, rest) := by
  simp only [scanClock, clockText, List.append_assoc, List.cons_append, List.nil_append, bind,
    Except.bind, twoDigits_padded hour, twoDigits_padded minute, twoDigits_padded second, mark_cons]

theorem clockInRange_clock (instant : Instant) : clockInRange instant.clock = true := by
  have valid := instant.valid
  have leap : (if instant.isLeap = true then 1 else 0) ≤ 1 := by split <;> decide
  simp only [clockInRange, Bool.and_eq_true, decide_eq_true_eq]
  change (instant.second / 3600 ≤ 23 ∧ instant.second / 60 % 60 ≤ 59) ∧
    instant.second % 60 + (if instant.isLeap = true then 1 else 0) ≤ 60
  omega

theorem ofUnix?_unixSeconds (instant : Instant) :
    ofUnix? instant.unixSeconds instant.nano = some instant := by
  rcases instant with ⟨day, second, nano, valid, inRange⟩
  have sameDay : (day * secondsPerDay + second) / secondsPerDay = day := by
    unfold secondsPerDay
    omega
  have sameSecond : ((day * secondsPerDay + second) % secondsPerDay).toNat = second := by
    unfold secondsPerDay
    omega
  simp only [ofUnix?, unixSeconds, sameDay, sameSecond, ofParts?, dif_pos valid, dif_pos inRange]

/-- The date, the time of day that a clock shows and the fraction give back an instant. -/
theorem assemble_clock (instant : Instant) :
    assemble instant.date instant.clock instant.fraction 0 = .ok instant := by
  have valid := instant.valid
  have again := ofUnix?_unixSeconds instant
  by_cases leap : instant.isLeap = true
  · have long : nanosPerSecond ≤ instant.nano := of_decide_eq_true leap
    have last : instant.second % 60 = 59 := valid.2.2 long
    have seconds : instant.date.toDayNumber * secondsPerDay +
        (instant.second / 3600 * 3600 + instant.second / 60 % 60 * 60 + 59 : Nat) - 0 =
          instant.unixSeconds := by
      rw [date, Date.toDayNumber_ofDayNumber, unixSeconds]
      omega
    have nanos : instant.fraction + nanosPerSecond = instant.nano := by
      unfold fraction nanosPerSecond at *
      omega
    rw [assemble, clock, if_pos leap, last]
    simp only [Nat.reduceAdd, if_true]
    rw [seconds, nanos, again]
  · have short : ¬ nanosPerSecond ≤ instant.nano := fun long => leap (decide_eq_true long)
    have seconds : instant.date.toDayNumber * secondsPerDay +
        (instant.second / 3600 * 3600 + instant.second / 60 % 60 * 60 +
          instant.second % 60 : Nat) - 0 = instant.unixSeconds := by
      rw [date, Date.toDayNumber_ofDayNumber, unixSeconds]
      omega
    have early : instant.second % 60 ≠ 60 := by omega
    have nanos : instant.fraction = instant.nano := Nat.mod_eq_of_lt (Nat.lt_of_not_le short)
    rw [assemble, clock, if_neg leap]
    simp only [Nat.add_zero, if_neg early]
    rw [seconds, nanos, again]

/-! ## Whole texts -/

theorem length_le_utf8ByteSize (text : String) : text.length ≤ text.utf8ByteSize := by
  rw [← String.size_toByteArray, ← String.utf8Encode_toList, ← String.length_toList]
  induction text.toList with
  | nil => exact Nat.zero_le _
  | cons c rest inductionHypothesis =>
      have positive := c.utf8Size_pos
      have size : [c].utf8Encode.size = c.utf8Size := by
        rw [List.utf8Encode_singleton, List.size_toByteArray, String.length_utf8EncodeChar]
      rw [List.utf8Encode_cons, ByteArray.size_append, size, List.length_cons]
      omega

theorem le_length_padded (width value : Nat) : width ≤ (padded width value).length := by
  rw [padded, List.length_append, List.length_replicate]
  omega

theorem utf8ByteSize_secondsText {instant : Instant} (dated : instant.Dated) :
    19 ≤ instant.secondsText.utf8ByteSize := by
  have year : yearText instant.date.year = padded 4 instant.date.year.toNat := if_pos dated
  have size : 19 ≤ instant.secondsText.length := by
    have yearLength := le_length_padded 4 instant.date.year.toNat
    have monthLength := le_length_padded 2 instant.date.month
    have dayLength := le_length_padded 2 instant.date.day
    have hourLength := le_length_padded 2 instant.clock.1
    have minuteLength := le_length_padded 2 instant.clock.2.1
    have secondLength := le_length_padded 2 instant.clock.2.2
    rw [secondsText, String.length_ofList, dateText, clockText, year]
    simp only [List.length_append, List.length_cons, List.length_nil]
    omega
  exact size.trans (length_le_utf8ByteSize _)

/-- Whole seconds are read back. -/
theorem parse_secondsText {instant : Instant} (dated : instant.Dated)
    (whole : instant.IsWhole) :
    Rfc3339.parse instant.secondsText = .ok instant := by
  have inRange := clockInRange_clock instant
  have bounds := inRange
  simp only [clockInRange, Bool.and_eq_true, decide_eq_true_eq] at bounds
  have scannedDate := scanDate_dateText (Date.exists_ofDayNumber instant.day) dated.1 dated.2
    ('T' :: (clockText [':'] instant.clock ++ ['Z']))
  have scannedClock := scanClock_clockText (by omega : instant.clock.1 < 100)
    (by omega : instant.clock.2.1 < 100) (by omega : instant.clock.2.2 < 100) ['Z']
  have text : instant.secondsText.toList = dateText ['-'] (Date.ofDayNumber instant.day) ++
      'T' :: (clockText [':'] instant.clock ++ ['Z']) := by
    rw [secondsText, String.toList_ofList, List.append_assoc, List.cons_append]
    rfl
  have long : check (decide (19 ≤ instant.secondsText.utf8ByteSize)) .tooShort = .ok () :=
    if_pos (decide_eq_true (utf8ByteSize_secondsText dated))
  have shown : check (clockInRange instant.clock) .outOfRange = .ok () := if_pos inRange
  have again := assemble_clock instant
  rw [fraction_of_isWhole whole] at again
  rw [Rfc3339.parse, text]
  simp only [long, scannedDate, scannedClock, bind, Except.bind, scanSeparator, true_or, if_true,
    scanFraction, shown]
  exact again

end Instant

namespace Timestamp

/-- What an instant is recorded as is what the text of the record is read as. -/
theorem parse_stamp {instant : Instant} (dated : instant.Dated) :
    parse (stamp instant).raw = .ok (stamp instant) := by
  have read : Rfc3339.parse instant.truncate.secondsText = .ok instant.truncate :=
    Instant.parse_secondsText dated (Instant.isWhole_truncate instant)
  change (Rfc3339.parse instant.truncate.secondsText).map _ = _
  rw [read]
  rfl

end Timestamp
end ContainerBuild
