import ContainerBuild.Proofs.Json.Spelling
import ContainerBuild.Proofs.Time.Digits

namespace ContainerBuild
namespace Instant

/-!
# Exact texts read back

The exact text of an instant is read back in the loose form, which allows a sign in front of the
year, so the year may have any number of digits.  The fraction is read to the nanosecond, however
many groups of digits it has, and a leap second is told from the second before it.
-/

open Rfc3339
open Json (Numeral.ofDigits)

/-! ## Numbers -/

theorem trimStart_of_isDigit {c : Char} (digit : c.isDigit = true) (rest : List Char) :
    Text.trimStart (c :: rest) = c :: rest :=
  List.dropWhile_cons_of_neg (by simp [Json.isBlank_of_isDigit digit])

/-- A number is read up to the greatest width, or to what is no digit. -/
theorem scanNumber_append {width : Nat} {digits rest : List Char}
    (digital : ∀ c ∈ digits, c.isDigit = true) (nonempty : digits ≠ [])
    (fits : digits.length ≤ width)
    (stops : (rest.take (width - digits.length)).takeWhile Char.isDigit = []) :
    scanNumber width (digits ++ rest) = .ok (Numeral.ofDigits digits, rest) := by
  have run : ((digits ++ rest).take width).takeWhile Char.isDigit = digits := by
    rw [List.take_append, List.take_of_length_le fits, List.takeWhile_append_of_pos digital, stops,
      List.append_nil]
  rcases List.exists_cons_of_ne_nil nonempty with ⟨c, more, rfl⟩
  unfold scanNumber
  rw [run]
  exact congrArg (fun rest => Except.ok (_, rest)) List.drop_left

/-- A number of a given width is read, whatever stands behind it. -/
theorem scanNumber_padded {width value : Nat} (positive : 0 < width) (small : value < 10 ^ width)
    (rest : List Char) : scanNumber width (padded width value ++ rest) = .ok (value, rest) := by
  have length := length_padded positive small
  have stops : (rest.take (width - (padded width value).length)).takeWhile Char.isDigit = [] := by
    rw [length, Nat.sub_self]
    rfl
  rw [scanNumber_append (fun _ => isDigit_of_mem_padded) (padded_ne_nil positive value) length.le
    stops, ofDigits_padded]

theorem scanLooseNumber_padded {least greatest value : Nat} (low : least ≤ value)
    (high : value ≤ greatest) (small : greatest < 100) (rest : List Char) :
    scanLooseNumber least greatest (padded 2 value ++ rest) = .ok (value, rest) := by
  have trimmed : Text.trimStart (padded 2 value ++ rest) = padded 2 value ++ rest := by
    rcases exists_padded_eq_cons Nat.two_pos value with ⟨c, more, digit, first⟩
    rw [first, List.cons_append, trimStart_of_isDigit digit]
  have scanned := scanNumber_padded Nat.two_pos (by omega : value < 10 ^ 2) rest
  have inside : (decide (least ≤ value) && decide (value ≤ greatest)) = true := by
    simp only [low, high, decide_true, Bool.and_true]
  simp only [scanLooseNumber, trimmed, scanned, check, inside, bind, Except.bind, if_true]

/-- Any number of digits is read up to a mark. -/
theorem scanNumber_mark {digits : List Char} (digital : ∀ c ∈ digits, c.isDigit = true)
    (nonempty : digits ≠ []) {mark : Char} (other : mark.isDigit = false) (rest : List Char) :
    scanNumber (digits ++ mark :: rest).length (digits ++ mark :: rest) =
      .ok (Numeral.ofDigits digits, mark :: rest) := by
  refine scanNumber_append digital nonempty ?_ ?_
  · rw [List.length_append]
    exact Nat.le_add_right _ _
  · rw [List.length_append, Nat.add_sub_cancel_left, List.take_length]
    exact List.takeWhile_cons_of_neg (by simp [other])

/-! ## Years -/

theorem scanLooseYear_of_isDigit {c : Char} (digit : c.isDigit = true) (rest : List Char) :
    scanLooseYear (c :: rest) =
      (scanNumber 4 (c :: rest)).map fun number => ((number.1 : Int), number.2) := by
  rw [scanLooseYear, trimStart_of_isDigit digit]
  split
  next minus =>
    rw [(List.cons.inj minus).1] at digit
    exact absurd digit (by decide)
  next plus =>
    rw [(List.cons.inj plus).1] at digit
    exact absurd digit (by decide)
  next => cases scanNumber 4 (c :: rest) <;> rfl

theorem scanLooseYear_yearText (year : Int) (rest : List Char) :
    scanLooseYear (yearText year ++ '-' :: rest) = .ok (year, '-' :: rest) := by
  by_cases short : 0 ≤ year ∧ year ≤ 9999
  · have scanned := scanNumber_padded four_pos (by omega : year.toNat < 10 ^ 4) ('-' :: rest)
    rcases exists_padded_eq_cons four_pos year.toNat with ⟨c, more, digit, first⟩
    have value : (year.toNat : Int) = year := Int.toNat_of_nonneg short.1
    rw [first] at scanned
    rw [yearText_eq_padded short, first, List.cons_append, scanLooseYear_of_isDigit digit,
      ← List.cons_append, scanned, Except.map, value]
  · have scanned := scanNumber_mark (fun _ => isDigit_of_mem_padded)
      (padded_ne_nil four_pos year.natAbs) (by decide : '-'.isDigit = false) rest
    rw [ofDigits_padded] at scanned
    rw [yearText_eq_signed short, List.cons_append]
    split
    next negative =>
      have value : -(year.natAbs : Int) = year := by omega
      change (scanNumber _ _ >>= fun number => .ok (-(number.1 : Int), number.2)) = _
      rw [scanned]
      exact congrArg (fun year => Except.ok (year, '-' :: rest)) value
    next positive =>
      have value : (year.natAbs : Int) = year := by omega
      change (scanNumber _ _ >>= fun number => .ok ((number.1 : Int), number.2)) = _
      rw [scanned]
      exact congrArg (fun year => Except.ok (year, '-' :: rest)) value

theorem one_le_month_of_exists {date : Date} (exists_ : date.Exists) : 1 ≤ date.month := by
  by_contra early
  have none : date.month = 0 := by omega
  have days := exists_.1.trans exists_.2
  rw [none] at days
  exact absurd days (by decide : ¬ 1 ≤ 0)

/-- Years that start with March begin one after another. -/
theorem daysBeforeYear_le {first last : Int} (earlier : first ≤ last) :
    first / 400 * 146097 + (first % 400 * 365 + first % 400 / 4 - first % 400 / 100) ≤
      last / 400 * 146097 + (last % 400 * 365 + last % 400 / 4 - last % 400 / 100) := by
  rcases (Int.ediv_le_ediv (by decide : (0 : Int) < 400) earlier).eq_or_lt with same | before
  · have rests : first % 400 ≤ last % 400 := by omega
    have fours : first % 400 / 4 ≤ last % 400 / 4 := by omega
    have hundreds : last % 400 / 100 - first % 400 / 100 ≤ last % 400 - first % 400 := by omega
    omega
  · omega

theorem year_bounds {date : Date} (exists_ : date.Exists) (first : firstDay ≤ date.toDayNumber)
    (last : date.toDayNumber ≤ lastDay) : firstYear ≤ date.year ∧ date.year ≤ lastYear := by
  have january := one_le_month_of_exists exists_
  have december := month_le_of_exists exists_
  have day := exists_.1
  have days := exists_.2.trans (daysInMonth_le date.year date.month)
  simp only [Date.toDayNumber, Date.daysBeforeMonth, Date.daysPerEra, Date.epochOffset,
    firstDay, lastDay] at first last
  unfold firstYear lastYear
  by_cases early : date.month ≤ 2
  · simp only [if_pos early] at first last
    constructor <;> by_contra outside
    · have before := daysBeforeYear_le (by omega : date.year - 1 ≤ -262145)
      omega
    · have after := daysBeforeYear_le (by omega : 262142 ≤ date.year - 1)
      omega
  · simp only [if_neg early] at first last
    constructor <;> by_contra outside
    · have before := daysBeforeYear_le (by omega : date.year ≤ -262144)
      omega
    · have after := daysBeforeYear_le (by omega : 262143 ≤ date.year)
      omega

/-- The years of instants are in the range that is read. -/
theorem yearInRange_date (instant : Instant) : yearInRange instant.date.year = true := by
  have number : instant.date.toDayNumber = instant.day := Date.toDayNumber_ofDayNumber _
  have bounds := year_bounds (Date.exists_ofDayNumber instant.day)
    (instant.inRange.1.trans_eq number.symm) (number.trans_le instant.inRange.2)
  simp only [yearInRange, Bool.and_eq_true, decide_eq_true_eq]
  exact bounds

/-! ## Fractions -/

theorem nanosOfDigits_padded {width value : Nat} (positive : 0 < width) (most : width ≤ 9)
    (small : value < 10 ^ width) :
    nanosOfDigits (padded width value) = value * 10 ^ (9 - width) := by
  have length := length_padded positive small
  rw [nanosOfDigits, List.take_of_length_le (by omega), length]
  change Numeral.ofDigits _ = _
  rw [Json.Numeral.ofDigits_append_zeros, ofDigits_padded]

theorem scanFraction_padded {width value : Nat} (positive : 0 < width) (most : width ≤ 9)
    (small : value < 10 ^ width) {mark : Char} (other : mark.isDigit = false) (rest : List Char) :
    scanFraction ('.' :: (padded width value ++ mark :: rest)) =
      .ok (value * 10 ^ (9 - width), mark :: rest) := by
  have spanned : (padded width value ++ mark :: rest).span Char.isDigit =
      (padded width value, mark :: rest) :=
    Json.Numeral.digits_append (fun _ => isDigit_of_mem_padded)
      (Json.Numeral.noDigit_cons other rest)
  have nanos := nanosOfDigits_padded positive most small
  rcases exists_padded_eq_cons positive value with ⟨c, more, -, first⟩
  rw [scanFraction, spanned, first, ← nanos, first]

/-- As few groups of digits as say a fraction say it exactly. -/
theorem scanFraction_fractionText {nanos : Nat} (small : nanos < nanosPerSecond)
    (rest : List Char) :
    scanFraction (fractionText nanos ++ 'Z' :: rest) = .ok (nanos, 'Z' :: rest) := by
  have other : 'Z'.isDigit = false := by decide
  unfold nanosPerSecond at small
  rw [fractionText]
  split
  next none => rw [none]; rfl
  split
  next millis =>
    have whole : nanos / 1000000 * 10 ^ (9 - 3) = nanos := by omega
    rw [List.cons_append, scanFraction_padded (by decide) (by decide) (by omega) other, whole]
  split
  next micros =>
    have whole : nanos / 1000 * 10 ^ (9 - 6) = nanos := by omega
    rw [List.cons_append, scanFraction_padded (by decide) (by decide) (by omega) other, whole]
  next =>
    rw [List.cons_append, scanFraction_padded (by decide) (by decide) (by omega) other]
    rw [Nat.sub_self, Nat.pow_zero, Nat.mul_one]

/-! ## Instants -/

theorem looseMark_cons {mark : Char} (seen : ¬ Text.isBlank mark = true) (rest : List Char) :
    looseMark mark (mark :: rest) = .ok rest := by
  rw [looseMark, Text.trimStart, List.dropWhile_cons_of_neg seen, mark_cons]

/-- The exact text of an instant is read as that instant. -/
theorem parseLoose_exactText (instant : Instant) :
    Rfc3339.parseLoose instant.exactText = .ok instant := by
  have exists_ : instant.date.Exists := Date.exists_ofDayNumber instant.day
  have days := exists_.2.trans (daysInMonth_le instant.date.year instant.date.month)
  have shown := clockInRange_clock instant
  simp only [clockInRange, Bool.and_eq_true, decide_eq_true_eq] at shown
  have text : instant.exactText.toList = yearText instant.date.year ++ '-' ::
      (padded 2 instant.date.month ++ '-' :: (padded 2 instant.date.day ++ 'T' ::
        (padded 2 instant.clock.1 ++ ':' :: (padded 2 instant.clock.2.1 ++ ':' ::
          (padded 2 instant.clock.2.2 ++ (fractionText instant.fraction ++ ['Z'])))))) := by
    simp only [exactText, String.toList_ofList, dateText, clockText, List.append_assoc,
      List.cons_append, List.nil_append]
  have dash := looseMark_cons (by decide : ¬ Text.isBlank '-' = true)
  have colon := looseMark_cons (by decide : ¬ Text.isBlank ':' = true)
  have month := scanLooseNumber_padded (one_le_month_of_exists exists_)
    (month_le_of_exists exists_) (by decide)
  have day := scanLooseNumber_padded exists_.1 days (by decide)
  have hour := scanLooseNumber_padded (Nat.zero_le _) shown.1.1 (by decide)
  have minute := scanLooseNumber_padded (Nat.zero_le _) shown.1.2 (by decide)
  have second := scanLooseNumber_padded (Nat.zero_le _) shown.2 (by decide)
  have fraction : scanFraction (fractionText instant.fraction ++ ['Z']) =
      .ok (instant.fraction, ['Z']) := scanFraction_fractionText (Nat.mod_lt _ (by decide)) []
  have zone : scanLooseOffset (Text.trimStart ['Z']) = .ok (0, []) := rfl
  have ended : check (Text.trimStart []).isEmpty .trailing = .ok () := rfl
  have inRange : check (yearInRange instant.date.year && decide instant.date.Exists &&
      offsetInRange 0) .outOfRange = .ok () := by
    simp only [yearInRange_date, exists_, decide_true, Bool.true_and]
    rfl
  rw [parseLoose, text]
  simp only [scanLooseYear_yearText, dash, colon, month, day, hour, minute, second, fraction, zone,
    ended, bind, Except.bind, scanSeparator, true_or, if_true]
  rw [inRange]
  exact assemble_clock instant

end Instant
end ContainerBuild
