import ContainerBuild.Proofs.Json.Numeral
import ContainerBuild.Proofs.Time.Stamp

namespace ContainerBuild
namespace Instant

/-!
# Seconds told apart by their digits

The run of digits of an instant has no marks between its parts, and the year in front may have
any number of digits.  It still says which second it is: every part behind the year has two
digits, so the parts come off from the end, and what stays in front is the year.
-/

/-- Two instants lie in the same second.  A leap second is a second of its own. -/
def SameSecond (first second : Instant) : Prop :=
  first.day = second.day ∧ first.second = second.second ∧ first.isLeap = second.isLeap

instance (first second : Instant) : Decidable (SameSecond first second) := by
  unfold SameSecond; infer_instance

/-! ## Numbers of a given width -/

theorem isDigit_of_mem_padded {width value : Nat} {c : Char} (member : c ∈ padded width value) :
    c.isDigit = true := by
  rcases List.mem_append.1 member with zero | digit
  · exact Json.Numeral.isDigit_of_mem_zeros zero
  · exact Json.Numeral.isDigit_of_mem_decimalDigits digit

theorem ofDigits_padded (width value : Nat) :
    Json.Numeral.ofDigits (padded width value) = value := by
  have digits := Json.Numeral.ofDigits_decimalDigits value
  rw [padded]
  cases width - (Nat.toDigits 10 value).length with
  | zero => exact digits
  | succ zeros => exact (Json.Numeral.ofDigits_zeros_append zeros _).trans digits

theorem padded_injective (width : Nat) : Function.Injective (padded width) := by
  intro first second same
  have value := congrArg Json.Numeral.ofDigits same
  rwa [ofDigits_padded, ofDigits_padded] at value

theorem padded_ne_nil {width : Nat} (positive : 0 < width) (value : Nat) :
    padded width value ≠ [] := by
  have long := le_length_padded width value
  exact List.ne_nil_of_length_pos (by omega)

theorem exists_padded_eq_cons {width : Nat} (positive : 0 < width) (value : Nat) :
    ∃ c more, c.isDigit = true ∧ padded width value = c :: more := by
  rcases List.exists_cons_of_ne_nil (padded_ne_nil positive value) with ⟨c, more, first⟩
  exact ⟨c, more, isDigit_of_mem_padded (first ▸ List.mem_cons_self), first⟩

theorem length_padded {width value : Nat} (positive : 0 < width) (small : value < 10 ^ width) :
    (padded width value).length = width := by
  have short := (Nat.length_toDigits_le_iff (by decide) positive).2 small
  rw [padded, List.length_append, List.length_replicate]
  omega

/-- A number of two digits comes off the end of a text. -/
theorem append_padded_two_inj {front back : List Char} {first second : Nat} (small : first < 100)
    (small' : second < 100) (same : front ++ padded 2 first = back ++ padded 2 second) :
    front = back ∧ first = second := by
  have lengths : (padded 2 first).length = (padded 2 second).length := by
    rw [length_padded Nat.two_pos small, length_padded Nat.two_pos small']
  have parts := List.append_inj' same lengths
  exact ⟨parts.1, padded_injective 2 parts.2⟩

/-! ## Years, dates and times of day -/

theorem yearText_eq_padded {year : Int} (short : 0 ≤ year ∧ year ≤ 9999) :
    yearText year = padded 4 year.toNat := if_pos short

theorem yearText_eq_signed {year : Int} (long : ¬ (0 ≤ year ∧ year ≤ 9999)) :
    yearText year = (if year < 0 then '-' else '+') :: padded 4 year.natAbs := if_neg long

/-- A sign tells a year of any other number of digits from one of four. -/
theorem yearText_ne_of_sign {short long : Int} (inside : 0 ≤ short ∧ short ≤ 9999)
    (outside : ¬ (0 ≤ long ∧ long ≤ 9999)) : yearText short ≠ yearText long := by
  rw [yearText_eq_padded inside, yearText_eq_signed outside]
  intro same
  have there : (if long < 0 then '-' else '+') ∈ padded 4 short.toNat := by
    rw [same]
    exact List.mem_cons_self
  have sign := isDigit_of_mem_padded there
  split at sign
  · exact absurd sign (by decide)
  · exact absurd sign (by decide)

theorem yearText_injective : Function.Injective yearText := by
  intro first second same
  by_cases firstInside : 0 ≤ first ∧ first ≤ 9999
  · by_cases secondInside : 0 ≤ second ∧ second ≤ 9999
    · rw [yearText_eq_padded firstInside, yearText_eq_padded secondInside] at same
      have value := padded_injective 4 same
      omega
    · exact absurd same (yearText_ne_of_sign firstInside secondInside)
  · by_cases secondInside : 0 ≤ second ∧ second ≤ 9999
    · exact absurd same.symm (yearText_ne_of_sign secondInside firstInside)
    · rw [yearText_eq_signed firstInside, yearText_eq_signed secondInside, List.cons.injEq] at same
      have value := padded_injective 4 same.2
      have sign := same.1
      split at sign <;> split at sign
      · omega
      · exact absurd sign (by decide)
      · exact absurd sign (by decide)
      · omega

theorem dateText_inj {first second : Date} (exists_ : first.Exists) (exists' : second.Exists)
    (same : dateText [] first = dateText [] second) : first = second := by
  have month := month_le_of_exists exists_
  have month' := month_le_of_exists exists'
  have day := exists_.2.trans (daysInMonth_le first.year first.month)
  have day' := exists'.2.trans (daysInMonth_le second.year second.month)
  simp only [dateText, List.append_nil] at same
  have days := append_padded_two_inj (by omega) (by omega) same
  have months := append_padded_two_inj (by omega) (by omega) days.1
  have years := yearText_injective months.1
  cases first
  cases second
  exact congr (congr (congrArg Date.mk years) months.2) days.2

/-- A time of day comes off the end of a text, although nothing stands in front of it. -/
theorem append_clockText_inj {front back : List Char} {first second : Nat × Nat × Nat}
    (shown : Rfc3339.clockInRange first = true) (shown' : Rfc3339.clockInRange second = true)
    (same : front ++ clockText [] first = back ++ clockText [] second) :
    front = back ∧ first = second := by
  simp only [Rfc3339.clockInRange, Bool.and_eq_true, decide_eq_true_eq] at shown shown'
  simp only [clockText, List.append_nil, ← List.append_assoc] at same
  have seconds := append_padded_two_inj (by omega) (by omega) same
  have minutes := append_padded_two_inj (by omega) (by omega) seconds.1
  have hours := append_padded_two_inj (by omega) (by omega) minutes.1
  exact ⟨hours.1, Prod.ext hours.2 (Prod.ext minutes.2 seconds.2)⟩

/-! ## Instants -/

/-- Days have different dates. -/
theorem date_eq_iff {first second : Instant} :
    first.date = second.date ↔ first.day = second.day := by
  constructor
  · intro same
    have number := congrArg Date.toDayNumber same
    rwa [date, date, Date.toDayNumber_ofDayNumber, Date.toDayNumber_ofDayNumber] at number
  · exact congrArg Date.ofDayNumber

/-- Seconds of a day show as different times of day, a leap second as second sixty. -/
theorem clock_eq_iff {first second : Instant} :
    first.clock = second.clock ↔ first.second = second.second ∧ first.isLeap = second.isLeap := by
  constructor
  · intro same
    simp only [clock, Prod.mk.injEq] at same
    have last := @second_of_isLeap first
    have last' := @second_of_isLeap second
    cases leap : first.isLeap <;> cases leap' : second.isLeap <;>
      simp only [leap, leap', if_true, if_false, true_implies, Bool.false_eq_true]
        at same last last' <;>
      simp only [and_true, and_false, Bool.true_eq_false, Bool.false_eq_true] <;> omega
  · rintro ⟨second_, leap⟩
    rw [clock, clock, second_, leap]

/-- The run of digits says which second it is, and nothing else. -/
theorem digitsText_eq_iff {first second : Instant} :
    first.digitsText = second.digitsText ↔ SameSecond first second := by
  rw [digitsText, digitsText, String.ofList_inj, SameSecond, ← clock_eq_iff, ← date_eq_iff]
  constructor
  · intro same
    have parts := append_clockText_inj (clockInRange_clock first)
      (clockInRange_clock second) same
    exact ⟨dateText_inj (Date.exists_ofDayNumber _) (Date.exists_ofDayNumber _) parts.1, parts.2⟩
  · rintro ⟨date_, clock_⟩
    rw [date_, clock_]

end Instant
end ContainerBuild
