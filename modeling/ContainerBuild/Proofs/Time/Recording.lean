import ContainerBuild.Proofs.Time.Digits

namespace ContainerBuild

/-!
# What is recorded of an instant

An instant is recorded in whole seconds, as a timestamp.  The record says which second it was, a
leap second being one of its own, and drops the fraction, which keeps the order of instants.  Its
text is read back as the same timestamp exactly if the year has four digits: any other year is
written with a sign, and no sign is read (`Timestamp.parse_stamp_iff`).
-/

/-! ## Texts with a sign -/

namespace Rfc3339

/-- What begins with no digit is not read as an instant. -/
theorem exists_parse_eq_error {text : String} {c : Char} (first : text.toList.head? = some c)
    (other : c.isDigit = false) : ∃ fault, parse text = .error fault := by
  rcases List.head?_eq_some_iff.1 first with ⟨rest, whole⟩
  have noDigit : digit? c = none := if_neg (by rw [other]; decide)
  have refused : twoDigits (c :: rest) = .error .badCharacter := by
    cases rest with
    | nil => rfl
    | cons d rest => simp only [twoDigits, noDigit]
  by_cases long : 19 ≤ text.utf8ByteSize
  · refine ⟨.badCharacter, ?_⟩
    simp only [parse, check, long, decide_true, if_true, bind, Except.bind, scanDate, whole,
      refused]
  · refine ⟨.tooShort, ?_⟩
    simp only [parse, check, long, decide_false, Bool.false_eq_true, if_false, bind, Except.bind]

end Rfc3339

namespace Instant

/-- Where the year has not four digits, a sign comes first. -/
theorem exists_head?_secondsText {instant : Instant} (undated : ¬ instant.Dated) :
    ∃ sign, instant.secondsText.toList.head? = some sign ∧ sign.isDigit = false := by
  refine ⟨if instant.date.year < 0 then '-' else '+', ?_, ?_⟩
  · rw [secondsText, String.toList_ofList, dateText, yearText_eq_signed undated]
    rfl
  · split <;> rfl

end Instant

/-! ## Timestamps -/

namespace Timestamp

open Instant

theorem parse_stamp_iff {instant : Instant} :
    parse (stamp instant).raw = .ok (stamp instant) ↔ instant.Dated := by
  refine ⟨fun again => ?_, parse_stamp⟩
  by_contra undated
  have later : ¬ instant.truncate.Dated := undated
  rcases exists_head?_secondsText later with ⟨sign, first, other⟩
  rcases Rfc3339.exists_parse_eq_error first other with ⟨fault, refused⟩
  have failed : parse (stamp instant).raw = .error fault := congrArg (Except.map _) refused
  rw [failed] at again
  cases again

theorem sameSecond_stamp (instant : Instant) : SameSecond (stamp instant).instant instant :=
  ⟨rfl, rfl, isLeap_truncate instant⟩

/-- The record of an instant is read back, its text and its instant, if the year has four digits
and in no other case.  It says the second of the instant without a fraction, and of two instants
the later one is not recorded as an earlier one. -/
theorem stamp_faithful (instant : Instant) :
    (parse (stamp instant).raw = .ok (stamp instant) ↔ instant.Dated) ∧
      SameSecond (stamp instant).instant instant ∧ (stamp instant).instant.fraction = 0 ∧
      ∀ later : Instant, NotAfter instant later →
        NotAfter (stamp instant).instant (stamp later).instant := by
  refine ⟨parse_stamp_iff, sameSecond_stamp instant, ?fraction, fun later ordered => ?order⟩
  case fraction => exact fraction_of_isWhole (isWhole_truncate instant)
  case order => exact ordered.truncate

/-- The last nanosecond of the last year of four digits, with a leap second at its end. -/
def endOf9999 : Instant := ⟨2932896, 86399, 1999999999, by decide, by decide⟩

/-- Two nanoseconds later. -/
def startOf10000 : Instant := ⟨2932897, 0, 1, by decide, by decide⟩

theorem stamp_faithful_endOf9999 :
    endOf9999.Dated ∧ NotAfter endOf9999 startOf10000 ∧
      (stamp endOf9999).raw = "9999-12-31T23:59:60Z" ∧
      parse "9999-12-31T23:59:60Z" = .ok (stamp endOf9999) ∧
      (stamp endOf9999).instant.isLeap = true ∧
      NotAfter (stamp endOf9999).instant (stamp startOf10000).instant ∧
      ¬ startOf10000.Dated ∧
      parse (stamp startOf10000).raw ≠ .ok (stamp startOf10000) := by
  have dated : endOf9999.Dated := by decide +kernel
  have undated : ¬ startOf10000.Dated := by decide +kernel
  have ordered : NotAfter endOf9999 startOf10000 := by decide
  have text : (stamp endOf9999).raw = "9999-12-31T23:59:60Z" := by decide +kernel
  rcases stamp_faithful endOf9999 with ⟨again, same, -, keepsOrder⟩
  exact ⟨dated, ordered, text, text ▸ again.2 dated, same.2.2, keepsOrder _ ordered, undated,
    mt (stamp_faithful startOf10000).1.1 undated⟩

end Timestamp
end ContainerBuild
