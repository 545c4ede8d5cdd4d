import ContainerBuild.Time.Instant
import Mathlib.Algebra.Group.Int.Defs

namespace ContainerBuild
namespace Instant

/-!
# Order and elapsed time

Instants are ordered by day, second and nanosecond, and dropping the fraction of the second
keeps the order.

The time from one instant to another is negative exactly if they are out of order, but for one
place.  A day can end with a leap second, and from there to the first second of the next day no
second is counted, so that fractions alone decide (`nanosBetween_nonneg_iff_notAfter_iff`).
Instants in whole seconds have no fractions, so the time from one to a later one is never
negative.
-/

variable {first second third : Instant}

/-- One instant comes before another one or is the same. -/
def NotAfter (first second : Instant) : Prop := ¬ second.Before first

instance (first second : Instant) : Decidable (NotAfter first second) := by
  unfold NotAfter; infer_instance

/-- An instant has no fraction of a second, though it may lie in a leap second. -/
def IsWhole (instant : Instant) : Prop :=
  instant.nano = if instant.isLeap then nanosPerSecond else 0

instance (instant : Instant) : Decidable instant.IsWhole := by unfold IsWhole; infer_instance

theorem isLeap_truncate (instant : Instant) : instant.truncate.isLeap = instant.isLeap := by
  change decide (nanosPerSecond ≤ if nanosPerSecond ≤ instant.nano then nanosPerSecond else 0) =
    decide (nanosPerSecond ≤ instant.nano)
  split
  next leap => rw [decide_eq_true leap]; rfl
  next early => rw [decide_eq_false early]; rfl

theorem isWhole_truncate (instant : Instant) : instant.truncate.IsWhole := by
  rw [IsWhole, isLeap_truncate]
  simp only [truncate, isLeap, decide_eq_true_eq]

theorem NotAfter.truncate (ordered : NotAfter first second) :
    NotAfter first.truncate second.truncate := by
  intro before
  apply ordered
  unfold Before at before ⊢
  simp only [Instant.truncate] at before
  rcases before with day | ⟨day, clock | ⟨clock, nano⟩⟩
  · exact Or.inl day
  · exact Or.inr ⟨day, Or.inl clock⟩
  · refine Or.inr ⟨day, Or.inr ⟨clock, ?_⟩⟩
    split at nano
    · split at nano <;> omega
    · split at nano <;> omega

/-- Without its fraction an instant comes before one that it is not before only if the two share
their second and the earlier one has a fraction. -/
theorem truncate_before_iff (ordered : NotAfter first second) :
    second.truncate.Before first ↔ first.truncate = second.truncate ∧ ¬ first.IsWhole := by
  have whole : first.IsWhole ↔
      first.nano = if nanosPerSecond ≤ first.nano then nanosPerSecond else 0 := by
    simp only [IsWhole, isLeap, decide_eq_true_eq]
  rw [truncate, truncate, Instant.mk.injEq, whole]
  unfold NotAfter Before at ordered
  unfold Before
  dsimp only [nanosPerSecond]
  -- With both seconds known to be leap or not, what is left is linear.
  by_cases firstLeap : 1000000000 ≤ first.nano <;> by_cases secondLeap : 1000000000 ≤ second.nano <;>
    simp only [firstLeap, secondLeap, if_true, if_false, and_true] <;> omega

/-! ## Leap seconds -/

theorem isLeap_iff {instant : Instant} : instant.isLeap = true ↔ 1000000000 ≤ instant.nano :=
  decide_eq_true_iff

/-- A leap second ends a minute. -/
theorem second_of_isLeap {instant : Instant} (leap : instant.isLeap = true) :
    instant.second % 60 = 59 :=
  instant.valid.2.2 (isLeap_iff.1 leap)

theorem fraction_of_isLeap {instant : Instant} (leap : instant.isLeap = true) :
    instant.nano = instant.fraction + 1000000000 := by
  have atLeast := isLeap_iff.1 leap
  have valid := instant.valid
  unfold fraction nanosPerSecond
  omega

theorem fraction_of_not_isLeap {instant : Instant} (early : ¬ instant.isLeap = true) :
    instant.nano = instant.fraction :=
  (Nat.mod_eq_of_lt (Nat.lt_of_not_le (mt isLeap_iff.2 early))).symm

theorem fraction_of_isWhole {instant : Instant} (whole : instant.IsWhole) :
    instant.fraction = 0 := by
  unfold IsWhole at whole
  split at whole
  next => rw [fraction, whole, Nat.mod_self]
  next => rw [fraction, whole, Nat.zero_mod]

/-- What a leap second adds to the seconds that the clock counts between two instants: one if it
comes at an earlier second of the day than the other instant, counted forwards or backwards. -/
theorem nanosBetween_eq (first second : Instant) : ∃ leap : Int,
    nanosBetween first second = ((second.day - first.day) * 86400 +
      ((second.second : Int) - first.second) + leap) * 1000000000 +
        ((second.nano : Int) - first.nano) ∧
    (leap = 1 ∧ first.second < second.second ∧ first.isLeap = true ∨
      leap = -1 ∧ second.second < first.second ∧ second.isLeap = true ∨
      leap = 0 ∧ (first.second < second.second → ¬ first.isLeap = true) ∧
        (second.second < first.second → ¬ second.isLeap = true)) := by
  by_cases counted : first.second < second.second ∧ first.isLeap = true
  · refine ⟨1, ?_, Or.inl ⟨rfl, counted⟩⟩
    simp only [nanosBetween, if_pos counted]
    rfl
  · by_cases taken : second.second < first.second ∧ second.isLeap = true
    · refine ⟨-1, ?_, Or.inr (Or.inl ⟨rfl, taken⟩)⟩
      simp only [nanosBetween, if_neg counted, if_pos taken]
      rfl
    · refine ⟨0, ?_, Or.inr (Or.inr ⟨rfl, not_and.1 counted, not_and.1 taken⟩)⟩
      simp only [nanosBetween, if_neg counted, if_neg taken]
      rfl

/-! ## The sign of elapsed time -/

/-- The first instant lies in a leap second that ends a day, and the second one in the first
second of the next day. -/
def MeetsAtMidnight (leap next : Instant) : Prop :=
  leap.isLeap = true ∧ leap.second = 86399 ∧ next.second = 0 ∧ next.day = leap.day + 1

instance (leap next : Instant) : Decidable (MeetsAtMidnight leap next) := by
  unfold MeetsAtMidnight; infer_instance

/-- Two instants meet at midnight and their fractions are not in their order; the same fraction
after midnight does not count as a later one. -/
def Disputed (start stop : Instant) : Prop :=
  MeetsAtMidnight start stop ∧ stop.fraction < start.fraction ∨
    MeetsAtMidnight stop start ∧ start.fraction ≤ stop.fraction

instance (start stop : Instant) : Decidable (Disputed start stop) := by
  unfold Disputed; infer_instance

theorem MeetsAtMidnight.ordered {leap next : Instant} (meets : MeetsAtMidnight leap next) :
    NotAfter leap next ∧ ¬ NotAfter next leap := by
  rcases meets with ⟨-, -, -, day⟩
  unfold NotAfter Before
  omega

/-- From a leap second to the midnight after it no second is counted, in either direction. -/
theorem MeetsAtMidnight.nanosBetween {leap next : Instant} (meets : MeetsAtMidnight leap next) :
    nanosBetween leap next = (next.fraction : Int) - leap.fraction ∧
      nanosBetween next leap = (leap.fraction : Int) - next.fraction := by
  rcases meets with ⟨isLeap, last, midnight, day⟩
  have early : ¬ next.isLeap = true := by
    intro leap
    have ends := second_of_isLeap leap
    omega
  have leapNano := fraction_of_isLeap isLeap
  have nextNano := fraction_of_not_isLeap early
  rcases nanosBetween_eq leap next with ⟨forth, total, forthCases⟩
  rcases nanosBetween_eq next leap with ⟨back, backTotal, backCases⟩
  rw [total, backTotal]
  simp only [isLeap_iff] at early forthCases backCases
  omega

/-- Away from midnight the time between two instants is negative exactly if they are out of
order. -/
theorem nanosBetween_nonneg_iff_of_apart (apart : ¬ MeetsAtMidnight first second)
    (apartBack : ¬ MeetsAtMidnight second first) :
    0 ≤ nanosBetween first second ↔ NotAfter first second := by
  have firstValid := first.valid
  have secondValid := second.valid
  rcases nanosBetween_eq first second with ⟨leap, total, cases⟩
  rw [total]
  unfold MeetsAtMidnight at apart apartBack
  unfold NotAfter Before
  simp only [isLeap_iff] at apart apartBack cases
  omega

/-- The sign of the time between two instants tells their order exactly if that is not
disputed. -/
theorem nanosBetween_nonneg_iff_notAfter_iff :
    (0 ≤ nanosBetween first second ↔ NotAfter first second) ↔ ¬ Disputed first second := by
  unfold Disputed
  by_cases meets : MeetsAtMidnight first second
  · have once : ¬ MeetsAtMidnight second first := fun back => meets.ordered.2 back.ordered.1
    rw [meets.nanosBetween.1]
    simp only [meets, once, meets.ordered.1, true_and, false_and, or_false, iff_true]
    omega
  · by_cases back : MeetsAtMidnight second first
    · rw [back.nanosBetween.2]
      simp only [meets, back, back.ordered.2, true_and, false_and, false_or, iff_false]
      omega
    · simp only [meets, back, false_and, or_self, not_false_eq_true, iff_true]
      exact nanosBetween_nonneg_iff_of_apart meets back

/-- The time between two instants in whole seconds that are in order. -/
theorem nanosBetween_nonneg (firstWhole : first.IsWhole) (secondWhole : second.IsWhole)
    (ordered : NotAfter first second) : 0 ≤ nanosBetween first second := by
  refine (nanosBetween_nonneg_iff_notAfter_iff.2 ?_).2 ordered
  rintro (⟨-, later⟩ | ⟨back, -⟩)
  · rw [fraction_of_isWhole firstWhole, fraction_of_isWhole secondWhole] at later
    exact absurd later (Nat.lt_irrefl 0)
  · exact back.ordered.2 ordered

theorem elapsed64?_eq_some_iff {nanos : UInt64} :
    elapsed64? first second = some nanos ↔
      nanosBetween first second = nanos.toNat ∧ nanosBetween first second < 2 ^ 63 := by
  have size := nanos.toNat_lt
  unfold elapsed64? signed64?
  by_cases fits : -0x8000000000000000 ≤ nanosBetween first second ∧
      nanosBetween first second < 0x8000000000000000
  · simp only [if_pos fits]
    by_cases positive : 0 ≤ nanosBetween first second
    · rw [if_pos positive, Option.some.injEq, ← UInt64.toNat_inj,
        UInt64.toNat_ofNat_of_lt' (by unfold UInt64.size; omega)]
      omega
    · simp only [if_neg positive]
      exact ⟨fun none => (by cases none), fun both => by omega⟩
  · simp only [if_neg fits]
    exact ⟨fun none => (by cases none), fun both => by omega⟩

/-- Instants in whole seconds that are in order have an elapsed time unless it is too long. -/
theorem isSome_elapsed64?_iff (firstWhole : first.IsWhole) (secondWhole : second.IsWhole)
    (ordered : NotAfter first second) :
    (elapsed64? first second).isSome ↔
      -2 ^ 63 ≤ nanosBetween first second ∧ nanosBetween first second < 2 ^ 63 := by
  have positive := nanosBetween_nonneg firstWhole secondWhole ordered
  rw [Option.isSome_iff_exists]
  constructor
  · rintro ⟨nanos, elapsed⟩
    have fits := (elapsed64?_eq_some_iff.1 elapsed).2
    omega
  · rintro ⟨-, fits⟩
    refine ⟨UInt64.ofNat (nanosBetween first second).toNat, elapsed64?_eq_some_iff.2 ⟨?_, fits⟩⟩
    rw [UInt64.toNat_ofNat_of_lt' (by unfold UInt64.size; omega)]
    omega

end Instant
end ContainerBuild
