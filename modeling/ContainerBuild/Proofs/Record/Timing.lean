import ContainerBuild.Proofs.Record.Lifecycle
import Mathlib.Algebra.Group.Int.Defs
import Mathlib.Algebra.Group.Nat.Defs

namespace ContainerBuild

/-!
# What is off about the times of a build

A record with both of its times has two ways to tell whether they are in order: the report
compares the instants, and the elapsed time is there if it is not negative.  They agree but where
a day ends with a leap second (`elapsed?_agrees_iff`).

For times in order the report compares the recorded duration with the elapsed time, within a
tolerance of a second.  That goes through a signed integer of 64 bits; a time that does not fit,
as after 292 years, is taken for the greatest unsigned integer (`durationMismatch_mem_iff`).
-/

open Instant (NotAfter Disputed MeetsAtMidnight nanosBetween)

/-- An anomaly that a report can only find by comparing times. -/
def Anomaly.IsTemporal : Anomaly → Prop
  | .completionBeforeStart _ _ | .durationMismatch _ _ => True
  | _ => False

namespace Record

variable {record : Record} {start completion : Timestamp}

theorem mem_anomalies_iff_of_isTemporal {anomaly : Anomaly} (temporal : anomaly.IsTemporal) :
    anomaly ∈ record.anomalies ↔ timeAnomaly? record.status = some anomaly := by
  rw [mem_anomalies_iff]
  refine ⟨?_, fun time => Or.inr (Or.inr (Or.inl time))⟩
  rintro (reason | missing | time | output)
  · rcases eq_of_reasonAnomaly? reason with ⟨_, _, rfl⟩
    cases temporal
  · unfold completionAnomaly? at missing
    split at missing
    · rw [← Option.some.inj missing] at temporal
      cases temporal
    · cases missing
  · exact time
  · rcases eq_of_outputAnomaly? output with ⟨_, _, rfl⟩
    cases temporal

/-! ## The order of times -/

/-- The report has the times of a record exactly if they are out of order. -/
theorem completionBeforeStart_mem_iff (started : record.status.started = some start)
    (completed : record.status.completed = some completion) {first last : Instant} :
    .completionBeforeStart first last ∈ record.anomalies ↔
      ¬ NotAfter start.instant completion.instant ∧
        first = start.instant ∧ last = completion.instant := by
  have temporal : (Anomaly.completionBeforeStart first last).IsTemporal := trivial
  rw [mem_anomalies_iff_of_isTemporal temporal, timeAnomaly?_eq started completed, NotAfter,
    Decidable.not_not]
  split
  next before => simp [before, eq_comm]
  next notBefore =>
    simp only [notBefore, false_and, iff_false]
    intro found
    rcases Option.bind_eq_some_iff.1 found with ⟨recorded, -, mismatch⟩
    split at mismatch <;> cases mismatch

theorem isSome_elapsed?_iff (started : record.status.started = some start)
    (completed : record.status.completed = some completion) :
    record.status.elapsed?.isSome ↔ 0 ≤ nanosBetween start.instant completion.instant := by
  simp only [Status.elapsed?, started, completed, bind, Option.bind_some]
  split
  next positive => exact ⟨fun _ => positive, fun _ => rfl⟩
  next negative => exact ⟨fun none => (by cases none), fun positive => absurd positive negative⟩

/-- The report tells whether two times are in order, and the elapsed time tells the same exactly
if their order is not disputed at midnight. -/
theorem elapsed?_agrees_iff (started : record.status.started = some start)
    (completed : record.status.completed = some completion) :
    ((∀ first last, .completionBeforeStart first last ∉ record.anomalies) ↔
        NotAfter start.instant completion.instant) ∧
      ((record.status.elapsed?.isSome ↔ NotAfter start.instant completion.instant) ↔
        ¬ Disputed start.instant completion.instant) := by
  constructor
  · simp only [completionBeforeStart_mem_iff started completed]
    constructor
    · intro unreported
      by_contra before
      exact unreported _ _ ⟨before, rfl, rfl⟩
    · exact fun ordered _ _ reported => reported.1 ordered
  · rw [isSome_elapsed?_iff started completed]
    exact Instant.nanosBetween_nonneg_iff_notAfter_iff

/-- A build that failed, with its times and its duration. -/
def failedBetween (start completion : Timestamp) (duration : UInt64) : Record :=
  { fresh "b-1" "worker" (.ofStrategy (.ofKind "Custom")) .epoch with
    status := { Status.ofPhase .failed with
      started := some start
      completed := some completion
      duration := some duration } }

theorem inRange_endOf2016 : Instant.firstDay ≤ 17166 ∧ 17166 ≤ Instant.lastDay := by decide

theorem inRange_startOf2017 : Instant.firstDay ≤ 17167 ∧ 17167 ≤ Instant.lastDay := by decide

/-- A quarter of a second into the leap second at the end of 2016. -/
def earlyInLeapSecond : Timestamp :=
  ⟨"2016-12-31T23:59:60.250Z", ⟨17166, 86399, 1250000000, by decide, inRange_endOf2016⟩⟩

/-- Half a second later. -/
def lateInLeapSecond : Timestamp :=
  ⟨"2016-12-31T23:59:60.750Z", ⟨17166, 86399, 1750000000, by decide, inRange_endOf2016⟩⟩

/-- Half a second into 2017. -/
def intoNewYear : Timestamp :=
  ⟨"2017-01-01T00:00:00.500Z", ⟨17167, 0, 500000000, by decide, inRange_startOf2017⟩⟩

theorem elapsed?_agrees_iff_overNewYear :
    let record := failedBetween earlyInLeapSecond intoNewYear 0
    MeetsAtMidnight earlyInLeapSecond.instant intoNewYear.instant ∧
      (∀ first last, .completionBeforeStart first last ∉ record.anomalies) ∧
      record.status.elapsed?.isSome := by
  intro record
  have started : record.status.started = some earlyInLeapSecond := rfl
  have agrees := elapsed?_agrees_iff started rfl
  have ordered : NotAfter earlyInLeapSecond.instant intoNewYear.instant := by decide
  exact ⟨by decide, agrees.1.2 ordered, (agrees.2.2 (by decide)).2 ordered⟩

/-- A build that ends in a leap second, half a second before the midnight that it started at. -/
def backOverMidnight : Record := failedBetween intoNewYear lateInLeapSecond 0

/-- A build that runs from that leap second to that midnight. -/
def overMidnight : Record := failedBetween lateInLeapSecond intoNewYear 0

/-- A build can have an elapsed time although it is reported to end before it started, and can
have none although it is not. -/
theorem elapsed?_disagrees_at_midnight :
    Timestamp.parse lateInLeapSecond.raw = .ok lateInLeapSecond ∧
    Timestamp.parse intoNewYear.raw = .ok intoNewYear ∧
    (.completionBeforeStart intoNewYear.instant lateInLeapSecond.instant ∈
        backOverMidnight.anomalies ∧ backOverMidnight.status.elapsed? = some 250000000) ∧
    (∀ first last, .completionBeforeStart first last ∉ overMidnight.anomalies) ∧
      overMidnight.status.elapsed? = none := by
  have anomalies : overMidnight.anomalies = [.durationMismatch 0 18446744073709551615] := by
    decide +kernel
  refine ⟨by decide +kernel, by decide +kernel, ⟨by decide, by decide⟩, ?_, by decide⟩
  intro first last reported
  rw [anomalies] at reported
  simp at reported

/-! ## The duration -/

theorem distance_eq (a b : UInt64) : distance a b = ((a.toNat : Int) - b.toNat).natAbs := by
  unfold distance
  split
  next le =>
    have le := UInt64.le_iff_toNat_le.1 le
    omega
  next gt =>
    have gt := UInt64.lt_iff_toNat_lt.1 (UInt64.not_le.1 gt)
    omega

/-- The elapsed time is exact if it fits and is not negative. -/
theorem toNat_computedDuration {first last : Instant} (positive : 0 ≤ nanosBetween first last)
    (fits : nanosBetween first last < 2 ^ 63) :
    ((computedDuration first last).toNat : Int) = nanosBetween first last := by
  have small : (nanosBetween first last).toNat < UInt64.size := by
    unfold UInt64.size
    omega
  have elapsed : Instant.elapsed64? first last =
      some (UInt64.ofNat (nanosBetween first last).toNat) := by
    rw [Instant.elapsed64?_eq_some_iff, UInt64.toNat_ofNat_of_lt' small]
    omega
  rw [computedDuration, elapsed, Option.getD_some, UInt64.toNat_ofNat_of_lt' small]
  omega

theorem computedDuration_of_unfit {first last : Instant}
    (unfit : ¬ (0 ≤ nanosBetween first last ∧ nanosBetween first last < 2 ^ 63)) :
    computedDuration first last = UInt64.ofNat (UInt64.size - 1) := by
  have none : Instant.elapsed64? first last = none := by
    rw [Option.eq_none_iff_forall_ne_some]
    intro nanos elapsed
    rcases Instant.elapsed64?_eq_some_iff.1 elapsed with ⟨same, fits⟩
    exact unfit ⟨by omega, fits⟩
  rw [computedDuration, none]
  rfl

/-- For times in order the report compares the recorded duration with the computed one. -/
theorem durationMismatch_mem_iff_computed (started : record.status.started = some start)
    (completed : record.status.completed = some completion)
    (ordered : NotAfter start.instant completion.instant) {recorded : UInt64}
    (timed : record.status.duration = some recorded) {told computed : UInt64} :
    .durationMismatch told computed ∈ record.anomalies ↔
      told = recorded ∧ computed = computedDuration start.instant completion.instant ∧
        nanosPerSecond ≤ ((recorded.toNat : Int) - computed.toNat).natAbs := by
  have temporal : (Anomaly.durationMismatch told computed).IsTemporal := trivial
  rw [mem_anomalies_iff_of_isTemporal temporal, timeAnomaly?_eq started completed,
    if_neg ordered, timed, Option.bind_some, ← distance_eq]
  split
  next far =>
    rw [Option.some.injEq, Anomaly.durationMismatch.injEq]
    constructor
    · rintro ⟨rfl, rfl⟩
      exact ⟨rfl, rfl, far⟩
    · rintro ⟨rfl, rfl, -⟩
      exact ⟨rfl, rfl⟩
  next near =>
    refine ⟨fun none => (by cases none), ?_⟩
    rintro ⟨rfl, rfl, far⟩
    exact absurd far near

/-- For times in order the report has the duration exactly if that is off by a second or more,
together with the exact elapsed time.  Where that is negative, or does not fit a signed integer of
64 bits, the greatest unsigned integer stands for it. -/
theorem durationMismatch_mem_iff (started : record.status.started = some start)
    (completed : record.status.completed = some completion)
    (ordered : NotAfter start.instant completion.instant) {recorded : UInt64}
    (timed : record.status.duration = some recorded) :
    let elapsed := nanosBetween start.instant completion.instant
    (0 ≤ elapsed ∧ elapsed < 2 ^ 63 → ∀ told computed,
      .durationMismatch told computed ∈ record.anomalies ↔
        told = recorded ∧ (computed.toNat : Int) = elapsed ∧
          10 ^ 9 ≤ ((recorded.toNat : Int) - elapsed).natAbs) ∧
    (¬ (0 ≤ elapsed ∧ elapsed < 2 ^ 63) → ∀ told computed,
      .durationMismatch told computed ∈ record.anomalies ↔
        told = recorded ∧ computed.toNat = 2 ^ 64 - 1 ∧
          recorded.toNat + 10 ^ 9 ≤ 2 ^ 64 - 1) := by
  intro elapsed
  constructor
  · rintro ⟨positive, fits⟩ told computed
    have same : ((computedDuration start.instant completion.instant).toNat : Int) = elapsed :=
      toNat_computedDuration positive fits
    rw [durationMismatch_mem_iff_computed started completed ordered timed,
      ← @UInt64.toNat_inj computed]
    refine and_congr_right fun _ => ?_
    unfold nanosPerSecond
    omega
  · intro unfit told computed
    have greatest : (computedDuration start.instant completion.instant).toNat = 2 ^ 64 - 1 := by
      rw [computedDuration_of_unfit unfit]
      rfl
    have bound := recorded.toNat_lt
    rw [durationMismatch_mem_iff_computed started completed ordered timed,
      ← @UInt64.toNat_inj computed]
    refine and_congr_right fun _ => ?_
    unfold nanosPerSecond
    omega

theorem durationMismatch_mem_iff_overNewYear :
    let record := failedBetween earlyInLeapSecond intoNewYear 1250000000
    nanosBetween earlyInLeapSecond.instant intoNewYear.instant = 250000000 ∧
      .durationMismatch 1250000000 250000000 ∈ record.anomalies := by
  intro record
  have started : record.status.started = some earlyInLeapSecond := rfl
  have ordered : NotAfter earlyInLeapSecond.instant intoNewYear.instant := by decide
  have mismatch := (durationMismatch_mem_iff started rfl ordered rfl).1 (by decide)
  exact ⟨by decide, (mismatch _ _).2 ⟨rfl, by decide, by decide⟩⟩

/-- The first moment of 2000. -/
def millennium : Timestamp :=
  ⟨"2000-01-01T00:00:00Z", ⟨10957, 0, 0, Instant.epoch.valid, by decide⟩⟩

/-- Three hundred years later. -/
def threeCenturiesLater : Timestamp :=
  ⟨"2300-01-01T00:00:00Z", ⟨120530, 0, 0, Instant.epoch.valid, by decide⟩⟩

/-- A duration that is right to the nanosecond can be reported to be off. -/
theorem durationMismatch_of_exact_duration :
    Timestamp.parse millennium.raw = .ok millennium ∧
    Timestamp.parse threeCenturiesLater.raw = .ok threeCenturiesLater ∧
    NotAfter millennium.instant threeCenturiesLater.instant ∧
    nanosBetween millennium.instant threeCenturiesLater.instant = 9467107200000000000 ∧
    .durationMismatch 9467107200000000000 18446744073709551615 ∈
      (failedBetween millennium threeCenturiesLater 9467107200000000000).anomalies := by
  exact ⟨by decide +kernel, by decide +kernel, by decide, by decide, by decide⟩

end Record
end ContainerBuild
