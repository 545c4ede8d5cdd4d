import ContainerBuild.Proofs.Record.Codec
import ContainerBuild.Proofs.Record.Lifecycle

namespace ContainerBuild

/-!
# Builds that end

A build is stamped in whole seconds when it ends, while the start that it was decoded with may
have a fraction.  So the stamp fits the start but for one case: within the second in which the
build started, a fraction of the start is after the stamp (`anomalies_of_ending`).

Every build in a phase that has a meaning here can be stopped until it has ended.  A phase of
another name has no edges: a build in it is not over, and no call moves it
(`stoppable_of_familiar`).
-/

open Instant (NotAfter)

theorem Phase.mem_underway_iff {phase : Phase} : phase ∈ [.new, .pending, .running] ↔
    phase.isFamiliar = true ∧ phase.isTerminal = false := by
  cases phase <;> simp [isFamiliar, isTerminal]

theorem Phase.isFamiliar_of_leadsTo {source target : Phase} (edge : source.LeadsTo target) :
    source.isFamiliar = true := by
  cases edge with
  | stop underway _ => exact (mem_underway_iff.1 underway).1
  | _ => rfl

namespace Record

/-! ## The times of an end -/

/-- An accepted call that ends a build stamps its completion and times it. -/
theorem timed_of_ending {record moved : Record} {call : Call}
    (ends : call.target.isTerminal = true) (answered : call.answer record = .ok moved) :
    moved.status.started = record.status.started ∧
      moved.status.completed = some (.stamp call.instant) ∧
      moved.status.duration = record.status.started.bind fun start =>
        Instant.elapsed64? start.instant call.instant.truncate := by
  have stepped : record.step call = moved := by rw [step, answered]
  have notRunning : call.target ≠ .running := by
    intro running
    rw [running] at ends
    cases ends
  rcases step_cases record call with ⟨⟨fault, rejected⟩, -, -⟩ | ⟨-, -, reason, message, same⟩
  · rw [rejected] at answered
    cases answered
  · have started : (movedStatus record.status call.target call.instant).started =
        record.status.started := by rw [movedStatus_started, if_neg notRunning]
    rw [← stepped, same]
    refine ⟨started, ?_, ?_⟩
    · exact (movedStatus_completed _ _ _).trans (if_pos ends)
    · refine (movedStatus_duration _ _ _).trans ?_
      rw [if_pos ends, started]

/-- All that can be off about the times of a build that a call has ended is their order. -/
theorem timeAnomaly?_of_ending {record moved : Record} {call : Call}
    (ends : call.target.isTerminal = true) (answered : call.answer record = .ok moved)
    (anomaly : Anomaly) : timeAnomaly? moved.status = some anomaly ↔
      ∃ time ∈ record.status.started, call.instant.truncate.Before time.instant ∧
        anomaly = .completionBeforeStart time.instant call.instant.truncate := by
  rcases timed_of_ending ends answered with ⟨started, completed, timed⟩
  cases began : record.status.started with
  | none => simp [timeAnomaly?, started, began]
  | some time =>
      rw [began] at started timed
      rw [timeAnomaly?_of_timed started completed timed]
      change (if call.instant.truncate.Before time.instant then
        some (Anomaly.completionBeforeStart time.instant call.instant.truncate) else none) = _ ↔ _
      split
      next before => simp [before, eq_comm]
      next notBefore => simp [notBefore]

/-- A build that ends no earlier than it started has a completion and the right duration.  Its
completion is before its start exactly if the two share a second of which the start has a
fraction. -/
theorem anomalies_of_ending {record moved : Record} {call : Call}
    (ends : call.target.isTerminal = true)
    (later : ∀ start ∈ record.status.started, NotAfter start.instant call.instant)
    (answered : call.answer record = .ok moved) :
    (∀ phase, .missingCompletion phase ∉ moved.anomalies) ∧
      (∀ recorded computed, .durationMismatch recorded computed ∉ moved.anomalies) ∧
      ∀ start completion, .completionBeforeStart start completion ∈ moved.anomalies ↔
        (∃ time ∈ record.status.started, time.instant = start) ∧
          completion = call.instant.truncate ∧
          start.truncate = call.instant.truncate ∧ ¬ start.IsWhole := by
  have times := timeAnomaly?_of_ending ends answered
  have said : ∀ anomaly ∈ moved.anomalies,
      (∃ phase reason, anomaly = .phaseReasonMismatch phase reason) ∨
        (∃ requested resolved, anomaly = .outputReferenceMismatch requested resolved) ∨
          ∃ time ∈ record.status.started, call.instant.truncate.Before time.instant ∧
            anomaly = .completionBeforeStart time.instant call.instant.truncate := by
    intro anomaly here
    rcases mem_anomalies_iff.1 here with reason | missing | time | output
    · exact Or.inl (eq_of_reasonAnomaly? reason)
    · rw [completionAnomaly?_of_completed (timed_of_ending ends answered).2.1] at missing
      cases missing
    · exact Or.inr (Or.inr ((times anomaly).1 time))
    · exact Or.inr (Or.inl (eq_of_outputAnomaly? output))
  refine ⟨fun phase here => ?_, fun recorded computed here => ?_, fun start completion => ?_⟩
  · rcases said _ here with ⟨_, _, same⟩ | ⟨_, _, same⟩ | ⟨_, -, -, same⟩ <;> cases same
  · rcases said _ here with ⟨_, _, same⟩ | ⟨_, _, same⟩ | ⟨_, -, -, same⟩ <;> cases same
  · constructor
    · intro here
      rcases said _ here with ⟨_, _, same⟩ | ⟨_, _, same⟩ | ⟨time, began, before, same⟩
      · cases same
      · cases same
      · cases same
        exact ⟨⟨time, began, rfl⟩, rfl,
          (Instant.truncate_before_iff (later time began)).1 before⟩
    · rintro ⟨⟨time, began, rfl⟩, rfl, shared⟩
      have before := (Instant.truncate_before_iff (later time began)).2 shared
      exact mem_anomalies_iff.2 (Or.inr (Or.inr (Or.inl
        ((times _).2 ⟨time, began, before, rfl⟩))))

/-- A build that runs since half past a second. -/
def startedWithFraction : String :=
  "\x7b\"apiVersion\":\"v1\",\"kind\":\"Build\",\"metadata\":\x7b\"name\":\"b-1\"\x7d," ++
  "\"spec\":\x7b\"strategy\":\x7b\"type\":\"Custom\"\x7d\x7d," ++
  "\"status\":\x7b\"phase\":\"Running\",\"startTimestamp\":\"2019-10-11T15:23:44.500Z\"\x7d\x7d"

/-- When that build started. -/
def halfPastSecond : Instant := ⟨18180, 55424, 500000000, by decide, by decide⟩

/-- A quarter of a second later. -/
def withinSecondOfStart : Instant := ⟨18180, 55424, 750000000, by decide, by decide⟩

theorem transition_startedWithFraction : ∃ record moved,
    decode startedWithFraction = .ok record ∧ record.phase = .running ∧
      record.transition .complete withinSecondOfStart = .ok moved ∧
      ∃ time, record.status.started = some time ∧ time.instant = halfPastSecond := by
  have evaluated : (decode startedWithFraction).toOption.map (fun record =>
      (record.phase, record.status.started.map Timestamp.instant)) =
      some (.running, some halfPastSecond) := by decide +kernel
  rcases Except.exists_ok_of_map evaluated with ⟨record, decoded, known⟩
  rcases Prod.mk.inj known with ⟨running, started⟩
  have accepted : record.transition .complete withinSecondOfStart = .ok { record with
      status := movedStatus record.status .complete withinSecondOfStart } := by
    rw [transition, running]
    rfl
  exact ⟨record, _, decoded, running, accepted, Option.map_eq_some_iff.1 started⟩

theorem anomalies_of_ending_startedWithFraction : ∃ record moved,
    decode startedWithFraction = .ok record ∧
      record.transition .complete withinSecondOfStart = .ok moved ∧
      (∀ phase, .missingCompletion phase ∉ moved.anomalies) ∧
      .completionBeforeStart halfPastSecond withinSecondOfStart.truncate ∈ moved.anomalies := by
  rcases transition_startedWithFraction with
    ⟨record, moved, decoded, -, answered, time, began, same⟩
  have later : ∀ start ∈ record.status.started, NotAfter start.instant withinSecondOfStart := by
    rw [began]
    rintro start ⟨⟩
    rw [same]
    decide
  have ends : (Call.transition .complete withinSecondOfStart).target.isTerminal = true := rfl
  have ending := anomalies_of_ending ends later answered
  exact ⟨record, moved, decoded, answered, ending.1,
    (ending.2.2 _ _).2 ⟨⟨time, began, same⟩, rfl, by decide, by decide⟩⟩

/-- A build that ends no earlier than it started can have an anomaly of its times. -/
theorem completion_before_start : ∃ record moved,
    decode startedWithFraction = .ok record ∧ record.phase.isTerminal = false ∧
      (∀ start ∈ record.status.started, NotAfter start.instant withinSecondOfStart) ∧
      record.transition .complete withinSecondOfStart = .ok moved ∧
      ∃ start completion, .completionBeforeStart start completion ∈ moved.anomalies := by
  rcases transition_startedWithFraction with
    ⟨record, moved, decoded, running, answered, time, began, same⟩
  have later : ∀ start ∈ record.status.started, NotAfter start.instant withinSecondOfStart := by
    rw [began]
    rintro start ⟨⟩
    rw [same]
    decide
  have before : withinSecondOfStart.truncate.Before time.instant := by
    rw [same]
    decide
  have ends : (Call.transition .complete withinSecondOfStart).target.isTerminal = true := rfl
  have anomaly := (timeAnomaly?_of_ending ends answered _).2 ⟨time, began, before, rfl⟩
  exact ⟨record, moved, decoded, by rw [running]; rfl, later, answered, _, _,
    mem_anomalies_iff.2 (Or.inr (Or.inr (Or.inl anomaly)))⟩

/-! ## Builds that can be stopped -/

/-- A build that is not over can be stopped in every way if its phase has a meaning here; in a
phase of another name no call moves it. -/
theorem stoppable_of_familiar {record : Record} (underway : record.phase.isTerminal = false)
    (instant : Instant) :
    (record.phase.isFamiliar = true → ∀ target ∈ [.failed, .error, .cancelled],
      ∃ moved, record.transition target instant = .ok moved ∧ moved.phase = target) ∧
      (record.phase.isFamiliar = false → ∀ target, record.transition target instant =
        .error (.invalid (record.metadata.name.getD "") record.phase target)) := by
  have notTerminal : ¬ record.phase.isTerminal = true := Bool.eq_false_iff.1 underway
  constructor
  · intro familiar target stopped
    have edge := Phase.LeadsTo.stop (Phase.mem_underway_iff.2 ⟨familiar, underway⟩) stopped
    have accepted : record.transition target instant =
        .ok { record with status := movedStatus record.status target instant } := by
      rw [transition, if_neg notTerminal, if_pos (Phase.canBecome_iff.2 edge)]
    exact ⟨_, accepted, movedStatus_phase record.status target instant⟩
  · intro unfamiliar target
    have refused : ¬ record.phase.canBecome target = true := by
      intro allowed
      have familiar := Phase.isFamiliar_of_leadsTo (Phase.canBecome_iff.1 allowed)
      rw [unfamiliar] at familiar
      cases familiar
    rw [transition, if_neg notTerminal, if_neg refused]

/-- A build that some other tool has put on hold. -/
def paused : String :=
  "\x7b\"apiVersion\":\"v1\",\"kind\":\"Build\",\"metadata\":\x7b\"name\":\"b-1\"\x7d," ++
  "\"spec\":\x7b\"strategy\":\x7b\"type\":\"Custom\"\x7d\x7d," ++
  "\"status\":\x7b\"phase\":\"Paused\"\x7d\x7d"

theorem stoppable_of_familiar_running : ∃ record moved,
    decode startedWithFraction = .ok record ∧
      record.transition .cancelled halfPastSecond = .ok moved ∧ moved.phase = .cancelled := by
  rcases transition_startedWithFraction with ⟨record, -, decoded, running, -⟩
  have underway : record.phase.isTerminal = false := by rw [running]; rfl
  have familiar : record.phase.isFamiliar = true := by rw [running]; rfl
  rcases (stoppable_of_familiar underway halfPastSecond).1 familiar .cancelled (by decide) with
    ⟨moved, answered, cancelled⟩
  exact ⟨record, moved, decoded, answered, cancelled⟩

/-- A build that is not over can refuse to be cancelled. -/
theorem cancelled_paused_refused : ∃ record, decode paused = .ok record ∧
    record.phase.isTerminal = false ∧
      ∃ fault, record.transition .cancelled halfPastSecond = .error fault := by
  have evaluated : (decode paused).toOption.map (fun record =>
      (record.phase.isTerminal, (record.transition .cancelled halfPastSecond).toOption.isNone)) =
      some (false, true) := by decide +kernel
  rcases Except.exists_ok_of_map evaluated with ⟨record, decoded, known⟩
  rcases Prod.mk.inj known with ⟨underway, refused⟩
  refine ⟨record, decoded, underway, ?_⟩
  cases answered : record.transition .cancelled halfPastSecond with
  | error fault => exact ⟨fault, rfl⟩
  | ok moved =>
      rw [answered] at refused
      cases refused

end Record
end ContainerBuild
