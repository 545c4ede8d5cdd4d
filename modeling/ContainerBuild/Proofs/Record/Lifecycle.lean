import ContainerBuild.Proofs.Time.Elapsed
import ContainerBuild.Record.Anomaly
import ContainerBuild.Record.Lifecycle
import Mathlib.Data.List.Induction

namespace ContainerBuild

/-!
# Builds that only move along their lifecycle

A run is a list of calls that try to move a new build, each at an instant of a clock that does
not go back.  What a call does to a record is said once (`step_cases`); the times of the status
fit its phase in the beginning and a call keeps it so (`Consistent.movedStatus`).  From that
follows what holds after every run (`lifecycle_orderly`).
-/

open Instant (NotAfter)

/-- The edges of the lifecycle. -/
inductive Phase.LeadsTo : Phase → Phase → Prop where
  | schedule : LeadsTo .new .pending
  | start : LeadsTo .pending .running
  | succeed : LeadsTo .running .complete
  | stop {source target : Phase} (underway : source ∈ [.new, .pending, .running])
      (stopped : target ∈ [.failed, .error, .cancelled]) : LeadsTo source target

theorem Phase.canBecome_iff {source target : Phase} :
    source.canBecome target = true ↔ source.LeadsTo target := by
  constructor
  · intro allowed
    cases source <;> cases target <;>
      first
        | exact .schedule
        | exact .start
        | exact .succeed
        | exact .stop (by decide) (by decide)
        | cases allowed
  · intro edge
    cases edge with
    | stop underway stopped =>
        simp only [List.mem_cons, List.not_mem_nil, or_false] at underway stopped
        rcases underway with rfl | rfl | rfl <;> rcases stopped with rfl | rfl | rfl <;> rfl
    | _ => rfl

theorem Phase.not_leadsTo_of_isTerminal {source target : Phase}
    (terminal : source.isTerminal = true) : ¬ source.LeadsTo target := by
  intro edge
  cases edge with
  | stop underway _ =>
      simp only [List.mem_cons, List.not_mem_nil, or_false] at underway
      rcases underway with rfl | rfl | rfl <;> cases terminal
  | _ => cases terminal

theorem Phase.eq_running_of_leadsTo_complete {source : Phase} (edge : source.LeadsTo .complete) :
    source = .running := by
  cases edge with
  | succeed => rfl
  | stop _ stopped => simp at stopped

namespace Record

/-! ## Calls -/

/-- A call that tries to move a build. -/
inductive Call where
  | transition (target : Phase) (instant : Instant)
  | finishWithReason (target : Phase) (reason : String) (message : Option String)
      (instant : Instant)

namespace Call

/-- The phase that a call asks for. -/
def target : Call → Phase
  | .transition target _ => target
  | .finishWithReason target _ _ _ => target

/-- What the clock shows at a call. -/
def instant : Call → Instant
  | .transition _ instant => instant
  | .finishWithReason _ _ _ instant => instant

/-- What a call answers. -/
def answer (record : Record) : Call → Except TransitionError Record
  | .transition target instant => record.transition target instant
  | .finishWithReason target reason message instant =>
      record.finishWithReason target reason message instant

/-- What a call that moves a build says about it on top of the move. -/
def explain (status : Status) : Call → Status
  | .transition _ _ => status
  | .finishWithReason _ reason message _ =>
      { status with reason := some reason, message := message }

theorem exists_explain_eq (status : Status) (call : Call) : ∃ reason message,
    call.explain status = { status with reason := reason, message := message } := by
  cases call with
  | transition _ _ => exact ⟨status.reason, status.message, rfl⟩
  | finishWithReason _ reason message _ => exact ⟨some reason, message, rfl⟩

end Call

/-- The record after a call; a rejected call leaves it as it was. -/
def step (record : Record) (call : Call) : Record :=
  match call.answer record with
  | .ok moved => moved
  | .error _ => record

/-- The record after calls. -/
def afterCalls (record : Record) (calls : List Call) : Record := calls.foldl step record

theorem afterCalls_append (record : Record) (calls more : List Call) :
    record.afterCalls (calls ++ more) = (record.afterCalls calls).afterCalls more :=
  List.foldl_append

theorem afterCalls_concat (record : Record) (calls : List Call) (call : Call) :
    record.afterCalls (calls ++ [call]) = (record.afterCalls calls).step call :=
  afterCalls_append record calls [call]

/-- Both calls fail where the move itself does. -/
theorem Call.answer_of_error {record : Record} {call : Call} {fault : TransitionError}
    (rejected : record.transition call.target call.instant = .error fault) :
    call.answer record = .error fault := by
  cases call with
  | transition target instant => exact rejected
  | finishWithReason target reason message instant =>
      change record.transition target instant = _ at rejected
      change (record.transition target instant >>= _) = _
      rw [rejected]
      rfl

/-- Both calls move the build, and all that one of them adds is a reason. -/
theorem Call.answer_of_moved {record : Record} {call : Call} {status : Status}
    (moved : record.transition call.target call.instant = .ok { record with status := status }) :
    call.answer record = .ok { record with status := call.explain status } := by
  cases call with
  | transition target instant => exact moved
  | finishWithReason target reason message instant =>
      change record.transition target instant = _ at moved
      change (record.transition target instant >>= _) = _
      rw [moved]
      rfl

theorem answer_of_terminal {record : Record} (terminal : record.phase.isTerminal = true)
    (call : Call) :
    call.answer record = .error (.frozen (record.metadata.name.getD "") record.phase) :=
  Call.answer_of_error (if_pos terminal)

theorem step_of_terminal {record : Record} (terminal : record.phase.isTerminal = true)
    (call : Call) : record.step call = record := by
  rw [step, answer_of_terminal terminal]

theorem afterCalls_of_terminal {record : Record} (terminal : record.phase.isTerminal = true)
    (calls : List Call) : record.afterCalls calls = record := by
  induction calls with
  | nil => rfl
  | cons call rest inductionHypothesis =>
      change (record.step call).afterCalls rest = record
      rw [step_of_terminal terminal, inductionHypothesis]

/-- A call that asks for an edge is accepted. -/
theorem answer_of_leadsTo {record : Record} {call : Call}
    (edge : record.phase.LeadsTo call.target) : call.answer record = .ok { record with
      status := call.explain (movedStatus record.status call.target call.instant) } := by
  have underway : ¬ record.phase.isTerminal = true := fun terminal =>
    Phase.not_leadsTo_of_isTerminal terminal edge
  apply Call.answer_of_moved
  rw [transition, if_neg underway, if_pos (Phase.canBecome_iff.2 edge)]

/-- A call that asks for no edge is rejected. -/
theorem answer_of_not_leadsTo {record : Record} {call : Call}
    (noEdge : ¬ record.phase.LeadsTo call.target) : ∃ fault, call.answer record = .error fault := by
  by_cases terminal : record.phase.isTerminal = true
  · exact ⟨_, answer_of_terminal terminal call⟩
  · refine ⟨.invalid (record.metadata.name.getD "") record.phase call.target,
      Call.answer_of_error ?_⟩
    rw [transition, if_neg terminal, if_neg (mt Phase.canBecome_iff.1 noEdge)]

/-- A call that asks for no edge is rejected and changes nothing; any other moves the phase along
its edge, stamps the times, and may give a reason. -/
theorem step_cases (record : Record) (call : Call) :
    (∃ fault, call.answer record = .error fault) ∧ ¬ record.phase.LeadsTo call.target ∧
      record.step call = record ∨
    record.phase.isTerminal = false ∧ record.phase.LeadsTo call.target ∧
      ∃ reason message, record.step call = { record with
        status := { movedStatus record.status call.target call.instant with
          reason := reason, message := message } } := by
  by_cases edge : record.phase.LeadsTo call.target
  · have underway : record.phase.isTerminal = false := Bool.eq_false_iff.2 fun terminal =>
      Phase.not_leadsTo_of_isTerminal terminal edge
    rcases call.exists_explain_eq (movedStatus record.status call.target call.instant) with
      ⟨reason, message, same⟩
    exact Or.inr ⟨underway, edge, reason, message, by rw [step, answer_of_leadsTo edge, same]⟩
  · rcases answer_of_not_leadsTo edge with ⟨fault, rejected⟩
    exact Or.inl ⟨⟨fault, rejected⟩, edge, by rw [step, rejected]⟩

/-! ## The status that a move leaves -/

section Moved

variable (status : Status) (target : Phase) (instant : Instant)

theorem movedStatus_phase : (movedStatus status target instant).phase = target := by
  simp only [movedStatus]
  split <;> rfl

theorem movedStatus_started : (movedStatus status target instant).started =
    if target = .running then some (status.started.getD (.stamp instant)) else status.started := by
  simp only [movedStatus]
  split <;> rfl

theorem movedStatus_completed : (movedStatus status target instant).completed =
    if target.isTerminal then some (.stamp instant) else status.completed := by
  simp only [movedStatus]
  split <;> rfl

variable {status target instant} in
/-- A start is kept or stamped. -/
theorem mem_started_of_mem_movedStatus {time : Timestamp}
    (here : time ∈ (movedStatus status target instant).started) :
    time ∈ status.started ∨ time = .stamp instant := by
  rw [movedStatus_started] at here
  split at here
  · cases found : status.started with
    | none =>
        rw [found] at here
        exact Or.inr (Option.some.inj here).symm
    | some before =>
        rw [found] at here
        exact Or.inl here
  · exact Or.inl here

variable {status target instant} in
/-- A completion is kept or stamped. -/
theorem mem_completed_of_mem_movedStatus {time : Timestamp}
    (here : time ∈ (movedStatus status target instant).completed) :
    time ∈ status.completed ∨ time = .stamp instant := by
  rw [movedStatus_completed] at here
  split at here
  · exact Or.inr (Option.some.inj here).symm
  · exact Or.inl here

theorem movedStatus_duration : (movedStatus status target instant).duration =
    if target.isTerminal then (movedStatus status target instant).started.bind fun start =>
      Instant.elapsed64? start.instant instant.truncate
    else status.duration := by
  simp only [movedStatus]
  split <;> rfl

theorem movedStatus_config : (movedStatus status target instant).config = status.config := by
  simp only [movedStatus]
  split <;> rfl

theorem movedStatus_extra : (movedStatus status target instant).extra = status.extra := by
  simp only [movedStatus]
  split <;> rfl

end Moved

/-! ## What a report can say -/

theorem mem_anomalies_iff {record : Record} {anomaly : Anomaly} : anomaly ∈ record.anomalies ↔
    reasonAnomaly? record.status = some anomaly ∨
      completionAnomaly? record.status = some anomaly ∨
        timeAnomaly? record.status = some anomaly ∨ outputAnomaly? record = some anomaly := by
  simp only [anomalies, List.mem_append, Option.mem_toList, or_assoc]

theorem eq_of_reasonAnomaly? {status : Status} {anomaly : Anomaly}
    (found : reasonAnomaly? status = some anomaly) :
    ∃ phase reason, anomaly = .phaseReasonMismatch phase reason := by
  unfold reasonAnomaly? at found
  split at found
  · rcases Option.map_eq_some_iff.1 found with ⟨reason, -, rfl⟩
    exact ⟨_, reason, rfl⟩
  · cases found

theorem eq_of_outputAnomaly? {record : Record} {anomaly : Anomaly}
    (found : outputAnomaly? record = some anomaly) :
    ∃ requested resolved, anomaly = .outputReferenceMismatch requested resolved := by
  unfold outputAnomaly? at found
  rcases Option.bind_eq_some_iff.1 found with ⟨requested, -, rest⟩
  rcases Option.bind_eq_some_iff.1 rest with ⟨resolved, -, differs⟩
  split at differs
  · cases differs
  · exact ⟨requested, resolved, (Option.some.inj differs).symm⟩

theorem completionAnomaly?_of_completed {status : Status} {completion : Timestamp}
    (completed : status.completed = some completion) : completionAnomaly? status = none := by
  refine if_neg fun both => ?_
  rw [completed] at both
  exact absurd both.2 Bool.false_ne_true

/-- What can be off about two times is their order, or else their duration. -/
theorem timeAnomaly?_eq {status : Status} {start completion : Timestamp}
    (started : status.started = some start) (completed : status.completed = some completion) :
    timeAnomaly? status =
      if completion.instant.Before start.instant then
        some (.completionBeforeStart start.instant completion.instant)
      else
        status.duration.bind fun recorded =>
          if nanosPerSecond ≤
              distance recorded (computedDuration start.instant completion.instant) then
            some (.durationMismatch recorded
              (computedDuration start.instant completion.instant))
          else none := by
  simp only [timeAnomaly?, started, completed, bind, Option.bind_some]

/-- Of times whose duration is the time between them, only the order can be off. -/
theorem timeAnomaly?_of_timed {status : Status} {start completion : Timestamp}
    (started : status.started = some start) (completed : status.completed = some completion)
    (timed : status.duration = Instant.elapsed64? start.instant completion.instant) :
    timeAnomaly? status =
      if completion.instant.Before start.instant then
        some (.completionBeforeStart start.instant completion.instant)
      else none := by
  rw [timeAnomaly?_eq started completed, timed]
  congr 1
  cases elapsed : Instant.elapsed64? start.instant completion.instant with
  | none => rfl
  | some nanos =>
      have near : ¬ nanosPerSecond ≤ distance nanos nanos := by
        rw [distance, if_pos (UInt64.le_refl nanos), Nat.sub_self]
        decide
      rw [Option.bind_some, computedDuration, elapsed, Option.getD_some, if_neg near]

/-- The times of a status that fit each other and its phase. -/
structure Consistent (status : Status) : Prop where
  completed_iff : status.completed.isSome ↔ status.phase.isTerminal = true
  duration_eq : status.duration = status.completed.bind fun completion =>
    status.started.bind fun start => Instant.elapsed64? start.instant completion.instant
  whole : ∀ start ∈ status.started, start.instant.IsWhole
  completedWhole : ∀ completion ∈ status.completed, completion.instant.IsWhole
  ordered : ∀ start ∈ status.started, ∀ completion ∈ status.completed,
    NotAfter start.instant completion.instant

namespace Consistent

variable {status : Status}

theorem completed_eq_none (consistent : Consistent status)
    (underway : status.phase.isTerminal = false) : status.completed = none := by
  rw [← Option.not_isSome_iff_eq_none, consistent.completed_iff, underway]
  exact Bool.false_ne_true

/-- A build that has just been made has no times. -/
theorem ofPhase_new : Consistent (.ofPhase .new) where
  completed_iff := ⟨fun some => (by cases some), fun ends => (by cases ends)⟩
  duration_eq := rfl
  whole := fun _ here => (by cases here)
  completedWhole := fun _ here => (by cases here)
  ordered := fun _ here => (by cases here)

/-- A move at a time that is not before the start keeps the times consistent. -/
theorem movedStatus (consistent : Consistent status) (underway : status.phase.isTerminal = false)
    {instant : Instant} (later : ∀ start ∈ status.started, NotAfter start.instant instant.truncate)
    (target : Phase) : Consistent (movedStatus status target instant) := by
  have notCompleted := consistent.completed_eq_none underway
  have notTimed : status.duration = none := by
    rw [consistent.duration_eq, notCompleted]
    rfl
  have whole : ∀ start ∈ (Record.movedStatus status target instant).started,
      start.instant.IsWhole := by
    intro start here
    rcases mem_started_of_mem_movedStatus here with old | rfl
    · exact consistent.whole start old
    · exact Instant.isWhole_truncate instant
  have completedWhole : ∀ completion ∈ (Record.movedStatus status target instant).completed,
      completion.instant.IsWhole := by
    intro completion here
    rcases mem_completed_of_mem_movedStatus here with old | rfl
    · exact consistent.completedWhole completion old
    · exact Instant.isWhole_truncate instant
  by_cases terminal : target.isTerminal = true
  · have notRunning : target ≠ .running := by
      rintro rfl
      cases terminal
    have started : (Record.movedStatus status target instant).started = status.started := by
      rw [movedStatus_started, if_neg notRunning]
    have completed : (Record.movedStatus status target instant).completed =
        some (.stamp instant) := by
      rw [movedStatus_completed, if_pos terminal]
    refine ⟨?_, ?_, whole, completedWhole, ?_⟩
    · rw [completed, movedStatus_phase]
      exact ⟨fun _ => terminal, fun _ => rfl⟩
    · rw [movedStatus_duration, if_pos terminal, completed]
      rfl
    · intro start startHere completion here
      rw [started] at startHere
      rw [completed] at here
      rw [← Option.some.inj here]
      exact later start startHere
  · have completed : (Record.movedStatus status target instant).completed = none := by
      rw [movedStatus_completed, if_neg terminal, notCompleted]
    refine ⟨?_, ?_, whole, completedWhole, ?_⟩
    · rw [completed, movedStatus_phase]
      exact ⟨fun some => (by cases some), fun ends => absurd ends terminal⟩
    · rw [movedStatus_duration, if_neg terminal, completed, notTimed]
      rfl
    · intro start startHere completion here
      rw [completed] at here
      cases here

/-- A reason says nothing about the times. -/
theorem withReason (consistent : Consistent status) (reason message : Option String) :
    Consistent { status with reason := reason, message := message } :=
  ⟨consistent.completed_iff, consistent.duration_eq, consistent.whole, consistent.completedWhole,
    consistent.ordered⟩

theorem isSome_duration_iff (consistent : Consistent status) : status.duration.isSome ↔
    status.phase.isTerminal = true ∧ ∃ start ∈ status.started, ∃ completion ∈ status.completed,
      -2 ^ 63 ≤ Instant.nanosBetween start.instant completion.instant ∧
        Instant.nanosBetween start.instant completion.instant < 2 ^ 63 := by
  rw [consistent.duration_eq, ← consistent.completed_iff]
  cases ended : status.completed with
  | none => simp
  | some completion =>
      cases began : status.started with
      | none => simp
      | some start =>
          have fits := Instant.isSome_elapsed64?_iff (consistent.whole start began)
            (consistent.completedWhole completion ended)
            (consistent.ordered start began completion ended)
          simpa using fits

theorem eq_of_duration (consistent : Consistent status) {nanos : UInt64}
    (timed : nanos ∈ status.duration) :
    (∃ start ∈ status.started, ∃ completion ∈ status.completed,
      Instant.nanosBetween start.instant completion.instant = nanos.toNat) ∧
      status.elapsed? = some nanos.toNat := by
  rw [consistent.duration_eq] at timed
  rcases Option.bind_eq_some_iff.1 timed with ⟨completion, ended, rest⟩
  rcases Option.bind_eq_some_iff.1 rest with ⟨start, began, elapsed⟩
  have same := (Instant.elapsed64?_eq_some_iff.1 elapsed).1
  refine ⟨⟨start, began, completion, ended, same⟩, ?_⟩
  simp only [Status.elapsed?, began, ended, same, bind, Option.bind]
  rw [if_pos (Int.natCast_nonneg _), Int.toNat_natCast]

theorem timeAnomaly?_eq_none (consistent : Consistent status) : timeAnomaly? status = none := by
  cases began : status.started with
  | none => rw [timeAnomaly?, began]; rfl
  | some start =>
      cases ended : status.completed with
      | none => rw [timeAnomaly?, began, ended]; rfl
      | some completion =>
          have timed := consistent.duration_eq
          rw [ended, began, Option.bind_some, Option.bind_some] at timed
          rw [timeAnomaly?_of_timed began ended timed,
            if_neg (consistent.ordered start began completion ended)]

theorem completionAnomaly?_eq_none (consistent : Consistent status) :
    completionAnomaly? status = none := by
  refine if_neg fun both => ?_
  have completed := consistent.completed_iff.2 both.1
  rw [Option.isNone_iff_eq_none.1 both.2] at completed
  cases completed

end Consistent

/-- All that can be off about a record with consistent times is not about them. -/
theorem anomalies_of_consistent {record : Record} (consistent : Consistent record.status) :
    ∀ anomaly ∈ record.anomalies,
      (∃ phase reason, anomaly = .phaseReasonMismatch phase reason) ∨
        ∃ requested resolved, anomaly = .outputReferenceMismatch requested resolved := by
  intro anomaly here
  rcases mem_anomalies_iff.1 here with reason | completion | time | output
  · exact Or.inl (eq_of_reasonAnomaly? reason)
  · rw [consistent.completionAnomaly?_eq_none] at completion
    cases completion
  · rw [consistent.timeAnomaly?_eq_none] at time
    cases time
  · exact Or.inr (eq_of_outputAnomaly? output)

/-! ## Runs -/

/-- The clock does not go back between calls. -/
def Ordered (calls : List Call) : Prop :=
  calls.Pairwise fun earlier later => NotAfter earlier.instant later.instant

instance (calls : List Call) : Decidable (Ordered calls) := by unfold Ordered; infer_instance

/-- A state on the way has a phase. -/
def Entered (start : Record) (calls : List Call) (phase : Phase) : Prop :=
  ∃ earlier, earlier <+: calls ∧ (start.afterCalls earlier).phase = phase

theorem entered_concat {start : Record} {calls : List Call} {call : Call} {phase : Phase} :
    Entered start (calls ++ [call]) phase ↔
      Entered start calls phase ∨ (start.afterCalls (calls ++ [call])).phase = phase := by
  constructor
  · rintro ⟨earlier, before, same⟩
    rcases List.prefix_concat_iff.1 before with rfl | before
    · exact Or.inr same
    · exact Or.inl ⟨earlier, before, same⟩
  · rintro (⟨earlier, before, same⟩ | same)
    · exact ⟨earlier, before.trans (List.prefix_append _ _), same⟩
    · exact ⟨_, List.prefix_rfl, same⟩

/-- What a run keeps: the times are consistent, the start was stamped by one of the calls, and
it is there from the first moment in which the build runs. -/
structure Underway (start : Record) (calls : List Call) : Prop where
  consistent : Consistent (start.afterCalls calls).status
  stamped : ∀ time ∈ (start.afterCalls calls).status.started,
    ∃ call ∈ calls, time.instant = call.instant.truncate
  started_iff : (start.afterCalls calls).status.started.isSome ↔ Entered start calls .running
  ran : (start.afterCalls calls).phase = .complete → Entered start calls .running

theorem underway_fresh (name nameSpace : String) (spec : Spec) (created : Instant) :
    Underway (fresh name nameSpace spec created) [] := by
  have neverRan : ¬ Entered (fresh name nameSpace spec created) [] .running := by
    rintro ⟨earlier, before, same⟩
    rw [List.prefix_nil.1 before] at same
    cases same
  constructor
  · exact .ofPhase_new
  · exact fun _ here => (by cases here)
  · exact ⟨fun some => (by cases some), fun ran => absurd ran neverRan⟩
  · exact fun same => (by cases same)

namespace Underway

variable {start : Record} {calls : List Call} {call : Call}

/-- A rejected call keeps it. -/
theorem concat_rejected (underway : Underway start calls)
    (same : start.afterCalls (calls ++ [call]) = start.afterCalls calls) :
    Underway start (calls ++ [call]) := by
  have entered : Entered start (calls ++ [call]) .running ↔ Entered start calls .running := by
    rw [entered_concat, same]
    exact ⟨fun either => either.elim id fun running => ⟨calls, List.prefix_rfl, running⟩, Or.inl⟩
  constructor
  · rw [same]
    exact underway.consistent
  · intro time here
    rw [same] at here
    rcases underway.stamped time here with ⟨earlier, inCalls, stamp⟩
    exact ⟨earlier, List.mem_append_left _ inCalls, stamp⟩
  · rw [same, entered]
    exact underway.started_iff
  · rw [same, entered]
    exact underway.ran

/-- The build started no later than the clock shows. -/
theorem started_notAfter (underway : Underway start calls) (ordered : Ordered (calls ++ [call])) :
    ∀ time ∈ (start.afterCalls calls).status.started,
      NotAfter time.instant call.instant.truncate := by
  intro time here
  rcases underway.stamped time here with ⟨earlier, inCalls, stamp⟩
  have notAfter := (List.pairwise_append.1 ordered).2.2 earlier inCalls call
    (List.mem_singleton_self call)
  rw [stamp]
  exact notAfter.truncate

/-- A call that moves the build keeps it, if the clock has not gone back. -/
theorem concat_moved (underway : Underway start calls) (ordered : Ordered (calls ++ [call]))
    (notEnded : (start.afterCalls calls).phase.isTerminal = false)
    (edge : (start.afterCalls calls).phase.LeadsTo call.target) {reason message : Option String}
    (status : (start.afterCalls (calls ++ [call])).status =
      { movedStatus (start.afterCalls calls).status call.target call.instant with
        reason := reason, message := message }) : Underway start (calls ++ [call]) := by
  have phase : (start.afterCalls (calls ++ [call])).phase = call.target := by
    rw [Record.phase, status]
    exact movedStatus_phase _ _ _
  constructor
  · rw [status]
    apply Consistent.withReason
    exact underway.consistent.movedStatus notEnded (underway.started_notAfter ordered) call.target
  · intro time here
    rw [status] at here
    rcases mem_started_of_mem_movedStatus here with old | rfl
    · rcases underway.stamped time old with ⟨earlier, inCalls, stamp⟩
      exact ⟨earlier, List.mem_append_left _ inCalls, stamp⟩
    · exact ⟨call, List.mem_concat_self, rfl⟩
  · rw [entered_concat, phase, status]
    change (movedStatus _ _ _).started.isSome ↔ _
    rw [movedStatus_started]
    split
    next running => exact ⟨fun _ => Or.inr running, fun _ => rfl⟩
    next notRunning =>
      rw [underway.started_iff]
      exact ⟨Or.inl, fun either => either.resolve_right notRunning⟩
  · intro complete
    rw [phase] at complete
    rw [complete] at edge
    have running := Phase.eq_running_of_leadsTo_complete edge
    exact entered_concat.2 (Or.inl ⟨calls, List.prefix_rfl, running⟩)

/-- One more call keeps it, if the clock has not gone back. -/
theorem concat (underway : Underway start calls) (ordered : Ordered (calls ++ [call])) :
    Underway start (calls ++ [call]) := by
  rcases step_cases (start.afterCalls calls) call with
    ⟨-, -, unchanged⟩ | ⟨notEnded, edge, reason, message, moved⟩
  · apply underway.concat_rejected
    rw [afterCalls_concat, unchanged]
  · apply underway.concat_moved ordered notEnded edge
    rw [afterCalls_concat, moved]

end Underway

theorem underway_afterCalls (name nameSpace : String) (spec : Spec) (created : Instant)
    {calls : List Call} (ordered : Ordered calls) :
    Underway (fresh name nameSpace spec created) calls := by
  induction calls using List.reverseRecOn with
  | nil => exact underway_fresh name nameSpace spec created
  | append_singleton earlier call inductionHypothesis =>
      exact (inductionHypothesis (List.pairwise_append.1 ordered).1).concat ordered

theorem started_afterCalls {record : Record} {time : Timestamp}
    (started : record.status.started = some time) (calls : List Call) :
    (record.afterCalls calls).status.started = some time := by
  induction calls using List.reverseRecOn with
  | nil => exact started
  | append_singleton earlier call inductionHypothesis =>
      rw [afterCalls_concat]
      rcases step_cases (record.afterCalls earlier) call with
        ⟨-, -, unchanged⟩ | ⟨-, -, reason, message, moved⟩
      · rw [unchanged, inductionHypothesis]
      · rw [moved]
        change (movedStatus _ _ _).started = _
        rw [movedStatus_started, inductionHypothesis]
        split <;> rfl

/-- What holds of a record that only calls have moved. -/
structure Orderly (start : Record) (calls : List Call) : Prop where
  /-- A call moves the phase to its target if there is an edge, and else leaves the whole record
  as it was. -/
  edges : ∀ earlier call, earlier ++ [call] <+: calls →
    ((start.afterCalls earlier).phase.LeadsTo call.target ∧
      (start.afterCalls (earlier ++ [call])).phase = call.target) ∨
    (¬ (start.afterCalls earlier).phase.LeadsTo call.target ∧
      start.afterCalls (earlier ++ [call]) = start.afterCalls earlier)
  started_iff : (start.afterCalls calls).status.started.isSome ↔ Entered start calls .running
  started_of_complete : (start.afterCalls calls).phase = .complete →
    (start.afterCalls calls).status.started.isSome
  started_kept : ∀ earlier, earlier <+: calls →
    ∀ time ∈ (start.afterCalls earlier).status.started,
      (start.afterCalls calls).status.started = some time
  completed_iff : (start.afterCalls calls).status.completed.isSome ↔
    (start.afterCalls calls).phase.isTerminal = true
  duration_iff : (start.afterCalls calls).status.duration.isSome ↔
    (start.afterCalls calls).phase.isTerminal = true ∧
      ∃ started ∈ (start.afterCalls calls).status.started,
        ∃ completed ∈ (start.afterCalls calls).status.completed,
          -2 ^ 63 ≤ Instant.nanosBetween started.instant completed.instant ∧
            Instant.nanosBetween started.instant completed.instant < 2 ^ 63
  duration_eq : ∀ nanos ∈ (start.afterCalls calls).status.duration,
    (∃ started ∈ (start.afterCalls calls).status.started,
      ∃ completed ∈ (start.afterCalls calls).status.completed,
        Instant.nanosBetween started.instant completed.instant = nanos.toNat) ∧
      (start.afterCalls calls).status.elapsed? = some nanos.toNat
  ordered : ∀ started ∈ (start.afterCalls calls).status.started,
    ∀ completed ∈ (start.afterCalls calls).status.completed,
      NotAfter started.instant completed.instant
  /-- No anomaly is about times. -/
  anomalies : ∀ anomaly ∈ (start.afterCalls calls).anomalies,
    (∃ phase reason, anomaly = .phaseReasonMismatch phase reason) ∨
      ∃ requested resolved, anomaly = .outputReferenceMismatch requested resolved
  frozen : (start.afterCalls calls).phase.isTerminal = true →
    (∀ call : Call, call.answer (start.afterCalls calls) =
      .error (.frozen ((start.afterCalls calls).metadata.name.getD "")
        (start.afterCalls calls).phase)) ∧
      ∀ more, start.afterCalls (calls ++ more) = start.afterCalls calls

/-- A new build stays orderly under all calls by a clock that does not go back, rejected calls
included. -/
theorem lifecycle_orderly (name nameSpace : String) (spec : Spec) (created : Instant)
    {calls : List Call} (ordered : Ordered calls) :
    Orderly (fresh name nameSpace spec created) calls := by
  have underway := underway_afterCalls name nameSpace spec created ordered
  have consistent := underway.consistent
  constructor
  · intro earlier call _
    rw [afterCalls_concat]
    rcases step_cases ((fresh name nameSpace spec created).afterCalls earlier) call with
      ⟨-, noEdge, unchanged⟩ | ⟨-, edge, reason, message, moved⟩
    · exact Or.inr ⟨noEdge, unchanged⟩
    · rw [moved]
      exact Or.inl ⟨edge, movedStatus_phase _ _ _⟩
  · exact underway.started_iff
  · exact fun complete => underway.started_iff.2 (underway.ran complete)
  · rintro earlier ⟨more, rfl⟩ time here
    rw [afterCalls_append]
    exact started_afterCalls here more
  · exact consistent.completed_iff
  · exact consistent.isSome_duration_iff
  · exact fun nanos timed => consistent.eq_of_duration timed
  · exact consistent.ordered
  · exact anomalies_of_consistent consistent
  · intro terminal
    refine ⟨answer_of_terminal terminal, fun more => ?_⟩
    rw [afterCalls_append, afterCalls_of_terminal terminal]

/-- A build that starts in the leap second at the end of 2016, with a call that is no step of the
lifecycle and one that comes too late. -/
def overLeapSecond : List Call :=
  [.transition .pending ⟨17166, 86398, 0, by decide, by decide⟩,
    .transition .running ⟨17166, 86399, 1500000000, by decide, by decide⟩,
    .transition .pending ⟨17166, 86399, 1500000000, by decide, by decide⟩,
    .finishWithReason .failed "BuildFailed" none ⟨17167, 1, 250000000, by decide, by decide⟩,
    .transition .running ⟨17167, 2, 0, by decide, by decide⟩]

theorem lifecycle_orderly_overLeapSecond :
    let start := fresh "b-1" "worker" (.ofStrategy (.ofKind "Custom")) .epoch
    Ordered overLeapSecond ∧ Orderly start overLeapSecond ∧
      (start.afterCalls overLeapSecond).phase = .failed ∧
      (start.afterCalls overLeapSecond).status.duration = some 1000000000 := by
  have ordered : Ordered overLeapSecond := by decide
  exact ⟨ordered, lifecycle_orderly _ _ _ _ ordered, by decide, by decide⟩

end Record
end ContainerBuild
