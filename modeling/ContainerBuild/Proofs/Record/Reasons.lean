import ContainerBuild.Proofs.Record.Lifecycle

namespace ContainerBuild
namespace Record

/-!
# Reasons of builds

A call that gives a reason is meant for the end of a build, but all that it asks for is an edge
of the lifecycle, so it also moves a build to a phase that is not its end.  A build has a reason
exactly if a call of its run was accepted with one (`isSome_reason_iff`).  So the builds with a
reason are all finished exactly if every call that was accepted with one asked for an end
(`finished_of_reason_iff`).  The clock may show anything at a call.
-/

/-- Whether a call gives a reason. -/
def Call.givesReason : Call → Bool
  | .transition _ _ => false
  | .finishWithReason _ _ _ _ => true

/-- A call of a run, after some others, that gives a reason and is accepted. -/
structure Explains (start : Record) (calls earlier : List Call) (call : Call) : Prop where
  inRun : earlier ++ [call] <+: calls
  gives : call.givesReason = true
  accepted : ∃ moved, call.answer (start.afterCalls earlier) = .ok moved

theorem accepted_iff {record : Record} {call : Call} :
    (∃ moved, call.answer record = .ok moved) ↔ record.phase.LeadsTo call.target := by
  constructor
  · rintro ⟨moved, answered⟩
    by_contra noEdge
    rcases answer_of_not_leadsTo noEdge with ⟨fault, rejected⟩
    rw [rejected] at answered
    cases answered
  · exact fun edge => ⟨_, answer_of_leadsTo edge⟩

/-! ## One call -/

theorem movedStatus_reason (status : Status) (target : Phase) (instant : Instant) :
    (movedStatus status target instant).reason = status.reason := by
  simp only [movedStatus]
  split <;> rfl

theorem isSome_reason_step (record : Record) (call : Call) :
    (record.step call).status.reason.isSome ↔ record.status.reason.isSome ∨
      call.givesReason = true ∧ ∃ moved, call.answer record = .ok moved := by
  rw [accepted_iff]
  by_cases edge : record.phase.LeadsTo call.target
  · rw [step, answer_of_leadsTo edge]
    cases call with
    | transition target instant =>
        change (movedStatus record.status target instant).reason.isSome ↔ _
        simp [movedStatus_reason, Call.givesReason]
    | finishWithReason target reason message instant =>
        exact ⟨fun _ => Or.inr ⟨rfl, edge⟩, fun _ => rfl⟩
  · rcases answer_of_not_leadsTo edge with ⟨fault, rejected⟩
    rw [step, rejected]
    simp [edge]

/-- A completion is stamped at the end and not before. -/
theorem isSome_completed_step {record : Record} (call : Call)
    (stamped : record.status.completed.isSome ↔ record.phase.isTerminal = true) :
    (record.step call).status.completed.isSome ↔ (record.step call).phase.isTerminal = true := by
  rcases step_cases record call with ⟨-, -, unchanged⟩ | ⟨underway, -, reason, message, moved⟩
  · rw [unchanged]
    exact stamped
  · have phase : (record.step call).phase = call.target := by
      rw [moved]
      exact movedStatus_phase _ _ _
    have completed : (record.step call).status.completed =
        if call.target.isTerminal then some (.stamp call.instant) else record.status.completed := by
      rw [moved]
      exact movedStatus_completed _ _ _
    rw [phase, completed]
    split
    next ends => exact ⟨fun _ => ends, fun _ => rfl⟩
    next goesOn => rw [stamped, underway, Bool.eq_false_iff.2 goesOn]

/-! ## Runs -/

variable {start : Record}

theorem explains_concat_iff {calls earlier : List Call} {last call : Call} :
    Explains start (calls ++ [last]) earlier call ↔
      Explains start calls earlier call ∨
        (earlier = calls ∧ call = last) ∧ call.givesReason = true ∧
          ∃ moved, call.answer (start.afterCalls earlier) = .ok moved := by
  constructor
  · rintro ⟨inRun, gives, accepted⟩
    rcases List.prefix_concat_iff.1 inRun with same | before
    · have parts := List.append_inj' same rfl
      exact Or.inr ⟨⟨parts.1, List.singleton_inj.1 parts.2⟩, gives, accepted⟩
    · exact Or.inl ⟨before, gives, accepted⟩
  · rintro (⟨inRun, gives, accepted⟩ | ⟨⟨rfl, rfl⟩, gives, accepted⟩)
    · exact ⟨inRun.trans (List.prefix_append _ _), gives, accepted⟩
    · exact ⟨List.prefix_rfl, gives, accepted⟩

theorem isSome_reason_iff (unexplained : start.status.reason = none) (calls : List Call) :
    (start.afterCalls calls).status.reason.isSome ↔
      ∃ earlier call, Explains start calls earlier call := by
  induction calls using List.reverseRecOn with
  | nil =>
      change start.status.reason.isSome ↔ _
      rw [unexplained]
      refine ⟨fun none => (by cases none), ?_⟩
      rintro ⟨earlier, call, inRun, -⟩
      exact absurd (List.prefix_nil.1 inRun) (by simp)
  | append_singleton calls last inductionHypothesis =>
      rw [afterCalls_concat, isSome_reason_step, inductionHypothesis]
      simp only [explains_concat_iff, exists_or]
      refine or_congr_right ⟨fun explained => ⟨calls, last, ⟨rfl, rfl⟩, explained⟩, ?_⟩
      rintro ⟨_, _, ⟨rfl, rfl⟩, explained⟩
      exact explained

theorem isSome_completed_iff (stamped : start.status.completed.isSome ↔
    start.phase.isTerminal = true) (calls : List Call) :
    (start.afterCalls calls).status.completed.isSome ↔
      (start.afterCalls calls).phase.isTerminal = true := by
  induction calls using List.reverseRecOn with
  | nil => exact stamped
  | append_singleton calls last inductionHypothesis =>
      rw [afterCalls_concat]
      exact isSome_completed_step last inductionHypothesis

/-- An accepted call leaves the phase that it asked for. -/
theorem phase_of_accepted {record moved : Record} {call : Call}
    (answered : call.answer record = .ok moved) : (record.step call).phase = call.target := by
  rcases step_cases record call with ⟨⟨fault, rejected⟩, -, -⟩ | ⟨-, -, reason, message, same⟩
  · rw [rejected] at answered
    cases answered
  · rw [same]
    exact movedStatus_phase _ _ _

/-- In the run of a new build a reason means that it is finished exactly if every call that was
accepted with a reason asked for an end. -/
theorem finished_of_reason_iff (name nameSpace : String) (spec : Spec) (created : Instant)
    (calls : List Call) :
    let start := fresh name nameSpace spec created
    (∀ earlier, earlier <+: calls → (start.afterCalls earlier).status.reason.isSome →
      (start.afterCalls earlier).isFinished = true ∧
        (start.afterCalls earlier).status.completed.isSome) ↔
    ∀ earlier call, Explains start calls earlier call → call.target.isTerminal = true := by
  intro start
  have unexplained : start.status.reason = none := rfl
  have stamped : start.status.completed.isSome ↔ start.phase.isTerminal = true :=
    ⟨fun some => (by cases some), fun ends => (by cases ends)⟩
  constructor
  · rintro finished earlier call ⟨inRun, gives, moved, answered⟩
    have reason : (start.afterCalls (earlier ++ [call])).status.reason.isSome :=
      (isSome_reason_iff unexplained _).2 ⟨earlier, call, List.prefix_rfl, gives, moved, answered⟩
    have ends := (finished _ inRun reason).1
    rw [isFinished, afterCalls_concat, phase_of_accepted answered] at ends
    exact ends
  · intro ending earlier before reason
    rcases (isSome_reason_iff unexplained _).1 reason with ⟨first, call, explains⟩
    have ends := ending first call
      ⟨explains.inRun.trans before, explains.gives, explains.accepted⟩
    rcases explains with ⟨⟨rest, rfl⟩, -, moved, answered⟩
    have terminal : (start.afterCalls (first ++ [call])).phase.isTerminal = true := by
      rw [afterCalls_concat, phase_of_accepted answered]
      exact ends
    have finished : (start.afterCalls (first ++ [call] ++ rest)).phase.isTerminal = true := by
      rw [afterCalls_append, afterCalls_of_terminal terminal]
      exact terminal
    exact ⟨finished, (isSome_completed_iff stamped _).2 finished⟩

/-- A new build can be given a reason without being finished. -/
theorem reason_of_unfinished :
    let start := fresh "b-1" "worker" (.ofStrategy (.ofKind "Custom")) .epoch
    let call := Call.finishWithReason .pending "Scheduled" none .epoch
    (∃ moved, call.answer start = .ok moved) ∧
      (start.afterCalls [call]).status.reason = some "Scheduled" ∧
      (start.afterCalls [call]).isFinished = false ∧
      (start.afterCalls [call]).status.completed = none :=
  ⟨⟨_, rfl⟩, rfl, rfl, rfl⟩

end Record
end ContainerBuild
