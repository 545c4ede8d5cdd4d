import ContainerBuild.Record.Basic

namespace ContainerBuild
namespace Record

/-!
# The life of a build

A build moves along the lifecycle of its phase, and the move stamps its times: the start when it
starts running, and the completion together with the duration when it ends.  Once it has ended,
nothing moves it any more.
-/

/-- Why a build cannot move to a phase. -/
inductive TransitionError where
  /-- The build has ended. -/
  | frozen (name : String) (phase : Phase)
  /-- The lifecycle has no such step. -/
  | invalid (name : String) (source target : Phase)
deriving DecidableEq

/-- What is wrong, in words. -/
def TransitionError.message : TransitionError → String
  | .frozen name phase =>
      "build " ++ name ++ " is " ++ phase.name ++ " and can no longer change"
  | .invalid name source target =>
      "build " ++ name ++ " cannot move from " ++ source.name ++ " to " ++ target.name

/-- The status of a build that moves to a phase at an instant. -/
def movedStatus (status : Status) (target : Phase) (instant : Instant) : Status :=
  let now := Timestamp.stamp instant
  let started := if target = .running then some (status.started.getD now) else status.started
  if target.isTerminal then
    { status with
      phase := target
      started := started
      completed := some now
      duration := started.bind fun start => Instant.elapsed64? start.instant now.instant }
  else
    { status with phase := target, started := started }

/-- Move a build to a phase at an instant. -/
def transition (record : Record) (target : Phase) (instant : Instant) :
    Except TransitionError Record :=
  let name := record.metadata.name.getD ""
  if record.phase.isTerminal then
    .error (.frozen name record.phase)
  else if record.phase.canBecome target then
    .ok { record with status := movedStatus record.status target instant }
  else
    .error (.invalid name record.phase target)

/-- Move a build to a phase and say why. -/
def finishWithReason (record : Record) (target : Phase) (reason : String)
    (message : Option String) (instant : Instant) : Except TransitionError Record := do
  let moved ← record.transition target instant
  .ok { moved with status := { moved.status with reason := some reason, message := message } }

end Record
end ContainerBuild
