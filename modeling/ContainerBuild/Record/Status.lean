import ContainerBuild.Record.Phase
import ContainerBuild.Record.Reference
import ContainerBuild.Time.Timestamp

namespace ContainerBuild

/-!
# What became of a build

Phase, reason and times are recorded side by side and may contradict each other.
-/

/-- What became of a build. -/
structure Status where
  phase : Phase
  reason : Option String
  message : Option String
  started : Option Timestamp
  completed : Option Timestamp
  /-- In nanoseconds. -/
  duration : Option UInt64
  outputReference : Option String
  config : Option ObjectRef
  extra : Dict String Json
deriving DecidableEq

namespace Status

/-- The names that are modelled. -/
def fieldNames : List String :=
  ["phase", "reason", "message", "startTimestamp", "completionTimestamp", "duration",
    "outputDockerImageReference", "config"]

/-- The status that says no more than its phase. -/
def ofPhase (phase : Phase) : Status :=
  ⟨phase, none, none, none, none, none, none, none, .empty⟩

/-- Read a status. -/
def ofJson : Json → Except Json.Fault Status :=
  Json.askObject fun members =>
    Status.mk
      <$> members.required "phase" Phase.ofJson
      <*> members.optionalField "reason" Json.asString
      <*> members.optionalField "message" Json.asString
      <*> members.optionalField "startTimestamp" Timestamp.ofJson
      <*> members.optionalField "completionTimestamp" Timestamp.ofJson
      <*> members.optionalField "duration" Json.asUInt64
      <*> members.optionalField "outputDockerImageReference" Json.asString
      <*> members.optionalField "config" ObjectRef.ofJson
      <*> members.unknownDict fieldNames

/-- A status as a value. -/
def toJson (status : Status) : Json :=
  .object <|
    [("phase", status.phase.toJson)] ++
    Members.optional "reason" (status.reason.map .string) ++
    Members.optional "message" (status.message.map .string) ++
    Members.optional "startTimestamp" (status.started.map Timestamp.toJson) ++
    Members.optional "completionTimestamp" (status.completed.map Timestamp.toJson) ++
    Members.optional "duration"
      (status.duration.map fun nanos => .ofNat nanos.toNat) ++
    Members.optional "outputDockerImageReference" (status.outputReference.map .string) ++
    Members.optional "config" (status.config.map ObjectRef.toJson) ++
    status.extra.entries

/-- The nanoseconds from start to completion, if both are set and in order. -/
def elapsed? (status : Status) : Option Nat := do
  let started ← status.started
  let completed ← status.completed
  let nanos := Instant.nanosBetween started.instant completed.instant
  if 0 ≤ nanos then some nanos.toNat else none

end Status
end ContainerBuild
