import ContainerBuild.Json.Fields
import ContainerBuild.Json.OfData
import ContainerBuild.Record.Basic

namespace ContainerBuild

/-!
# Anomalies of a record

The parts of a record imply relations between each other.  Records do not always honour them, so
`Record.anomalies` reports what is off and nothing is ever refused.
-/

/-- A relation between the parts of a record that does not hold. -/
inductive Anomaly where
  /-- The build succeeded and has a reason for not doing so. -/
  | phaseReasonMismatch (phase : Phase) (reason : String)
  | completionBeforeStart (start completion : Instant)
  /-- The recorded duration is off by a second or more; both are in nanoseconds. -/
  | durationMismatch (recorded computed : UInt64)
  /-- The image was pushed to another place than the one asked for. -/
  | outputReferenceMismatch (requested resolved : String)
  /-- The build ended and has no time of completion. -/
  | missingCompletion (phase : Phase)
deriving DecidableEq

namespace Anomaly

/-- What is off, in words. -/
def message : Anomaly → String
  | .phaseReasonMismatch phase reason =>
      "phase is " ++ phase.name ++ " but reason is " ++ reason
  | .completionBeforeStart start completion =>
      "completion " ++ completion.proseText ++ " precedes start " ++ start.proseText
  | .durationMismatch recorded computed =>
      "duration " ++ toString recorded ++ "ns differs from elapsed " ++ toString computed ++ "ns"
  | .outputReferenceMismatch requested resolved =>
      "output " ++ resolved ++ " differs from requested " ++ requested
  | .missingCompletion phase =>
      "phase is " ++ phase.name ++ " but completionTimestamp is missing"

/-! ## As a value -/

/-- The name that tells kinds of anomalies apart. -/
def kind : Anomaly → String
  | .phaseReasonMismatch _ _ => "phase_reason_mismatch"
  | .completionBeforeStart _ _ => "completion_before_start"
  | .durationMismatch _ _ => "duration_mismatch"
  | .outputReferenceMismatch _ _ => "output_reference_mismatch"
  | .missingCompletion _ => "missing_completion"

/-- The member that has the kind. -/
def kindKey : String := "anomaly"

/-- What an anomaly says besides its kind. -/
def fields : Anomaly → Members Json
  | .phaseReasonMismatch phase reason => [("phase", phase.toJson), ("reason", .string reason)]
  | .completionBeforeStart start completion =>
      [("start", .string start.exactText), ("completion", .string completion.exactText)]
  | .durationMismatch recorded computed =>
      [("recorded", .ofNat recorded.toNat),
        ("computed", .ofNat computed.toNat)]
  | .outputReferenceMismatch requested resolved =>
      [("requested", .string requested), ("resolved", .string resolved)]
  | .missingCompletion phase => [("phase", phase.toJson)]

/-- An anomaly as a value. -/
def toJson (anomaly : Anomaly) : Json :=
  .object ((kindKey, .string anomaly.kind) :: anomaly.fields)

/-! ## From text -/

open Json (Answer Fault Tree)

/-- Read an instant from its text. -/
def instantOfJson (value : Json) : Except Fault Instant := do
  match Rfc3339.parseLoose (← value.asString) with
  | .ok instant => .ok instant
  | .error _ => .error .unacceptable

/-- How a field is asked for: by its name and its place among the fields. -/
abbrev AskField := {α : Type} → String → Nat → (Json → Except Fault α) → Answer α

/-- Ask for the fields of an anomaly of a kind. -/
def askFields (ask : AskField) : String → Except Fault (Answer Anomaly)
  | "phase_reason_mismatch" =>
      .ok (.phaseReasonMismatch <$> ask "phase" 0 Phase.ofJson <*> ask "reason" 1 Json.asString)
  | "completion_before_start" =>
      .ok (.completionBeforeStart <$> ask "start" 0 instantOfJson
        <*> ask "completion" 1 instantOfJson)
  | "duration_mismatch" =>
      .ok (.durationMismatch <$> ask "recorded" 0 Json.asUInt64
        <*> ask "computed" 1 Json.asUInt64)
  | "output_reference_mismatch" =>
      .ok (.outputReferenceMismatch <$> ask "requested" 0 Json.asString
        <*> ask "resolved" 1 Json.asString)
  | "missing_completion" => .ok (.missingCompletion <$> ask "phase" 0 Phase.ofJson)
  | kind => .error (.unknownVariant kind)

/-- Read a kind, refusing what is none. -/
def readKind (tree : Tree) : Except Fault String := do
  let kind ← tree.scalar Json.asString
  let _ ← askFields (fun _ _ _ => .absent kind) kind
  .ok kind

/-- Read an anomaly from the members of an object.  The kind decides what the members mean, so
the whole object is gone through for it before any other member is read. -/
def ofFields (fields : Tree.Fields) : Except Fault Anomaly := do
  let kind ← ((fun kind _ => kind) <$> fields.required kindKey readKind
    <*> fields.others [kindKey] (Tree.generic (Tree.levelLimit - 1))).settle
  (← askFields (fun name _ read => fields.required name (Tree.scalar read)) kind).settle

/-- Read an anomaly from the items of an array: the kind, and then its fields in order. -/
def ofSlots (items : List Tree) (closed : Bool) : Except Fault Anomaly := do
  match items with
  | [] => .error (if closed then .missingField kindKey else .brokenText)
  | first :: rest =>
      let kind ← readKind first
      let _ ← (Tree.array rest closed).generic Tree.levelLimit
      let slots : Tree.Slots := ⟨rest, closed⟩
      let anomaly ← (← askFields (fun _ place read =>
        slots.slot place (Tree.scalar read) (.faulty rest.length .wrongLength)) kind).settle
      if rest.length ≤ anomaly.fields.length then .ok anomaly else .error .wrongLength

/-- Read an anomaly from the tree of its text. -/
def ofTree : Tree → Except Fault Anomaly
  | .object members closed => ofFields ⟨members, closed⟩
  | .array items closed => ofSlots items closed
  | tree => tree.scalar fun _ => .error .wrongType

/-- Read an anomaly from its text. -/
def parse (text : String) : Except Fault Anomaly := (Json.Document.ofText text).read ofTree

end Anomaly

namespace Record

/-- The difference of two numbers. -/
def distance (a b : UInt64) : Nat := if a ≤ b then b.toNat - a.toNat else a.toNat - b.toNat

/-- A success with a reason that is not empty. -/
def reasonAnomaly? (status : Status) : Option Anomaly :=
  if status.phase = .complete then
    (status.reason.filter (· != "")).map (.phaseReasonMismatch status.phase)
  else
    none

/-- An end without a time of completion. -/
def completionAnomaly? (status : Status) : Option Anomaly :=
  if status.phase.isTerminal ∧ status.completed.isNone then
    some (.missingCompletion status.phase)
  else
    none

/-- The nanoseconds from start to completion, the greatest number if there is none for them. -/
def computedDuration (start completion : Instant) : UInt64 :=
  (Instant.elapsed64? start completion).getD (UInt64.ofNat (UInt64.size - 1))

/-- Times in the wrong order, or else a duration that is off by a second or more. -/
def timeAnomaly? (status : Status) : Option Anomaly := do
  let start := (← status.started).instant
  let completion := (← status.completed).instant
  if completion.Before start then
    some (.completionBeforeStart start completion)
  else
    let recorded ← status.duration
    let computed := computedDuration start completion
    if nanosPerSecond ≤ distance recorded computed then
      some (.durationMismatch recorded computed)
    else
      none

/-- An image in another place than the one asked for. -/
def outputAnomaly? (record : Record) : Option Anomaly := do
  let requested ← record.spec.outputImage?
  let resolved ← record.status.outputReference
  if requested = resolved then none else some (.outputReferenceMismatch requested resolved)

/-- The anomalies of a record, in a fixed order. -/
def anomalies (record : Record) : List Anomaly :=
  (reasonAnomaly? record.status).toList ++ (completionAnomaly? record.status).toList ++
    (timeAnomaly? record.status).toList ++ (outputAnomaly? record).toList

end Record
end ContainerBuild
