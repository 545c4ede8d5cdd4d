import ContainerBuild.Command.Failure
import ContainerBuild.Record.UserParams

namespace ContainerBuild
namespace Command

/-!
# The summary of one record

What `inspect` shows of a record.  As lines it leaves out what there is nothing to say about; as
an object it has every key.
-/

/-- One thing to show, with its label in a line and its key in an object. -/
structure Row where
  label : String
  key : String
  /-- How it is shown in a line, and as a value. -/
  shown : Option (String × Json)

/-- A row that shows a text. -/
def textRow (label key : String) (text : Option String) : Row :=
  ⟨label, key, text.map fun text => (text, .string text)⟩

/-- A row that shows a number of seconds. -/
def secondsRow (label key : String) (seconds : Option Nat) : Row :=
  ⟨label, key, seconds.map fun seconds => (toString seconds ++ "s", .ofNat seconds)⟩

/-- The width of the first column of a listing. -/
def columnWidth : Nat := 12

/-- A line of two columns. -/
def columns (first second : String) : String :=
  first ++ String.ofList (List.replicate (columnWidth - first.length) ' ') ++ " " ++ second

/-- What there is to show about a record.  The payloads that it carries have to be readable, the
reference to the source image before the parameters. -/
def inspection (record : Record) : Except Failure (List Row) := do
  let sourceImage ← record.metadata.sourceImage.mapError fun error => ⟨[], error.causes⟩
  let imageTag ← record.imageTag.mapError fun error => ⟨[], error.causes⟩
  .ok [
    textRow "name" "name" record.metadata.name,
    textRow "namespace" "namespace" record.metadata.nameSpace,
    textRow "phase" "phase" (some record.phase.name),
    textRow "reason" "reason" record.status.reason,
    textRow "repo" "repo" record.repository?,
    textRow "branch" "branch" record.branch?,
    textRow "pod" "pod" record.metadata.pod?,
    textRow "from" "source_image" (sourceImage.map SourceImage.name),
    textRow "output" "output_image" record.spec.outputImage?,
    textRow "image tag" "image_tag" imageTag,
    secondsRow "elapsed" "elapsed_secs" (record.status.elapsed?.map (· / nanosPerSecond))]

/-- Rows as lines. -/
def rowLines (rows : List Row) : List String :=
  rows.filterMap fun row => row.shown.map fun shown => columns row.label shown.1

/-- Rows as an object. -/
def rowsToJson (rows : List Row) : Json :=
  .object (rows.map fun row => (row.key, (row.shown.map Prod.snd).getD .null))

end Command
end ContainerBuild
