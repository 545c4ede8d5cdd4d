import ContainerBuild.Json.Answer
import ContainerBuild.Time.Format
import ContainerBuild.Time.Rfc3339

namespace ContainerBuild

/-!
# Timestamps

A timestamp is an instant together with the text it was read from, which is the text that is
written back.  Two timestamps are equal when both agree.
-/

/-- An instant and its text. -/
structure Timestamp where
  raw : String
  instant : Instant
deriving DecidableEq

namespace Timestamp

/-- Read a timestamp. -/
def parse (raw : String) : Except Rfc3339.Fault Timestamp :=
  (Rfc3339.parse raw).map fun instant => ⟨raw, instant⟩

/-- The timestamp that records an instant: its whole seconds, in the form of the cluster. -/
def stamp (instant : Instant) : Timestamp := ⟨instant.truncate.secondsText, instant.truncate⟩

/-- Read a timestamp from a string value. -/
def ofJson (value : Json) : Except Json.Fault Timestamp := do
  match parse (← value.asString) with
  | .ok timestamp => .ok timestamp
  | .error _ => .error .unacceptable

/-- A timestamp as a value. -/
def toJson (timestamp : Timestamp) : Json := .string timestamp.raw

end Timestamp
end ContainerBuild
