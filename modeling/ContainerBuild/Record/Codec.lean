import ContainerBuild.Json.Writer
import ContainerBuild.Record.Basic

namespace ContainerBuild
namespace Record

/-!
# Records as text

`decode` reads a document and remembers its nulls; `encode` writes a record with its remembered
nulls, on one line or over several.
-/

/-- The first of the keys that every document has to have which is not there. -/
def missingKey? (members : Members Json) : Option String :=
  fieldNames.find? fun key => (members.lookup key).isNone

/-- Read a record from the value of a document. -/
def ofDocument (value : Json) : Except ReadError Record := do
  match value with
  | .object members =>
      match missingKey? members with
      | some key => .error (.missingKey key)
      | none =>
          let record ← ReadError.ofFault (ofJson value)
          .ok { record with nulls := Json.droppedNulls value record.toJson }
  | _ => .error .notAnObject

/-- Read a record. -/
def decode (text : String) : Except ReadError Record := do
  ofDocument (← ReadError.ofFault (Json.parse text))

/-- Write a record. -/
def encode (layout : Json.Layout) (record : Record) : String := record.document.document layout

end Record
end ContainerBuild
