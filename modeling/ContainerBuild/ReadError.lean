import ContainerBuild.Json.Fault

namespace ContainerBuild

/-!
# Failures of reading a document

A document can fail to be read as a whole, or because of a payload that one of its strings
carries; the failure then names the field of that string.
-/

/-- Why a document or a payload cannot be read. -/
inductive ReadError where
  | invalid (fault : Json.Fault)
  | notAnObject
  | missingKey (key : String)
  | invalidPayload (field : String) (fault : Json.Fault)
deriving DecidableEq

namespace ReadError

/-- What is wrong, in words. -/
def message : ReadError → String
  | .invalid fault => "invalid JSON: " ++ fault.description
  | .notAnObject => "record root must be a JSON object"
  | .missingKey key => "record is missing required key '" ++ key ++ "'"
  | .invalidPayload field fault =>
      "nested payload in " ++ field ++ " is invalid: " ++ fault.description

/-- The faults of JSON that an error comes from. -/
def cause? : ReadError → Option Json.Fault
  | .invalid fault => some fault
  | .invalidPayload _ fault => some fault
  | _ => none

end ReadError

/-- Report faults of reading as failures of a document. -/
def ReadError.ofFault {α : Type} (result : Except Json.Fault α) : Except ReadError α :=
  result.mapError .invalid

/-- Report faults of reading as failures of the payload in a field. -/
def ReadError.inField {α : Type} (field : String) (result : Except Json.Fault α) :
    Except ReadError α :=
  result.mapError (.invalidPayload field)

end ContainerBuild
