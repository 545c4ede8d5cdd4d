import ContainerBuild.Dict
import ContainerBuild.Json.Fault

namespace ContainerBuild
namespace Json

/-!
# Asking an object for its fields

A structured value is read by asking an object for one field after another, by name.  What is
reported when several fields are at fault does not depend on the order of the questions: a fault
found at an earlier place of the text comes before one at a later place, and any fault comes
before a field that is absent, since absence only shows at the end.

`Answer` is therefore an applicative and no monad: no question can depend on an earlier answer.
-/

/-- What asking for one or more fields came to. -/
inductive Answer (α : Type) where
  | found (value : α)
  /-- A required field is not there; the first such field asked for. -/
  | absent (name : String)
  /-- The earliest fault, and the place of the member that has it. -/
  | faulty (place : Nat) (fault : Fault)

namespace Answer

variable {α β : Type}

/-- Put two answers together. -/
def combine : Answer (α → β) → Answer α → Answer β
  | .found f, .found value => .found (f value)
  | .found _, .absent name => .absent name
  | .absent name, .found _ => .absent name
  | .absent name, .absent _ => .absent name
  | .faulty place fault, .faulty place' fault' =>
      if place' < place then .faulty place' fault' else .faulty place fault
  | .faulty place fault, _ => .faulty place fault
  | _, .faulty place fault => .faulty place fault

/-- Apply a function to what was found. -/
def map (f : α → β) : Answer α → Answer β
  | .found value => .found (f value)
  | .absent name => .absent name
  | .faulty place fault => .faulty place fault

instance : Functor Answer := ⟨map, fun value answer => map (fun _ => value) answer⟩

instance : Applicative Answer where
  pure := .found
  seq answer next := combine answer (next ())

/-- What a member at a place comes to when it is read. -/
def ofRead (place : Nat) : Except Fault α → Answer α
  | .ok value => .found value
  | .error fault => .faulty place fault

/-- The outcome once every question is asked. -/
def settle : Answer α → Except Fault α
  | .found value => .ok value
  | .absent name => .error (.missingField name)
  | .faulty _ fault => .error fault

end Answer

/-- The first member of a name and its place. -/
def locate {α : Type} (name : String) : Members α → Option (Nat × α)
  | [] => none
  | (other, value) :: rest =>
      if other = name then some (0, value)
      else (locate name rest).map fun (place, value) => (place + 1, value)

end Json

/-! ## Reading values -/

namespace Json

/-- Read a string. -/
def asString : Json → Except Fault String
  | .string value => .ok value
  | _ => .error .wrongType

/-- Read a truth value. -/
def asBool : Json → Except Fault Bool
  | .bool value => .ok value
  | _ => .error .wrongType

/-- Read an integer from zero to below a limit. -/
def asNat (limit : Nat) : Json → Except Fault Nat
  | .number (.integer value) =>
      if 0 ≤ value ∧ value < limit then .ok value.toNat else .error .outOfRange
  | _ => .error .wrongType

/-- Read an unsigned integer of 64 bits. -/
def asUInt64 (value : Json) : Except Fault UInt64 :=
  (value.asNat UInt64.size).map UInt64.ofNat

/-- Read an unsigned integer of 32 bits. -/
def asUInt32 (value : Json) : Except Fault UInt32 :=
  (value.asNat UInt32.size).map UInt32.ofNat

/-- Take any value as it is. -/
def asAny (value : Json) : Except Fault Json := .ok value

/-- Read an array. -/
def asArray : Json → Except Fault (List Json)
  | .array items => .ok items
  | _ => .error .wrongType

/-- Read an array item by item. -/
def asList {α : Type} (read : Json → Except Fault α) (value : Json) : Except Fault (List α) := do
  (← value.asArray).mapM read

/-- Read an object. -/
def asObject : Json → Except Fault (Members Json)
  | .object members => .ok members
  | _ => .error .wrongType

/-- Read an object whose values are of one kind, kept by name. -/
def asDict {α : Type} (read : Json → Except Fault α) (value : Json) :
    Except Fault (Dict String α) := do
  let entries ← (← value.asObject).mapM fun (name, value) => do .ok (name, ← read value)
  .ok (Dict.ofList entries)

/-- Read an object by asking for its fields. -/
def askObject {α : Type} (ask : Members Json → Answer α) (value : Json) : Except Fault α := do
  (ask (← value.asObject)).settle

end Json

namespace Members

open Json (Answer Fault locate)

variable {α : Type}

/-- A field that has to be there. -/
def required (members : Members Json) (name : String) (read : Json → Except Fault α) :
    Answer α :=
  match locate name members with
  | none => .absent name
  | some (place, value) => .ofRead place (read value)

/-- A field that takes a default when it is not there; null is not a way to leave it out. -/
def defaulted (members : Members Json) (name : String) (read : Json → Except Fault α)
    (default : α) : Answer α :=
  match locate name members with
  | none => .found default
  | some (place, value) => .ofRead place (read value)

/-- A reader that takes null as well. -/
def orNull (read : Json → Except Fault α) (value : Json) : Except Fault (Option α) :=
  if value.isNull then .ok none else (read value).map some

/-- A field that may be missing or null. -/
def optionalField (members : Members Json) (name : String) (read : Json → Except Fault α) :
    Answer (Option α) :=
  members.defaulted name (orNull read) none

/-- A field that may be missing, in which case it takes a default, or null. -/
def optionalOr (members : Members Json) (name : String) (read : Json → Except Fault α)
    (default : Option α) : Answer (Option α) :=
  members.defaulted name (orNull read) default

/-- A field whose absence and whose being null are told apart. -/
def nullableField (members : Members Json) (name : String) (read : Json → Except Fault α) :
    Answer (Option (Option α)) :=
  members.defaulted name (fun value => (orNull read value).map some) none

/-- The members whose names are not among the known ones. -/
def unknown (members : Members Json) (known : List String) : Members Json :=
  members.filter fun member => !known.contains member.1

/-- The members whose names are not among the known ones, by name. -/
def unknownDict (members : Members Json) (known : List String) : Answer (Dict String Json) :=
  .found (Dict.ofList (members.unknown known))

end Members
end ContainerBuild
