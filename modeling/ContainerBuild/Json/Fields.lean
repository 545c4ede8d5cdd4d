import ContainerBuild.Json.Answer

namespace ContainerBuild
namespace Json
namespace Tree

/-!
# Reading structured values straight from a text

The fields of an object that is still a tree.  Beyond what holds of values, a text can name a
known field twice, which is a fault where the second name stands, and can break off, which is a
fault where it does.

Every reader here goes through its tree in the order of the text and reports the first fault it
meets.  An array or object in place of a scalar is refused where it begins, so what is broken
inside it is never seen.
-/

variable {α : Type}

/-- Read a scalar by a reader of values. -/
def scalar (read : Json → Except Fault α) : Tree → Except Fault α
  | .array _ _ => .error .wrongType
  | .object _ _ => .error .wrongType
  | tree => do read (← tree.generic 0)

/-- A reader that takes null as well. -/
def orNull (read : Tree → Except Fault α) : Tree → Except Fault (Option α)
  | .null => .ok none
  | tree => (read tree).map some

/-- Check that an array or object is closed after all that was read of it. -/
def ensureClosed (closed : Bool) (value : α) : Except Fault α :=
  if closed then .ok value else .error .brokenText

/-- Read an array item by item. -/
def list (read : Tree → Except Fault α) : Tree → Except Fault (List α)
  | .array items closed => do ensureClosed closed (← items.mapM read)
  | tree => scalar (fun _ => .error .wrongType) tree

/-- Read an object member by member, in order. -/
def pairs (read : Tree → Except Fault α) : Tree → Except Fault (List (String × α))
  | .object members closed => do
      let pairs ← members.mapM fun (name?, value) =>
        match name? with
        | some name => do .ok (name, ← read value)
        | none => .error .brokenText
      ensureClosed closed pairs
  | tree => scalar (fun _ => .error .wrongType) tree

/-- Read an object whose values are of one kind, kept by name. -/
def dict (read : Tree → Except Fault α) (tree : Tree) : Except Fault (Dict String α) := do
  .ok (Dict.ofList (← tree.pairs read))

/-- Skip a value that is not asked for. -/
def skip (tree : Tree) : Except Fault Unit :=
  if tree.isWhole then .ok () else .error .brokenText

/-- The members of an object that is still a tree. -/
structure Fields where
  members : List (Option String × Tree)
  closed : Bool

namespace Fields

/-- The places and values of all members of a name. -/
def occurrences (fields : Fields) (name : String) : List (Nat × Tree) :=
  fields.members.zipIdx.filterMap fun ((name?, value), place) =>
    if name? = some name then some (place, value) else none

/-- A field read where it stands, or the given answer if it stands nowhere. -/
def once (fields : Fields) (name : String) (read : Tree → Except Fault α) (missing : Answer α) :
    Answer α :=
  match fields.occurrences name with
  | [] => missing
  | [(place, value)] => .ofRead place (read value)
  | (place, value) :: (again, _) :: _ =>
      (fun value () => value) <$> .ofRead place (read value) <*>
        .faulty again (.duplicateField name)

/-- A field that has to be there. -/
def required (fields : Fields) (name : String) (read : Tree → Except Fault α) : Answer α :=
  fields.once name read (.absent name)

/-- A field that takes a default when it is not there. -/
def defaulted (fields : Fields) (name : String) (read : Tree → Except Fault α) (default : α) :
    Answer α :=
  fields.once name read (.found default)

/-- A field that may be missing or null. -/
def optional (fields : Fields) (name : String) (read : Tree → Except Fault α) :
    Answer (Option α) :=
  fields.defaulted name (orNull read) none

/-- Check that the object does not break off. -/
def ended (fields : Fields) : Answer Unit :=
  if fields.closed then .found () else .faulty fields.members.length .brokenText

/-- The members of unknown names, each read in place, up to the end of the object. -/
def others (fields : Fields) (known : List String) (read : Tree → Except Fault α) :
    Answer (List (String × α)) :=
  let answers := fields.members.zipIdx.map fun ((name?, value), place) =>
    match name? with
    | none => Answer.faulty place .brokenText
    | some name =>
        if known.contains name then .found []
        else (fun value => [(name, value)]) <$> .ofRead place (read value)
  let all := answers.foldr (fun answer rest => List.append <$> answer <*> rest) (.found [])
  (fun all () => all) <$> all <*> fields.ended

end Fields

/-- Read an object by asking for its fields. -/
def askObject (ask : Fields → Answer α) : Tree → Except Fault α
  | .object members closed => (ask ⟨members, closed⟩).settle
  | tree => scalar (fun _ => .error .wrongType) tree

/-- The items of an array that is still a tree and stands for a structured value, its fields in
order and without their names. -/
structure Slots where
  items : List Tree
  closed : Bool

namespace Slots

/-- The field at an index; what a short array leaves out is answered for by `missing`. -/
def slot (slots : Slots) (index : Nat) (read : Tree → Except Fault α) (missing : Answer α) :
    Answer α :=
  match slots.items[index]? with
  | some value => .ofRead index (read value)
  | none => if slots.closed then missing else .faulty slots.items.length .brokenText

/-- A field that takes a default in a short array. -/
def defaulted (slots : Slots) (index : Nat) (read : Tree → Except Fault α) (default : α) :
    Answer α :=
  slots.slot index read (.found default)

/-- Check that the array ends with the last of so many fields. -/
def ended (slots : Slots) (count : Nat) : Answer Unit :=
  if slots.closed ∧ slots.items.length ≤ count then .found () else .faulty count .brokenText

end Slots
end Tree
end Json
end ContainerBuild
