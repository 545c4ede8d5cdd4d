import ContainerBuild.Json.Value

namespace ContainerBuild
namespace Json

/-!
# Pointers into a value, and the nulls a typed form drops

A typed form with optional fields cannot tell a field that is null from one that is absent.
`droppedNulls` finds the nulls of a value that a typed form has no place for, each as the
pointer to it; `restoreNulls` puts them back where the object around them is still there and
the name is still free.  A null put back therefore never covers anything.
-/

/-- The way to a part of a value: names of members, and indices of items in decimal notation. -/
structure Pointer where
  tokens : List String
deriving DecidableEq

namespace Pointer

/-- A token in the text of a pointer, where `~` and `/` have other uses. -/
def escapeToken (token : String) : List Char :=
  token.toList.flatMap fun c =>
    if c = '~' then ['~', '0'] else if c = '/' then ['~', '1'] else [c]

/-- The text of a pointer: every token after a slash. -/
def text (pointer : Pointer) : String :=
  String.ofList (pointer.tokens.flatMap fun token => '/' :: escapeToken token)

/-- The index that a token names: a decimal numeral without leading zeros. -/
def index? (token : String) : Option Nat :=
  match token.toList with
  | [] => none
  | ['0'] => some 0
  | first :: rest =>
      if first = '0' then none
      else if (first :: rest).all Char.isDigit then some (Nat.ofDigitChars 10 (first :: rest) 0)
      else none

/-- Put a pointer before the first one whose text is not less. -/
def place (pointer : Pointer) : List Pointer → List Pointer
  | [] => [pointer]
  | other :: rest =>
      if other.text < pointer.text then other :: place pointer rest
      else pointer :: other :: rest

/-- Pointers in the order of their texts. -/
def sort (pointers : List Pointer) : List Pointer := pointers.foldr place []

end Pointer

/-! ## Dropped nulls -/

mutual

/-- The pointers, below a path, to nulls of a value that its typed form does not keep. -/
def lostNulls (path : List String) (kept : Option Json) : Json → List Pointer
  | .object members => lostInMembers path kept members
  | .array items => lostInItems path kept 0 items
  | _ => []

/-- The lost nulls among members. -/
def lostInMembers (path : List String) (kept : Option Json) : List (String × Json) → List Pointer
  | [] => []
  | (name, value) :: rest =>
      let keptValue := kept.bind (·.member? name)
      (if value.isNull && keptValue.isNone then [⟨path ++ [name]⟩]
        else lostNulls (path ++ [name]) keptValue value) ++ lostInMembers path kept rest

/-- The lost nulls among items, the first of which has an index. -/
def lostInItems (path : List String) (kept : Option Json) (index : Nat) :
    List Json → List Pointer
  | [] => []
  | item :: rest =>
      lostNulls (path ++ [toString index]) (kept.bind (·.item? index)) item ++
        lostInItems path kept (index + 1) rest

end

/-- The nulls of a value that its typed form does not keep, in the order of their pointers. -/
def droppedNulls (value kept : Json) : List Pointer := Pointer.sort (lostNulls [] (some kept) value)

/-- Change the value of the first member of a name. -/
def modifyMember (name : String) (change : Json → Json) :
    List (String × Json) → List (String × Json)
  | [] => []
  | (other, value) :: rest =>
      if other = name then (other, change value) :: rest
      else (other, value) :: modifyMember name change rest

/-- Put a null where a path leads, if the object around it is there and the name is free. -/
def restoreNull : List String → Json → Json
  | [], value => value
  | [name], .object members => .object (Members.putNew name .null members)
  | [_], value => value
  | name :: next :: rest, .object members =>
      .object (modifyMember name (restoreNull (next :: rest)) members)
  | token :: next :: rest, .array items =>
      match Pointer.index? token with
      | some index => .array (items.modify index (restoreNull (next :: rest)))
      | none => .array items
  | _ :: _ :: _, value => value

/-- Put nulls back, in order. -/
def restoreNulls (pointers : List Pointer) (value : Json) : Json :=
  pointers.foldl (fun value pointer => restoreNull pointer.tokens value) value

end Json
end ContainerBuild
