import ContainerBuild.Json.Quoted
import ContainerBuild.Json.Value

namespace ContainerBuild
namespace Json

/-!
# What a text holds

A `Tree` is a JSON text taken apart and not yet judged.  It keeps what a value drops: members of
one name stay apart, and where the text stops being JSON the tree says so instead of being
refused as a whole.  Whoever reads a tree in the order of the text can thus report whichever
fault the text has first.

A numeral beyond the finite numbers and a string with half a surrogate pair are well formed and
mean nothing; they are kept without a value, since a reader that skips them has no complaint.

Faults are marked at three places: `broken` stands for a value the text does not have, and an
array or object that is not `closed` breaks off after its last item or member.
-/

/-- A text taken apart, up to where it stops being JSON. -/
inductive Tree where
  | null
  | bool (value : Bool)
  | number (value : Option Number)
  | string (value : Option String)
  | array (items : List Tree) (closed : Bool)
  | object (members : List (Option String × Tree)) (closed : Bool)
  | broken
deriving Inhabited

namespace Tree

/-! ## From text -/

/-- Whether a character may stand between the parts of a text. -/
def isBlank (c : Char) : Bool := c == ' ' || c == '\t' || c == '\n' || c == '\r'

/-- The text after its leading blanks. -/
def skipBlanks (text : List Char) : List Char := text.dropWhile isBlank

/-- A scalar at the front of a text, and the text after it. -/
def scanScalar (text : List Char) : Tree × Option (List Char) :=
  match text with
  | 'n' :: 'u' :: 'l' :: 'l' :: rest => (.null, some rest)
  | 't' :: 'r' :: 'u' :: 'e' :: rest => (.bool true, some rest)
  | 'f' :: 'a' :: 'l' :: 's' :: 'e' :: rest => (.bool false, some rest)
  | '"' :: rest =>
      match Quoted.scan rest with
      | some (points, rest) => (.string (Quoted.text? points), some rest)
      | none => (.broken, none)
  | text =>
      match Numeral.scan text with
      | some (numeral, rest) => (.number numeral.value?, some rest)
      | none => (.broken, none)

mutual

/-- A value at the front of a text, and the text after it unless it breaks off.

Every two steps take at least one character, so twice the length of a text, and two, is fuel
for all of it. -/
def scanValue : Nat → List Char → Tree × Option (List Char)
  | 0, _ => (.broken, none)
  | fuel + 1, text =>
      match skipBlanks text with
      | '[' :: rest =>
          match skipBlanks rest with
          | ']' :: rest => (.array [] true, some rest)
          | rest =>
              let (items, rest) := scanItems fuel rest
              (.array items rest.isSome, rest)
      | '{' :: rest =>
          match skipBlanks rest with
          | '}' :: rest => (.object [] true, some rest)
          | rest =>
              let (members, rest) := scanMembers fuel rest
              (.object members rest.isSome, rest)
      | text => scanScalar text

/-- The items of an array that has at least one, up to its end. -/
def scanItems : Nat → List Char → List Tree × Option (List Char)
  | 0, _ => ([], none)
  | fuel + 1, text =>
      match scanValue fuel text with
      | (item, none) => ([item], none)
      | (item, some rest) =>
          match skipBlanks rest with
          | ',' :: rest =>
              let (items, rest) := scanItems fuel rest
              (item :: items, rest)
          | ']' :: rest => ([item], some rest)
          | _ => ([item], none)

/-- The members of an object that has at least one, up to its end. -/
def scanMembers : Nat → List Char → List (Option String × Tree) × Option (List Char)
  | 0, _ => ([], none)
  | fuel + 1, text =>
      match skipBlanks text with
      | '"' :: rest =>
          match Quoted.scan rest with
          | none => ([], none)
          | some (points, rest) =>
              let name := Quoted.text? points
              match skipBlanks rest with
              | ':' :: rest =>
                  match scanValue fuel rest with
                  | (value, none) => ([(name, value)], none)
                  | (value, some rest) =>
                      match skipBlanks rest with
                      | ',' :: rest =>
                          let (members, rest) := scanMembers fuel rest
                          ((name, value) :: members, rest)
                      | '}' :: rest => ([(name, value)], some rest)
                      | _ => ([(name, value)], none)
              | _ => ([(name, .broken)], none)
      | _ => ([], none)

end

end Tree

/-- A whole text: its value, and whether the text ends with it. -/
structure Document where
  root : Tree
  ends : Bool

/-- Take a text apart. -/
def Document.ofText (text : String) : Document :=
  let characters := text.toList
  match Tree.scanValue (2 * characters.length + 2) characters with
  | (root, some rest) => ⟨root, (Tree.skipBlanks rest).isEmpty⟩
  | (root, none) => ⟨root, false⟩

namespace Tree

/-! ## To values -/

mutual

/-- The value of a tree that lies within a number of levels; none if the tree is broken
anywhere, too deep, or has a part without a value. -/
def value? : Nat → Tree → Option Json
  | _, .null => some .null
  | _, .bool value => some (.bool value)
  | _, .number value => value.map .number
  | _, .string value => value.map .string
  | 0, .array _ _ => none
  | levels + 1, .array items closed =>
      if closed then (itemValues? levels items).map .array else none
  | 0, .object _ _ => none
  | levels + 1, .object members closed =>
      if closed then
        (memberValues? levels members).map fun pairs => .object (Members.ofPairs pairs)
      else
        none
  | _, .broken => none

/-- The values of items. -/
def itemValues? : Nat → List Tree → Option (List Json)
  | _, [] => some []
  | levels, item :: rest => do
      let value ← item.value? levels
      let values ← itemValues? levels rest
      some (value :: values)

/-- The names and values of members, repeated names kept apart. -/
def memberValues? : Nat → List (Option String × Tree) → Option (List (String × Json))
  | _, [] => some []
  | levels, (name?, member) :: rest => do
      let name ← name?
      let value ← member.value? levels
      let values ← memberValues? levels rest
      some ((name, value) :: values)

end

mutual

/-- Whether a tree is broken nowhere, whatever its parts mean and however deep they lie. -/
def isWhole : Tree → Bool
  | .array items closed => closed && areWhole items
  | .object members closed => closed && areWholeMembers members
  | .broken => false
  | _ => true

/-- Whether no item is broken. -/
def areWhole : List Tree → Bool
  | [] => true
  | item :: rest => item.isWhole && areWhole rest

/-- Whether no value of a member is broken. -/
def areWholeMembers : List (Option String × Tree) → Bool
  | [] => true
  | (_, value) :: rest => value.isWhole && areWholeMembers rest

end

/-- The greatest number of arrays and objects that may lie inside each other. -/
def levelLimit : Nat := 127

end Tree
end Json
end ContainerBuild
