import ContainerBuild.Json.Tree

namespace ContainerBuild
namespace Json

/-!
# Faults of reading

Why a text, or a value, is not what was asked for.  `brokenText` is the fault of a text that is
no JSON; the others are faults of a value that is not of the wanted shape.
-/

/-- A fault met while reading. -/
inductive Fault where
  | brokenText
  | missingField (name : String)
  | duplicateField (name : String)
  | unknownVariant (name : String)
  | wrongType
  | outOfRange
  | wrongLength
  | unacceptable
deriving DecidableEq

/-- What is wrong, in words. -/
def Fault.description : Fault → String
  | .brokenText => "malformed text"
  | .missingField name => "missing field `" ++ name ++ "`"
  | .duplicateField name => "duplicate field `" ++ name ++ "`"
  | .unknownVariant name => "unknown variant `" ++ name ++ "`"
  | .wrongType => "invalid type"
  | .outOfRange => "invalid value"
  | .wrongLength => "invalid length"
  | .unacceptable => "unacceptable text"

/-- Read a whole text by a reader of trees.  Faults that the reader meets come before anything
that may follow the value. -/
def Document.read {α : Type} (read : Tree → Except Fault α) (document : Document) :
    Except Fault α := do
  let value ← read document.root
  if document.ends then .ok value else .error .brokenText

/-- Read a tree as a generic value within a number of levels. -/
def Tree.generic (levels : Nat) (tree : Tree) : Except Fault Json :=
  match tree.value? levels with
  | some value => .ok value
  | none => .error .brokenText

/-- Read a text as a generic value. -/
def parse (text : String) : Except Fault Json :=
  (Document.ofText text).read (Tree.generic Tree.levelLimit)

end Json
end ContainerBuild
