import ContainerBuild.Dict
import ContainerBuild.Json.Value

namespace ContainerBuild
namespace Json

/-!
# Values of plain data
-/

/-- A natural number as a value. -/
def ofNat (value : Nat) : Json := .number (.integer value)

/-- Strings as an array. -/
def ofStrings (values : List String) : Json := .array (values.map .string)

/-- A dictionary of strings as an object. -/
def ofTexts (texts : Dict String String) : Json :=
  .object (texts.entries.map fun entry => (entry.1, .string entry.2))

/-- A value, or null for none. -/
def ofOption {α : Type} (toJson : α → Json) (value : Option α) : Json :=
  (value.map toJson).getD .null

end Json
end ContainerBuild
