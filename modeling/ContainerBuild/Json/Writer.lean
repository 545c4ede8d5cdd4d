import ContainerBuild.Json.Quoted
import ContainerBuild.Json.Value

namespace ContainerBuild
namespace Json

/-!
# Writing values

There are two ways to put a value on one line and one to spread it over several.  On one line a
`Style` says what stands between items and between a name and its value, and whether the text is
confined to ASCII.  Spread out, every item and member has its own line, indented by two blanks a
level, and an empty array or object stays `[]` or `{}`.

No writer reorders anything.  Sorting is `sortMembers`, applied before writing.
-/

/-- The spelling of a value on one line. -/
structure Style where
  comma : List Char
  colon : List Char
  /-- Write what is not ASCII as escapes. -/
  ascii : Bool

/-- Nothing that could be left out. -/
def Style.dense : Style := ⟨[','], [':'], false⟩

/-- A blank after every comma and colon, and ASCII only. -/
def Style.spaced : Style := ⟨[',', ' '], [':', ' '], true⟩

/-- The word for a truth value. -/
def boolText (value : Bool) : List Char :=
  if value then ['t', 'r', 'u', 'e'] else ['f', 'a', 'l', 's', 'e']

mutual

/-- The text of a value on one line. -/
def write (style : Style) : Json → List Char
  | .null => ['n', 'u', 'l', 'l']
  | .bool value => boolText value
  | .number value => value.text
  | .string value => Quoted.write style.ascii value
  | .array items => '[' :: writeItems style items ++ [']']
  | .object members => '{' :: writeMembers style members ++ ['}']

/-- The items of an array, separated. -/
def writeItems (style : Style) : List Json → List Char
  | [] => []
  | [item] => item.write style
  | item :: rest => item.write style ++ style.comma ++ writeItems style rest

/-- The members of an object, separated. -/
def writeMembers (style : Style) : List (String × Json) → List Char
  | [] => []
  | [(name, value)] => Quoted.write style.ascii name ++ style.colon ++ value.write style
  | (name, value) :: rest =>
      Quoted.write style.ascii name ++ style.colon ++ value.write style ++ style.comma ++
        writeMembers style rest

end

/-- A new line at a level of indentation. -/
def newLine (level : Nat) : List Char := '\n' :: List.replicate (2 * level) ' '

mutual

/-- The text of a value over several lines, itself at a level of indentation. -/
def writeIndented (level : Nat) : Json → List Char
  | .null => ['n', 'u', 'l', 'l']
  | .bool value => boolText value
  | .number value => value.text
  | .string value => Quoted.write false value
  | .array [] => ['[', ']']
  | .array (item :: rest) =>
      '[' :: writeIndentedItems (level + 1) (item :: rest) ++ newLine level ++ [']']
  | .object [] => ['{', '}']
  | .object (member :: rest) =>
      '{' :: writeIndentedMembers (level + 1) (member :: rest) ++ newLine level ++ ['}']

/-- Items, each on a line of its own. -/
def writeIndentedItems (level : Nat) : List Json → List Char
  | [] => []
  | [item] => newLine level ++ item.writeIndented level
  | item :: rest =>
      newLine level ++ item.writeIndented level ++ ',' :: writeIndentedItems level rest

/-- Members, each on a line of its own. -/
def writeIndentedMembers (level : Nat) : List (String × Json) → List Char
  | [] => []
  | [(name, value)] =>
      newLine level ++ Quoted.write false name ++ ':' :: ' ' :: value.writeIndented level
  | (name, value) :: rest =>
      newLine level ++ Quoted.write false name ++ ':' :: ' ' :: value.writeIndented level ++
        ',' :: writeIndentedMembers level rest

end

/-- A value without any blanks, in the order of its members. -/
def compact (value : Json) : String := String.ofList (value.write .dense)

/-- A value over several lines, in the order of its members. -/
def pretty (value : Json) : String := String.ofList (value.writeIndented 0)

/-- A value with blanks after separators and in ASCII, in the order of its members. -/
def spaced (value : Json) : String := String.ofList (value.write .spaced)

/-- How a value is spelled that a string carries inside another text. -/
inductive PayloadStyle where
  /-- Without blanks and in order, as the cluster writes annotations. -/
  | compact
  /-- With blanks, in ASCII and with sorted members, as the build client writes parameters. -/
  | spaced
deriving DecidableEq

/-- The text of a value that a string carries. -/
def payload : PayloadStyle → Json → String
  | .compact, value => value.compact
  | .spaced, value => value.sortMembers.spaced

/-- How a whole document is laid out. -/
inductive Layout where
  | compact
  | pretty
deriving DecidableEq

/-- The text of a whole document. -/
def document : Layout → Json → String
  | .compact, value => value.compact
  | .pretty, value => value.pretty

end Json
end ContainerBuild
