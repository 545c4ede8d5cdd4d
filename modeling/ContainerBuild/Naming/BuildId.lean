namespace ContainerBuild

/-!
# Build IDs

A build ID is empty, or begins and ends with an ASCII letter or digit and has only those and
`-`, `_` and `.` between.  It has at most 63 characters; a longer text is cut before it is judged.
-/

namespace BuildId

/-- The greatest length of a build ID, in characters. -/
def maxLength : Nat := 63

/-- The rule in the notation of regular expressions, as it is shown to users. -/
def pattern : String := "^(([A-Za-z0-9][-A-Za-z0-9_.]*)?[A-Za-z0-9])?$"

/-- Whether a character may begin and end a build ID. -/
def isOuter (c : Char) : Bool := c.isAlphanum

/-- Whether a character may stand in a build ID. -/
def isInner (c : Char) : Bool := c.isAlphanum || c == '-' || c == '_' || c == '.'

/-- Whether characters form a build ID, their number aside. -/
def isValid (characters : List Char) : Bool :=
  characters.all isInner && characters.head?.all isOuter && characters.getLast?.all isOuter

/-- The first characters of a text, as many as a build ID may have. -/
def cut (text : String) : String := String.ofList (text.toList.take maxLength)

/-- Cut a text to the length of a build ID and check it.  The error is the text that was
judged. -/
def check (text : String) : Except String String :=
  if isValid (cut text).toList then .ok (cut text) else .error (cut text)

end BuildId
end ContainerBuild
