namespace ContainerBuild

/-!
# Files

What a program sees of the files around it: under every path either the text of a file or a
reason why there is none to be had.  Names of files are put together as paths here; what they
lead to is the business of whoever answers.
-/

/-- Why the text of a file cannot be had. -/
inductive FileError where
  | notFound
  | permissionDenied
  /-- A part of the path that has to be a directory is none. -/
  | notADirectory
  | isADirectory
  | nameTooLong
  /-- The path has a character that no name can have. -/
  | nulInName
  /-- The bytes of the file are no text. -/
  | notText
  | other (description : String)
deriving DecidableEq

/-- What is wrong, in the words of the operating system. -/
def FileError.message : FileError → String
  | .notFound => "No such file or directory (os error 2)"
  | .permissionDenied => "Permission denied (os error 13)"
  | .notADirectory => "Not a directory (os error 20)"
  | .isADirectory => "Is a directory (os error 21)"
  | .nameTooLong => "File name too long (os error 36)"
  | .nulInName => "file name contained an unexpected NUL byte"
  | .notText => "stream did not contain valid UTF-8"
  | .other description => description

/-- The text under every path. -/
abbrev Files := String → Except FileError String

namespace Files

/-- The path of a file in a directory.  A path that begins at the root stays as it is. -/
def join (directory file : String) : String :=
  if file.toList.head? = some '/' then file
  else if directory.toList.getLast?.all (· == '/') then directory ++ file
  else directory ++ "/" ++ file

end Files
end ContainerBuild
