import ContainerBuild.Files.Basic

namespace ContainerBuild

/-!
# The files of one directory

A directory that is given by the texts of its files.  Every file has the names on the way to it,
and a directory is there if a file is below it.  Paths are followed name by name: each step has
to start in a directory, and nothing outside can be read.  Names and paths are limited in length,
counted in bytes.
-/

/-- Files below a directory, each with the names on the way to it. -/
structure Directory where
  files : List (List String × String)
deriving DecidableEq

namespace Directory

/-- The names that make up a path. -/
def names (path : String) : List String :=
  (path.toList.splitOn '/').map String.ofList

/-- The directory of files given by their paths. -/
def ofPaths (files : List (String × String)) : Directory :=
  ⟨files.map fun (path, text) => (names path, text)⟩

/-- The text of the file that names lead to. -/
def text? (directory : Directory) (place : List String) : Option String :=
  directory.files.lookup place

/-- Whether names lead to a directory. -/
def hasDirectory (directory : Directory) (place : List String) : Bool :=
  place.isEmpty ||
    directory.files.any fun (names, _) => place.isPrefixOf names && place != names

/-- The greatest length of a name. -/
def nameLimit : Nat := 255

/-- The greatest length of a path. -/
def pathLimit : Nat := 4095

/-- Follow names from a place, where `none` is somewhere outside. -/
def follow (directory : Directory) : Option (List String) → List String → Except FileError String
  | none, [] => .error .isADirectory
  | none, name :: rest =>
      if name = "" ∨ name = "." ∨ name = ".." then directory.follow none rest
      else if nameLimit < name.utf8ByteSize then .error .nameTooLong
      else .error .notFound
  | some place, [] =>
      match directory.text? place with
      | some text => .ok text
      | none => if directory.hasDirectory place then .error .isADirectory else .error .notFound
  | some place, name :: rest =>
      if directory.hasDirectory place then
        if name = "" ∨ name = "." then directory.follow (some place) rest
        else if name = ".." then
          directory.follow (if place.isEmpty then none else some place.dropLast) rest
        else if nameLimit < name.utf8ByteSize then .error .nameTooLong
        else directory.follow (some (place ++ [name])) rest
      else if (directory.text? place).isSome then .error .notADirectory
      else .error .notFound

/-- What is under every path, seen from the directory. -/
def read (directory : Directory) : Files := fun path =>
  if path.toList.contains '\x00' then .error .nulInName
  else if pathLimit < path.utf8ByteSize then .error .nameTooLong
  else
    match path.toList with
    | [] => .error .notFound
    | '/' :: rest => directory.follow none (names (String.ofList rest))
    | _ => directory.follow (some []) (names path)

end Directory
end ContainerBuild
