import ContainerBuild.Naming.Sha256

namespace ContainerBuild
namespace GitName

/-!
# Names made from a repository and a branch

A name says which repository and which branch a build is of, in characters that the cluster
allows, and ends with a hash of the two in full.  Where the two do not fit, they give up
characters evenly: they are taken from by turns, one character each, until the limit is reached.
-/

/-- The greatest length of a label or a name in the cluster. -/
def clusterLimit : Nat := 64

/-- The greatest length of a name made here. -/
def nameLimit : Nat := 53

/-- How many digits of the hash end a name. -/
def hashLength : Nat := 5

/-- The branch of a build that names none. -/
def unknownBranch : String := "unknown"

/-! ## Parts of a repository address -/

/-- Drop a prefix of a list of characters, if it is one. -/
def dropPrefix? : List Char → List Char → Option (List Char)
  | [], text => some text
  | c :: rest, d :: text => if c = d then dropPrefix? rest text else none
  | _ :: _, [] => none

/-- The last part of the path of a repository, without `.git` and slashes at its end. -/
def repositoryName (uri : String) : String :=
  let reversed := uri.toList.reverse.dropWhile (· == '/')
  let reversed := match dropPrefix? ['t', 'i', 'g', '.', '/'] reversed with
    | some rest => rest
    | none => (dropPrefix? ['t', 'i', 'g', '.'] reversed).getD reversed
  String.ofList (reversed.takeWhile (· != '/')).reverse

/-- What follows the first `://`. -/
def afterScheme? : List Char → Option (List Char)
  | [] => none
  | c :: rest =>
      match dropPrefix? [':', '/', '/'] (c :: rest) with
      | some rest => some rest
      | none => afterScheme? rest

/-- The path of an address; an address without a scheme is all path. -/
def path (uri : String) : List Char :=
  let uri := uri.toList.takeWhile fun c => c != '?' && c != '#'
  match afterScheme? uri with
  | some rest => rest.dropWhile (· != '/')
  | none => uri

/-! ## Merging two texts into one name -/

/-- Whether a character may stand in a name, or in a label. -/
def isAllowed (label : Bool) (c : Char) : Bool :=
  c == '-' || ('a' ≤ c && c ≤ 'z') || ('0' ≤ c && c ≤ '9') || (label && c == '.')

/-- Take so many characters from two texts, by turns as long as both have some.  What is taken
of either is its beginning. -/
def share : Nat → List Char → List Char → List Char × List Char
  | 0, _, _ => ([], [])
  | budget, [], second => ([], second.take budget)
  | budget + 1, c :: first, second =>
      let (kept, others) := share budget second first
      (c :: others, kept)

/-- A text without the dashes at its ends. -/
def trimDashes (text : List Char) : List Char :=
  ((text.dropWhile (· == '-')).reverse.dropWhile (· == '-')).reverse

/-- Two texts joined by a dash; an empty one is left out with its dash. -/
def joinDash : List Char → List Char → List Char
  | [], second => second
  | first, [] => first
  | first, second => first ++ '-' :: second

/-- Merge two texts into one name of fewer characters than a limit.

One character is kept even where the limit leaves no room for it. -/
def merge (first second : String) (limit : Nat) (label : Bool) : String :=
  let budget := max 1 (min limit clusterLimit - 1)
  let (first, second) :=
    share budget (first.toList.filter (isAllowed label)) (second.toList.filter (isAllowed label))
  String.ofList (joinDash (trimDashes first) (trimDashes second))

/-! ## Names -/

/-- The digits that end the name of a repository and a branch. -/
def hash (repository branch : String) : List Char :=
  let path := (path repository).dropWhile (· == '/')
  (Sha256.hexDigest (String.ofList path ++ branch)).take hashLength

/-- The name of a repository and a branch: `<repository>-<branch>-<hash>`. -/
def make (repository : String) (branch : Option String) : String :=
  let branch := (branch.filter (· != "")).getD unknownBranch
  let merged := merge (repositoryName repository) branch (nameLimit - hashLength - 1) false
  String.ofList (joinDash merged.toList (hash repository branch))

end GitName
end ContainerBuild
