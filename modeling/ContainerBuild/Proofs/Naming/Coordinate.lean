import ContainerBuild.Proofs.Naming.GitName

namespace ContainerBuild
namespace GitName

/-!
# What a name says of its repository and branch

A name is made for a coordinate: the path of a repository and a branch.  It shows what the cluster
allows of the two and ends with five digits of a hash, which are there whatever the rest comes to,
so that every coordinate has a name that is well-formed (`make_wellFormed`).

The digits are of path and branch written one after the other.  That text does not say where the
path ends, so two coordinates have the same digits where the hash collides, and also where one
path goes on with characters that begin the branch of the other (`make_eq_iff_of_apart`).
-/

/-! ## Coordinates -/

/-- What a name is made for. -/
structure Coordinate where
  path : List Char
  branch : String
deriving DecidableEq

/-- The coordinate of a repository, and of a branch if one is named. -/
def coordinate (repository : String) (branch : Option String) : Coordinate where
  path := (path repository).dropWhile (· == '/')
  branch := (branch.filter (· != "")).getD unknownBranch

namespace Coordinate

/-- The text that is hashed: the path and the branch, with nothing between them. -/
def text (place : Coordinate) : String := String.ofList place.path ++ place.branch

/-- The digits of the hash that a name ends with. -/
def digits (place : Coordinate) : List Char := (Sha256.hexDigest place.text).take hashLength

/-- Two coordinates have different texts and the same digits. -/
def Collide (place other : Coordinate) : Prop :=
  place.text ≠ other.text ∧ place.digits = other.digits

/-- The path of the second coordinate goes on with characters that begin the branch of the
first, and from there on the branches are the same. -/
def MovesOn (place other : Coordinate) : Prop :=
  ∃ moved : List Char, moved ≠ [] ∧ other.path = place.path ++ moved ∧
    place.branch.toList = moved ++ other.branch.toList

theorem toList_text (place : Coordinate) :
    place.text.toList = place.path ++ place.branch.toList := by
  rw [text, String.toList_append, String.toList_ofList]

theorem MovesOn.text_eq {place other : Coordinate} (moves : MovesOn place other) :
    place.text = other.text := by
  obtain ⟨moved, -, longer, shorter⟩ := moves
  rw [← String.toList_inj, toList_text, toList_text, longer, shorter, List.append_assoc]

theorem eq_or_movesOn_of_append {place other : Coordinate} {moved : List Char}
    (longer : other.path = place.path ++ moved)
    (shorter : place.branch.toList = moved ++ other.branch.toList) :
    place = other ∨ MovesOn place other := by
  by_cases none : moved = []
  · rw [none, List.append_nil] at longer
    rw [none, List.nil_append, String.toList_inj] at shorter
    cases place
    cases other
    exact Or.inl (Coordinate.mk.injEq .. ▸ ⟨longer.symm, shorter⟩)
  · exact Or.inr ⟨moved, none, longer, shorter⟩

/-- Two coordinates with one text are the same, or the boundary between path and branch lies
elsewhere. -/
theorem text_eq_iff {place other : Coordinate} :
    place.text = other.text ↔ place = other ∨ MovesOn place other ∨ MovesOn other place := by
  constructor
  case mp =>
    intro same
    rw [← String.toList_inj, toList_text, toList_text, List.append_eq_append_iff] at same
    rcases same with ⟨moved, longer, shorter⟩ | ⟨moved, longer, shorter⟩
    · rcases eq_or_movesOn_of_append longer shorter with equal | moves
      · exact Or.inl equal
      · exact Or.inr (Or.inl moves)
    · rcases eq_or_movesOn_of_append longer shorter with equal | moves
      · exact Or.inl equal.symm
      · exact Or.inr (Or.inr moves)
  case mpr =>
    rintro (rfl | moves | moves)
    · rfl
    · exact moves.text_eq
    · exact moves.text_eq.symm

/-- Coordinates whose paths, or whose branches, are equally long leave no boundary to move. -/
theorem not_movesOn {place other : Coordinate}
    (level : place.path.length = other.path.length ∨
      place.branch.toList.length = other.branch.toList.length) : ¬ MovesOn place other := by
  rintro ⟨moved, present, longer, shorter⟩
  have pathLength := congrArg List.length longer
  have branchLength := congrArg List.length shorter
  have positive := List.length_pos_iff.2 present
  rw [List.length_append] at pathLength branchLength
  omega

theorem digits_eq_iff {place other : Coordinate} (apart : place ≠ other) :
    place.digits = other.digits ↔
      Collide place other ∨ MovesOn place other ∨ MovesOn other place := by
  have sameText : place.text = other.text ↔ MovesOn place other ∨ MovesOn other place :=
    text_eq_iff.trans (or_iff_right apart)
  rw [Collide, ← sameText]
  constructor
  case mp =>
    intro same
    by_cases equal : place.text = other.text
    · exact Or.inr equal
    · exact Or.inl ⟨equal, same⟩
  case mpr =>
    rintro (collide | equal)
    · exact collide.2
    · rw [digits, digits, equal]

theorem length_digits (place : Coordinate) : place.digits.length = hashLength :=
  length_take_hexDigest _

end Coordinate

/-! ## The parts of a name -/

/-- What a name shows of its repository and branch. -/
def visible (repository : String) (branch : Option String) : String :=
  merge (repositoryName repository) (coordinate repository branch).branch
    (nameLimit - hashLength - 1) false

theorem toList_make (repository : String) (branch : Option String) :
    (make repository branch).toList =
      joinDash (visible repository branch).toList (coordinate repository branch).digits := by
  rw [make, String.toList_ofList]
  rfl

/-- A first part with the dash that follows it, if there is such a part. -/
def dashed : List Char → List Char
  | [] => []
  | c :: first => c :: first ++ ['-']

theorem dashed_inj {first other : List Char} (same : dashed first = dashed other) :
    first = other := by
  cases first with
  | nil =>
      cases other with
      | nil => rfl
      | cons d other => cases same
  | cons c first =>
      cases other with
      | nil => cases same
      | cons d other => exact List.append_cancel_right same

theorem joinDash_eq_append (first : List Char) {second : List Char} (present : second ≠ []) :
    joinDash first second = dashed first ++ second := by
  cases first with
  | nil => rfl
  | cons c first =>
      cases second with
      | nil => contradiction
      | cons d second => exact (List.append_assoc (c :: first) ['-'] (d :: second)).symm

theorem digits_ne_nil (place : Coordinate) : place.digits ≠ [] := by
  rw [← List.length_pos_iff, Coordinate.length_digits]
  decide

/-- Names are the same if they show the same and end with the same digits. -/
theorem make_eq_iff {repository repository' : String} {branch branch' : Option String} :
    make repository branch = make repository' branch' ↔
      visible repository branch = visible repository' branch' ∧
        (coordinate repository branch).digits = (coordinate repository' branch').digits := by
  have level := (coordinate repository branch).length_digits.trans
    (coordinate repository' branch').length_digits.symm
  rw [← String.toList_inj, toList_make, toList_make, joinDash_eq_append _ (digits_ne_nil _),
    joinDash_eq_append _ (digits_ne_nil _)]
  constructor
  case mp =>
    intro same
    have parts := List.append_inj' same level
    exact ⟨String.toList_inj.1 (dashed_inj parts.1), parts.2⟩
  case mpr =>
    rintro ⟨sameVisible, sameDigits⟩
    rw [sameVisible, sameDigits]

/-! ## Well-formed names -/

/-- A letter or a digit of a name. -/
def IsWordChar (c : Char) : Prop := ('a' ≤ c ∧ c ≤ 'z') ∨ ('0' ≤ c ∧ c ≤ '9')

/-- A hexadecimal digit of a name. -/
def IsHexDigit (c : Char) : Prop := ('a' ≤ c ∧ c ≤ 'f') ∨ ('0' ≤ c ∧ c ≤ '9')

instance : DecidablePred IsHexDigit := fun _ => inferInstanceAs (Decidable (_ ∨ _))

theorem isWordChar_of_isAllowed {c : Char} (allowed : isAllowed false c = true)
    (noDash : c ≠ '-') : IsWordChar c :=
  (isAllowed_iff.1 allowed).resolve_left noDash

theorem isHexDigit_of_mem_digits {place : Coordinate} {c : Char} (here : c ∈ place.digits) :
    IsHexDigit c := by
  have each : ∀ digit < 16, IsHexDigit (Nat.digitChar digit) := by decide
  rcases Sha256.mem_hexDigest (List.mem_of_mem_take here) with ⟨digit, small, rfl⟩
  exact each digit small

/-- Every repository has a name, whatever its branch: it is not empty, has letters, digits and
dashes, of which no dash is first or last, ends with the digits of the hash, and is a build ID as it
stands. -/
theorem make_wellFormed (repository : String) (branch : Option String) :
    (make repository branch).toList.length ≤ nameLimit ∧
      (∀ c ∈ (make repository branch).toList, c = '-' ∨ IsWordChar c) ∧
      (∃ c ∈ (make repository branch).toList.head?, IsWordChar c) ∧
      (∃ c ∈ (make repository branch).toList.getLast?, IsWordChar c) ∧
      (coordinate repository branch).digits <:+ (make repository branch).toList ∧
      (coordinate repository branch).digits.length = hashLength ∧
      (∀ c ∈ (coordinate repository branch).digits, IsHexDigit c) ∧
      BuildId.check (make repository branch) = .ok (make repository branch) := by
  have trimmed := trimmed_make repository branch
  have ending : (coordinate repository branch).digits <:+ (make repository branch).toList := by
    rw [toList_make, joinDash_eq_append _ (digits_ne_nil _)]
    exact List.suffix_append _ _
  have present : (make repository branch).toList ≠ [] := by
    intro none
    rw [none, List.suffix_nil] at ending
    exact digits_ne_nil _ ending
  have wordChar : ∀ c ∈ (make repository branch).toList, c ≠ '-' → IsWordChar c :=
    fun c here => isWordChar_of_isAllowed (trimmed.allowed c here)
  refine ⟨length_make_le repository branch, fun c here => ?_, ?_, ?_, ending,
    Coordinate.length_digits _, fun c here => isHexDigit_of_mem_digits here,
    check_make repository branch⟩
  · by_cases dash : c = '-'
    · exact Or.inl dash
    · exact Or.inr (wordChar c here dash)
  · have first := List.head?_eq_some_head present
    exact ⟨_, first, wordChar _ (List.head_mem present) (trimmed.head _ first)⟩
  · have last := List.getLast?_eq_some_getLast present
    exact ⟨_, last, wordChar _ (List.getLast_mem present) (trimmed.last _ last)⟩

/-! ## Names that are shared -/

/-- Different coordinates share a name where they show the same and their hashes collide, or where
the boundary between path and branch lies elsewhere in the same text.  There is no such boundary
if the paths, or the branches, are equally long. -/
theorem make_eq_iff_of_apart {repository repository' : String} {branch branch' : Option String}
    (apart : coordinate repository branch ≠ coordinate repository' branch') :
    (make repository branch = make repository' branch' ↔
        visible repository branch = visible repository' branch' ∧
          ((coordinate repository branch).Collide (coordinate repository' branch') ∨
            (coordinate repository branch).MovesOn (coordinate repository' branch') ∨
            (coordinate repository' branch').MovesOn (coordinate repository branch))) ∧
      ((coordinate repository branch).path.length =
            (coordinate repository' branch').path.length ∨
          (coordinate repository branch).branch.toList.length =
            (coordinate repository' branch').branch.toList.length →
        make repository branch = make repository' branch' →
        (coordinate repository branch).Collide (coordinate repository' branch')) := by
  have shared := Coordinate.digits_eq_iff apart
  refine ⟨by rw [make_eq_iff, shared], fun level same => ?_⟩
  rcases shared.1 (make_eq_iff.1 same).2 with collide | moves | moves
  · exact collide
  · exact absurd moves (Coordinate.not_movesOn level)
  · exact absurd moves (Coordinate.not_movesOn (level.imp Eq.symm Eq.symm))

/-- The path `rpms/lib` with the branch `X11`, and the path `rpms/libX` with the branch `11`. -/
theorem make_eq_iff_of_apart_libraries :
    coordinate "rpms/lib" (some "X11") ≠ coordinate "rpms/libX" (some "11") ∧
      make "rpms/lib" (some "X11") = make "rpms/libX" (some "11") := by
  have apart : coordinate "rpms/lib" (some "X11") ≠ coordinate "rpms/libX" (some "11") := by
    decide
  refine ⟨apart, (make_eq_iff_of_apart apart).1.2 ⟨by decide, Or.inr (Or.inl ?_)⟩⟩
  exact ⟨['X'], by decide, by decide, by decide⟩

/-- The branch `_1` of `ns/app` and the branch `1` of `ns/app_` share a name with no collision of
the hash. -/
theorem shared_without_collision :
    coordinate "https://example.com/ns/app" (some "_1") ≠
        coordinate "https://example.com/ns/app_" (some "1") ∧
      make "https://example.com/ns/app" (some "_1") =
        make "https://example.com/ns/app_" (some "1") ∧
      ¬ (coordinate "https://example.com/ns/app" (some "_1")).Collide
        (coordinate "https://example.com/ns/app_" (some "1")) := by
  have sameText : (coordinate "https://example.com/ns/app" (some "_1")).text =
      (coordinate "https://example.com/ns/app_" (some "1")).text := by decide +kernel
  have sameVisible : visible "https://example.com/ns/app" (some "_1") =
      visible "https://example.com/ns/app_" (some "1") := by decide +kernel
  refine ⟨by decide +kernel, make_eq_iff.2 ⟨sameVisible, ?_⟩, fun collide => collide.1 sameText⟩
  rw [Coordinate.digits, Coordinate.digits, sameText]

end GitName
end ContainerBuild
