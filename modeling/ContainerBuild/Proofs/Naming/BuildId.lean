import ContainerBuild.Naming.BuildId
import Mathlib.Computability.Language

namespace ContainerBuild

/-!
# The rule of build IDs

Users are shown the rule of build IDs as a regular expression (`BuildId.pattern`).  Here such
expressions get their meaning, the language of the texts that they match as a whole, and the
language of the rule turns out to have the texts whose characters are of one class, and those at
the ends of another (`BuildId.mem_rule_iff`).  A text is accepted exactly if its beginning is in
that language (`BuildId.check_ok_iff`).
-/

open scoped Computability

/-! ## Regular expressions -/

/-- A part of a class of characters, as long as no character needs an escape there. -/
inductive ClassPart where
  | single (c : Char)
  | range (first last : Char)

namespace ClassPart

/-- A part as it is written. -/
def written : ClassPart → List Char
  | single c => [c]
  | range first last => [first, '-', last]

/-- Whether a part covers a character. -/
def Covers : ClassPart → Char → Prop
  | single d, c => c = d
  | range first last, c => first ≤ c ∧ c ≤ last

end ClassPart

/-- A class of characters. -/
abbrev CharClass := List ClassPart

namespace CharClass

/-- A class as it is written. -/
def written (parts : CharClass) : List Char := '[' :: parts.flatMap ClassPart.written ++ [']']

/-- Whether a class has a character. -/
def Has (parts : CharClass) (c : Char) : Prop := ∃ part ∈ parts, part.Covers c

/-- The texts of one character of a class. -/
def language (parts : CharClass) : Language Char := {text | ∃ c, parts.Has c ∧ text = [c]}

end CharClass

/-- A regular expression over classes of characters. -/
inductive Pattern where
  | one (parts : CharClass)
  | many (parts : CharClass)
  | optional (pattern : Pattern)
  | followed (first second : Pattern)

namespace Pattern

/-- A regular expression as it is written. -/
def written : Pattern → List Char
  | one parts => parts.written
  | many parts => parts.written ++ ['*']
  | optional pattern => '(' :: pattern.written ++ [')', '?']
  | followed first second => first.written ++ second.written

/-- The texts that a regular expression matches as a whole. -/
def language : Pattern → Language Char
  | one parts => parts.language
  | many parts => parts.language∗
  | optional pattern => 1 + pattern.language
  | followed first second => first.language * second.language

variable {parts : CharClass} {pattern first second : Pattern} {text : List Char}

theorem mem_optional_iff :
    text ∈ (optional pattern).language ↔ text = [] ∨ text ∈ pattern.language := Iff.rfl

theorem mem_followed_iff : text ∈ (followed first second).language ↔
    ∃ front ∈ first.language, ∃ back ∈ second.language, front ++ back = text :=
  Language.mem_mul

/-- Repeating a class gives all texts over it. -/
theorem mem_many_iff : text ∈ (many parts).language ↔ ∀ c ∈ text, parts.Has c := by
  constructor
  case mp =>
    rintro ⟨singles, rfl, each⟩ c here
    rcases List.mem_flatten.1 here with ⟨single, listed, inSingle⟩
    rcases each single listed with ⟨d, has, rfl⟩
    rwa [List.mem_singleton.1 inSingle]
  case mpr =>
    intro has
    refine Language.mem_kstar.2 ⟨text.map fun c => [c], ?_, fun single listed => ?_⟩
    · rw [← List.flatMap_def, List.flatMap_singleton']
    · rcases List.mem_map.1 listed with ⟨c, here, rfl⟩
      exact ⟨c, has c here, rfl⟩

end Pattern

namespace BuildId

open Pattern

/-- Letters and digits of ASCII. -/
def outerClass : CharClass := [.range 'A' 'Z', .range 'a' 'z', .range '0' '9']

/-- The characters of build IDs. -/
def innerClass : CharClass :=
  [.single '-', .range 'A' 'Z', .range 'a' 'z', .range '0' '9', .single '_', .single '.']

/-- The rule of build IDs as a regular expression. -/
def rule : Pattern :=
  .optional (.followed (.optional (.followed (.one outerClass) (.many innerClass)))
    (.one outerClass))

/-- The rule is what users are shown, between the marks for the beginning and the end of a text. -/
theorem pattern_eq : pattern.toList = '^' :: rule.written ++ ['$'] := by decide

/-! ## What a build ID is -/

/-- A letter or a digit of ASCII. -/
def IsLetterOrDigit (c : Char) : Prop :=
  ('A' ≤ c ∧ c ≤ 'Z') ∨ ('a' ≤ c ∧ c ≤ 'z') ∨ ('0' ≤ c ∧ c ≤ '9')

/-- A text is empty, or begins and ends with a letter or a digit and has only those and three marks
between. -/
def WellFormed (text : List Char) : Prop :=
  text = [] ∨
    (∃ c ∈ text.head?, IsLetterOrDigit c) ∧ (∃ c ∈ text.getLast?, IsLetterOrDigit c) ∧
      ∀ c ∈ text, IsLetterOrDigit c ∨ c = '-' ∨ c = '_' ∨ c = '.'

theorem has_outerClass_iff {c : Char} : outerClass.Has c ↔ IsLetterOrDigit c := by
  simp only [CharClass.Has, outerClass, List.exists_mem_cons_iff, List.not_mem_nil, false_and,
    exists_false, or_false, ClassPart.Covers, IsLetterOrDigit]

theorem has_innerClass_iff {c : Char} :
    innerClass.Has c ↔ IsLetterOrDigit c ∨ c = '-' ∨ c = '_' ∨ c = '.' := by
  simp only [CharClass.Has, innerClass, List.exists_mem_cons_iff, List.not_mem_nil, false_and,
    exists_false, or_false, ClassPart.Covers, IsLetterOrDigit]
  tauto

theorem isOuter_iff {c : Char} : isOuter c = true ↔ outerClass.Has c := by
  have alphanumeric : isOuter c = ((c.isUpper || c.isLower) || c.isDigit) := rfl
  have upper : c.isUpper = decide ('A' ≤ c ∧ c ≤ 'Z') := rfl
  have lower : c.isLower = (decide ('a' ≤ c) && decide (c ≤ 'z')) := rfl
  have digit : c.isDigit = (decide ('0' ≤ c) && decide (c ≤ '9')) := rfl
  rw [has_outerClass_iff, alphanumeric, upper, lower, digit]
  simp only [Bool.or_eq_true, Bool.and_eq_true, decide_eq_true_eq, or_assoc, IsLetterOrDigit]

theorem isInner_iff {c : Char} : isInner c = true ↔ innerClass.Has c := by
  have outer : c.isAlphanum = true ↔ outerClass.Has c := isOuter_iff
  simp only [isInner, Bool.or_eq_true, beq_iff_eq, outer, has_outerClass_iff, has_innerClass_iff,
    or_assoc]

theorem has_inner_of_outer {c : Char} (outer : outerClass.Has c) : innerClass.Has c :=
  has_innerClass_iff.2 (Or.inl (has_outerClass_iff.1 outer))

/-- The characters of a text are of the one class, and those at its ends of the other. -/
structure Framed (text : List Char) : Prop where
  head : ∀ c ∈ text.head?, outerClass.Has c
  last : ∀ c ∈ text.getLast?, outerClass.Has c
  inner : ∀ c ∈ text, innerClass.Has c

theorem framed_nil : Framed [] where
  head := fun _ none => nomatch none
  last := fun _ none => nomatch none
  inner := fun _ none => nomatch none

theorem framed_concat_iff {front : List Char} {last : Char} :
    Framed (front ++ [last]) ↔
      (∀ c ∈ front.head?, outerClass.Has c) ∧ (∀ c ∈ front, innerClass.Has c) ∧
        outerClass.Has last := by
  constructor
  case mp =>
    intro framed
    refine ⟨fun c here => framed.head c ?_, fun c here => ?_, framed.last last ?_⟩
    · rw [List.head?_append, Option.mem_def.1 here]
      rfl
    · exact framed.inner c (List.mem_append_left _ here)
    · exact List.getLast?_concat
  case mpr =>
    rintro ⟨head, inner, outer⟩
    refine ⟨fun c here => ?_, fun c here => ?_, List.forall_mem_append.2 ⟨inner, ?_⟩⟩
    · cases front with
      | nil => exact Option.some.inj here ▸ outer
      | cons d front => exact head c here
    · rw [List.getLast?_concat] at here
      exact Option.some.inj here ▸ outer
    · exact List.forall_mem_singleton.2 (has_inner_of_outer outer)

theorem isValid_iff {text : List Char} : isValid text = true ↔ Framed text := by
  simp only [isValid, Bool.and_eq_true, List.all_eq_true, Option.all_eq_true, isOuter_iff,
    isInner_iff]
  constructor
  case mp =>
    rintro ⟨⟨inner, head⟩, last⟩
    exact ⟨head, last, inner⟩
  case mpr =>
    intro framed
    exact ⟨⟨framed.inner, framed.head⟩, framed.last⟩

theorem wellFormed_iff {text : List Char} : WellFormed text ↔ Framed text := by
  constructor
  case mp =>
    rintro (rfl | ⟨⟨c, first, head⟩, ⟨d, final, last⟩, inner⟩)
    · exact framed_nil
    · exact ⟨fun _ here => has_outerClass_iff.2 (Option.mem_unique first here ▸ head),
        fun _ here => has_outerClass_iff.2 (Option.mem_unique final here ▸ last),
        fun c here => has_innerClass_iff.2 (inner c here)⟩
  case mpr =>
    intro framed
    by_cases empty : text = []
    · exact Or.inl empty
    · have first := List.head?_eq_some_head empty
      have final := List.getLast?_eq_some_getLast empty
      exact Or.inr ⟨⟨_, first, has_outerClass_iff.1 (framed.head _ first)⟩,
        ⟨_, final, has_outerClass_iff.1 (framed.last _ final)⟩,
        fun c here => has_innerClass_iff.1 (framed.inner c here)⟩

/-! ## The language of the rule -/

/-- What stands before the last character of a build ID. -/
theorem mem_front_iff {front : List Char} :
    front ∈ (optional (.followed (.one outerClass) (.many innerClass))).language ↔
      (∀ c ∈ front.head?, outerClass.Has c) ∧ ∀ c ∈ front, innerClass.Has c := by
  rw [mem_optional_iff, mem_followed_iff]
  cases front with
  | nil => exact iff_of_true (Or.inl rfl) ⟨framed_nil.head, framed_nil.inner⟩
  | cons c rest =>
      constructor
      case mp =>
        rintro (none | ⟨_, ⟨d, has, rfl⟩, back, repeated, same⟩)
        · cases none
        · cases same
          exact ⟨fun _ here => Option.some.inj here ▸ has,
            List.forall_mem_cons.2 ⟨has_inner_of_outer has, mem_many_iff.1 repeated⟩⟩
      case mpr =>
        rintro ⟨head, inner⟩
        exact Or.inr ⟨[c], ⟨c, head c rfl, rfl⟩, rest,
          mem_many_iff.2 (List.forall_mem_cons.1 inner).2, rfl⟩

/-- The texts that the rule matches.  The last character is matched by itself, so a text is taken
apart from its end. -/
theorem mem_rule_iff {text : List Char} : text ∈ rule.language ↔ Framed text := by
  rw [rule, mem_optional_iff, mem_followed_iff]
  rcases List.eq_nil_or_concat text with rfl | ⟨front, last, rfl⟩
  · exact iff_of_true (Or.inl rfl) framed_nil
  · rw [List.concat_eq_append, framed_concat_iff, ← and_assoc, ← mem_front_iff]
    constructor
    case mp =>
      rintro (none | ⟨before, matched, _, ⟨d, has, rfl⟩, same⟩)
      · exact absurd none (List.concat_ne_nil last front)
      · rcases List.append_inj' same rfl with ⟨rfl, lasts⟩
        exact ⟨matched, List.singleton_inj.1 lasts ▸ has⟩
    case mpr =>
      rintro ⟨matched, has⟩
      exact Or.inr ⟨front, matched, [last], ⟨last, has, rfl⟩, rfl⟩

/-! ## Checking a text -/

theorem cut_of_length_le {text : String} (short : text.toList.length ≤ maxLength) :
    cut text = text := by
  rw [cut, List.take_of_length_le short, String.ofList_toList]

theorem toList_cut (text : String) :
    (cut text).toList = text.toList.take (min maxLength text.length) := by
  rw [cut, String.toList_ofList, List.take_eq_take_iff, String.length_toList]
  omega

theorem length_cut_le (text : String) : (cut text).toList.length ≤ maxLength := by
  rw [cut, String.toList_ofList]
  exact List.length_take_le _ _

theorem check_eq_ok_cut_iff {text : String} :
    check text = .ok (cut text) ↔ isValid (cut text).toList = true := by
  rw [check]
  split
  case isTrue valid => exact ⟨fun _ => valid, fun _ => rfl⟩
  case isFalse invalid =>
    refine ⟨fun accepted => ?_, fun valid => absurd valid invalid⟩
    cases accepted

theorem eq_cut_of_check {text id : String} (accepted : check text = .ok id) : cut text = id := by
  rw [check] at accepted
  split at accepted
  case isTrue => exact Except.ok.inj accepted
  case isFalse => cases accepted

theorem check_of_check {text id : String} (checked : check text = .ok id) :
    check id = .ok id := by
  rw [check] at checked
  split at checked
  next valid =>
    have again : cut (cut text) = cut text := by
      rw [cut, cut, String.toList_ofList, List.take_take, Nat.min_self]
    rw [← Except.ok.inj checked, check, again, if_pos valid]
  next => cases checked

/-- A text is accepted as its beginning, exactly if the rule matches that. -/
theorem check_ok_iff {text id : String} :
    check text = .ok id ↔
      id.toList = text.toList.take (min maxLength text.length) ∧ id.toList ∈ rule.language := by
  rw [mem_rule_iff, ← isValid_iff, ← toList_cut, String.toList_inj]
  constructor
  case mp =>
    intro accepted
    have same := eq_cut_of_check accepted
    rw [← same] at accepted ⊢
    exact ⟨rfl, check_eq_ok_cut_iff.1 accepted⟩
  case mpr =>
    rintro ⟨rfl, valid⟩
    exact check_eq_ok_cut_iff.2 valid

/-- What a check leaves alone follows the rule and is no longer than a build ID may be. -/
theorem follows_of_check {id : String} (kept : check id = .ok id) :
    id.toList ∈ rule.language ∧ id.length ≤ maxLength := by
  have short := length_cut_le id
  rw [eq_cut_of_check kept, String.length_toList] at short
  exact ⟨(check_ok_iff.1 kept).2, short⟩

end BuildId
end ContainerBuild
