import ContainerBuild.Naming.GitName
import ContainerBuild.Proofs.Naming.BuildId

namespace ContainerBuild

/-!
# Names of repositories as build IDs

A name is put together from parts with no dash at either end (`GitName.Trimmed`), of which the last
are digits of a hash.  How much the limit leaves of the other parts is known from their lengths
(`GitName.share_eq`), and it always fits.  So checking a name as a build ID never cuts it and never
fails (`GitName.check_make`).
-/

/-! ## The digits of the hash -/

namespace Sha256

theorem length_hexDigest (text : String) : (hexDigest text).length = 64 := rfl

theorem mem_hexDigest {text : String} {c : Char} (here : c ∈ hexDigest text) :
    ∃ digit < 16, c = Nat.digitChar digit := by
  rcases List.mem_flatMap.1 here with ⟨word, -, inWord⟩
  rcases List.mem_map.1 inWord with ⟨place, -, rfl⟩
  exact ⟨_, Nat.mod_lt _ (by decide), rfl⟩

end Sha256

namespace GitName

/-! ## Parts without dashes at their ends -/

/-- What may stand in a name that is no label. -/
theorem isAllowed_iff {c : Char} :
    isAllowed false c = true ↔ c = '-' ∨ ('a' ≤ c ∧ c ≤ 'z') ∨ ('0' ≤ c ∧ c ≤ '9') := by
  simp only [isAllowed, Bool.false_and, Bool.or_false, Bool.or_eq_true, Bool.and_eq_true,
    beq_iff_eq, decide_eq_true_eq, or_assoc]

/-- Characters that may stand in a name, with no dash at either end. -/
structure Trimmed (label : Bool) (text : List Char) : Prop where
  allowed : ∀ c ∈ text, isAllowed label c = true
  head : ∀ c ∈ text.head?, c ≠ '-'
  last : ∀ c ∈ text.getLast?, c ≠ '-'

theorem head?_dropWhile_ne (text : List Char) :
    ∀ c ∈ (text.dropWhile (· == '-')).head?, c ≠ '-' := by
  intro c here
  have stops := List.head?_dropWhile_not (· == '-') text
  rw [here] at stops
  simpa using stops

theorem trimDashes_sublist (text : List Char) : (trimDashes text).Sublist text := by
  rw [trimDashes]
  refine (List.reverse_sublist.1 ?_).trans (List.dropWhile_sublist (· == '-'))
  rw [List.reverse_reverse]
  exact List.dropWhile_sublist (· == '-')

theorem trimmed_trimDashes {label : Bool} {text : List Char}
    (allowed : ∀ c ∈ text, isAllowed label c = true) : Trimmed label (trimDashes text) where
  allowed := fun c here => allowed c ((trimDashes_sublist text).subset here)
  head := by
    intro c here
    rw [trimDashes, List.head?_reverse] at here
    refine head?_dropWhile_ne text c ?_
    -- The end of the reversed text is kept as long as anything is.
    rw [← List.getLast?_reverse, ← List.takeWhile_append_dropWhile (p := (· == '-'))
      (l := (text.dropWhile (· == '-')).reverse), List.getLast?_append, here]
    rfl
  last := by
    intro c here
    rw [trimDashes, List.getLast?_reverse] at here
    exact head?_dropWhile_ne _ c here

theorem dropWhile_dash_eq_self {text : List Char} (head : ∀ c ∈ text.head?, c ≠ '-') :
    text.dropWhile (· == '-') = text := by
  cases text with
  | nil => rfl
  | cons c text =>
      have noDash : ¬ (c == '-') = true := by
        rw [beq_iff_eq]
        exact head c rfl
      exact List.dropWhile_cons_of_neg noDash

theorem trimDashes_eq_self {label : Bool} {text : List Char} (trimmed : Trimmed label text) :
    trimDashes text = text := by
  have last : ∀ c ∈ text.reverse.head?, c ≠ '-' := by
    rw [List.head?_reverse]
    exact trimmed.last
  rw [trimDashes, dropWhile_dash_eq_self trimmed.head, dropWhile_dash_eq_self last,
    List.reverse_reverse]

theorem trimmed_joinDash {label : Bool} {first second : List Char}
    (firstTrimmed : Trimmed label first) (secondTrimmed : Trimmed label second) :
    Trimmed label (joinDash first second) := by
  have dash : isAllowed label '-' = true := rfl
  cases first with
  | nil => exact secondTrimmed
  | cons c first =>
      cases second with
      | nil => exact firstTrimmed
      | cons d second =>
          constructor
          case allowed =>
            intro e here
            rcases List.mem_append.1 here with inFirst | later
            · exact firstTrimmed.allowed e inFirst
            · rcases List.mem_cons.1 later with rfl | inSecond
              · exact dash
              · exact secondTrimmed.allowed e inSecond
          case head => exact firstTrimmed.head
          case last =>
            intro e here
            rw [joinDash, List.getLast?_append, List.getLast?_cons_cons] at here
            · refine secondTrimmed.last e ?_
              cases found : (d :: second).getLast? with
              | none => simp at found
              | some last =>
                  rw [found] at here
                  exact here
            · exact List.cons_ne_nil _ _
            · exact List.cons_ne_nil _ _

/-- Joining adds a dash where there are two parts to join. -/
theorem length_joinDash (first second : List Char) :
    (joinDash first second).length =
      first.length + second.length + if first = [] ∨ second = [] then 0 else 1 := by
  cases first with
  | nil => rw [joinDash, if_pos (Or.inl rfl), List.length_nil, Nat.zero_add, Nat.add_zero]
  | cons c first =>
      cases second with
      | nil => rw [if_pos (Or.inr rfl)]; rfl
      | cons d second =>
          have both : ¬ (c :: first = [] ∨ d :: second = []) :=
            not_or.2 ⟨List.cons_ne_nil _ _, List.cons_ne_nil _ _⟩
          rw [if_neg both]
          exact List.length_append

theorem length_joinDash_le (first second : List Char) :
    (joinDash first second).length ≤ first.length + second.length + 1 := by
  rw [length_joinDash]
  split <;> omega

/-! ## Merging -/

/-- How many characters are kept of the first of two texts with so many. -/
def firstShare (budget first second : Nat) : Nat :=
  min first (max ((budget + 1) / 2) (budget - second))

/-- How many characters are kept of the second of two texts with so many. -/
def secondShare (budget first second : Nat) : Nat :=
  min second (max (budget / 2) (budget - first))

/-- After a turn of the first text the second is the first. -/
theorem firstShare_succ (budget first second : Nat) :
    firstShare (budget + 1) (first + 1) second = secondShare budget second first + 1 := by
  rw [firstShare, secondShare]
  omega

theorem secondShare_succ (budget first second : Nat) :
    secondShare (budget + 1) (first + 1) second = firstShare budget second first := by
  rw [firstShare, secondShare]
  omega

/-- What is kept of two texts that are taken from by turns, in closed form. -/
theorem share_eq (budget : Nat) (first second : List Char) :
    share budget first second =
      (first.take (firstShare budget first.length second.length),
        second.take (secondShare budget first.length second.length)) := by
  fun_induction share budget first second with
  | case1 first second =>
      have noFirst : firstShare 0 first.length second.length = 0 := by
        rw [firstShare]
        omega
      have noSecond : secondShare 0 first.length second.length = 0 := by
        rw [secondShare]
        omega
      rw [noFirst, noSecond, List.take_zero, List.take_zero]
  | case2 budget second =>
      rw [List.take_nil, Prod.mk.injEq, List.take_eq_take_iff, secondShare, List.length_nil]
      exact ⟨rfl, by omega⟩
  | case3 budget c first second kept others shared inductionHypothesis =>
      -- The texts change places after a turn, and so do their shares of what is left.
      rw [shared, Prod.mk.injEq] at inductionHypothesis
      rw [List.length_cons, firstShare_succ, secondShare_succ, List.take_succ_cons,
        inductionHypothesis.1, inductionHypothesis.2]

/-- Together the shares use up the budget, unless there is nothing left to take. -/
theorem firstShare_add_secondShare (budget first second : Nat) :
    firstShare budget first second + secondShare budget first second =
      min budget (first + second) := by
  rw [firstShare, secondShare]
  omega

/-- What is taken of either text is its beginning. -/
theorem prefixes_share (budget : Nat) (first second : List Char) :
    (share budget first second).1 <+: first ∧ (share budget first second).2 <+: second := by
  rw [share_eq]
  exact ⟨List.take_prefix _ _, List.take_prefix _ _⟩

theorem length_share_le (budget : Nat) (first second : List Char) :
    (share budget first second).1.length + (share budget first second).2.length ≤ budget := by
  have together := firstShare_add_secondShare budget first.length second.length
  rw [share_eq, List.length_take, List.length_take]
  omega

theorem trimmed_merge (first second : String) (limit : Nat) (label : Bool) :
    Trimmed label (merge first second limit label).toList := by
  rw [merge, String.toList_ofList]
  refine trimmed_joinDash (trimmed_trimDashes fun c here => ?_)
    (trimmed_trimDashes fun c here => ?_)
  · exact (List.mem_filter.1 ((prefixes_share _ _ _).1.subset here)).2
  · exact (List.mem_filter.1 ((prefixes_share _ _ _).2.subset here)).2

theorem length_merge_le (first second : String) (limit : Nat) (label : Bool) :
    (merge first second limit label).toList.length ≤ max 1 (min limit clusterLimit - 1) + 1 := by
  rw [merge, String.toList_ofList]
  refine Nat.le_trans (length_joinDash_le _ _) (Nat.succ_le_succ ?_)
  exact Nat.le_trans
    (Nat.add_le_add (trimDashes_sublist _).length_le (trimDashes_sublist _).length_le)
    (length_share_le _ _ _)

/-! ## Names -/

theorem trimmed_hash (repository branch : String) : Trimmed false (hash repository branch) := by
  have digits : ∀ digit < 16, isAllowed false (Nat.digitChar digit) = true ∧
      Nat.digitChar digit ≠ '-' := by decide
  have each : ∀ c ∈ hash repository branch, isAllowed false c = true ∧ c ≠ '-' := by
    intro c here
    rcases Sha256.mem_hexDigest (List.mem_of_mem_take here) with ⟨digit, small, rfl⟩
    exact digits digit small
  exact ⟨fun c here => (each c here).1, fun c here => (each c (List.mem_of_mem_head? here)).2,
    fun c here => (each c (List.mem_of_mem_getLast? here)).2⟩

theorem length_take_hexDigest (text : String) :
    ((Sha256.hexDigest text).take hashLength).length = hashLength := by
  rw [List.length_take, Sha256.length_hexDigest]
  rfl

theorem length_hash (repository branch : String) :
    (hash repository branch).length = hashLength := length_take_hexDigest _

theorem trimmed_make (repository : String) (branch : Option String) :
    Trimmed false (make repository branch).toList := by
  rw [make, String.toList_ofList]
  exact trimmed_joinDash (trimmed_merge _ _ _ _) (trimmed_hash _ _)

theorem length_make_le (repository : String) (branch : Option String) :
    (make repository branch).toList.length ≤ nameLimit := by
  rw [make, String.toList_ofList]
  refine Nat.le_trans (length_joinDash_le _ _) ?_
  rw [length_hash]
  exact Nat.succ_le_succ (Nat.add_le_add_right (length_merge_le _ _ _ _) _)

end GitName

/-! ## Build IDs -/

namespace BuildId

theorem isOuter_of_isAllowed {c : Char} (allowed : GitName.isAllowed false c = true)
    (noDash : c ≠ '-') : isOuter c = true :=
  isOuter_iff.2 (has_outerClass_iff.2
    (Or.inr ((GitName.isAllowed_iff.1 allowed).resolve_left noDash)))

theorem isInner_of_isAllowed {c : Char} (allowed : GitName.isAllowed false c = true) :
    isInner c = true := by
  by_cases dash : c = '-'
  · rw [dash]
    rfl
  · have outer : c.isAlphanum = true := isOuter_of_isAllowed allowed dash
    rw [isInner, outer]
    rfl

/-- Characters that may stand in a name, with no dash at either end, form a build ID. -/
theorem isValid_of_trimmed {text : List Char} (trimmed : GitName.Trimmed false text) :
    isValid text = true := by
  rw [isValid, Bool.and_eq_true, Bool.and_eq_true, List.all_eq_true, Option.all_eq_true,
    Option.all_eq_true]
  refine ⟨⟨fun c here => isInner_of_isAllowed (trimmed.allowed c here), fun c first => ?_⟩,
    fun c last => ?_⟩
  · exact isOuter_of_isAllowed (trimmed.allowed c (List.mem_of_mem_head? first))
      (trimmed.head c first)
  · exact isOuter_of_isAllowed (trimmed.allowed c (List.mem_of_mem_getLast? last))
      (trimmed.last c last)

theorem check_of_trimmed {text : String} (trimmed : GitName.Trimmed false text.toList)
    (short : text.toList.length ≤ maxLength) : check text = .ok text := by
  rw [check, cut_of_length_le short, if_pos (isValid_of_trimmed trimmed)]

end BuildId

/-- The name of a repository and a branch is a build ID as it stands. -/
theorem GitName.check_make (repository : String) (branch : Option String) :
    BuildId.check (make repository branch) = .ok (make repository branch) :=
  BuildId.check_of_trimmed (trimmed_make repository branch)
    (Nat.le_trans (length_make_le repository branch) (by decide))

end ContainerBuild
