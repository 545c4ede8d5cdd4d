import ContainerBuild.Proofs.Naming.GitName

namespace ContainerBuild
namespace GitName

/-!
# How two texts share the limit of a name

Two texts that are merged are taken from by turns.  How much is kept of either is known beforehand
from their lengths (`share_eq`): half of what there is room for, and what the other text leaves of
its half.  From that, `merge_shares` says what a merged name is, that the division is fair to both
texts, and how long the name can be.

A merged name always has the form of a build ID.  But the cluster allows it one character more
than a build ID may have, and a name that fills the limit of the cluster is cut when it is checked
(`check_merge_iff`).
-/

/-! ## Fair shares -/

/-- A division of a budget among two texts of given lengths, by how much is kept of them, that
cuts neither text as long as there is room, or while the other has more than its half. -/
structure Fair (budget first second keptOfFirst keptOfSecond : Nat) : Prop where
  first_cut : keptOfFirst < first →
    keptOfFirst + keptOfSecond = budget ∧ keptOfSecond ≤ budget / 2
  second_cut : keptOfSecond < second →
    keptOfFirst + keptOfSecond = budget ∧ keptOfFirst ≤ (budget + 1) / 2
  uncut : first + second ≤ budget → keptOfFirst = first ∧ keptOfSecond = second

theorem fair_shares (budget first second : Nat) :
    Fair budget first second (firstShare budget first second)
      (secondShare budget first second) := by
  have together := firstShare_add_secondShare budget first second
  constructor
  all_goals
    rw [firstShare, secondShare] at *
    omega

/-! ## Merged names -/

/-- The characters of a text that may stand in a name. -/
def allowed (label : Bool) (text : String) : List Char := text.toList.filter (isAllowed label)

/-- How many characters of its two texts a name of limited length has room for, one place being
left for the dash between them. -/
def room (limit : Nat) : Nat := max 1 (min limit clusterLimit - 1)

/-- What is kept of the first of two texts in their merged name. -/
def keptOfFirst (first second : String) (limit : Nat) (label : Bool) : List Char :=
  (allowed label first).take
    (firstShare (room limit) (allowed label first).length (allowed label second).length)

/-- What is kept of the second of two texts in their merged name. -/
def keptOfSecond (first second : String) (limit : Nat) (label : Bool) : List Char :=
  (allowed label second).take
    (secondShare (room limit) (allowed label first).length (allowed label second).length)

theorem merge_eq (first second : String) (limit : Nat) (label : Bool) :
    (merge first second limit label).toList =
      joinDash (trimDashes (keptOfFirst first second limit label))
        (trimDashes (keptOfSecond first second limit label)) := by
  rw [merge, String.toList_ofList, share_eq]
  rfl

theorem joinDash_eq_intercalate (first second : List Char) :
    joinDash first second = List.intercalate ['-'] ([first, second].filter (· ≠ [])) := by
  cases first with
  | nil =>
      cases second with
      | nil => rfl
      | cons d second => exact List.intercalate_singleton.symm
  | cons c first =>
      cases second with
      | nil => exact List.intercalate_singleton.symm
      | cons d second =>
          have both : [c :: first, d :: second].filter (· ≠ []) = [c :: first, d :: second] := rfl
          rw [both, List.intercalate_cons_cons, List.intercalate_singleton, List.append_assoc]
          rfl

theorem length_keptOfFirst (first second : String) (limit : Nat) (label : Bool) :
    (keptOfFirst first second limit label).length =
      firstShare (room limit) (allowed label first).length (allowed label second).length :=
  List.length_take_of_le (Nat.min_le_left _ _)

theorem length_keptOfSecond (first second : String) (limit : Nat) (label : Bool) :
    (keptOfSecond first second limit label).length =
      secondShare (room limit) (allowed label first).length (allowed label second).length :=
  List.length_take_of_le (Nat.min_le_left _ _)

theorem length_kept (first second : String) (limit : Nat) (label : Bool) :
    (keptOfFirst first second limit label).length +
        (keptOfSecond first second limit label).length =
      min (room limit) ((allowed label first).length + (allowed label second).length) := by
  rw [length_keptOfFirst, length_keptOfSecond, firstShare_add_secondShare]

theorem length_merge_le_limit (first second : String) {limit : Nat} (label : Bool)
    (positive : 1 ≤ limit) :
    (merge first second limit label).toList.length ≤ min limit clusterLimit := by
  have together := length_kept first second limit label
  have firstLe := (trimDashes_sublist (keptOfFirst first second limit label)).length_le
  have secondLe := (trimDashes_sublist (keptOfSecond first second limit label)).length_le
  have cluster : clusterLimit = 64 := rfl
  rw [merge_eq, length_joinDash]
  rw [room] at together
  split
  case isTrue => omega
  case isFalse both =>
    -- Two parts are two characters at least, so the limit has room for the dash as well.
    rw [not_or, ← ne_eq, ← ne_eq, ← List.length_pos_iff, ← List.length_pos_iff] at both
    omega

/-- A merged name is made of the beginnings of its two texts, which share the room that the limit
leaves them fairly. -/
theorem merge_shares (first second : String) (limit : Nat) (label : Bool) :
    (merge first second limit label).toList =
        List.intercalate ['-']
          (([keptOfFirst first second limit label, keptOfSecond first second limit label].map
            trimDashes).filter (· ≠ [])) ∧
      Fair (room limit) (allowed label first).length (allowed label second).length
        (keptOfFirst first second limit label).length
        (keptOfSecond first second limit label).length ∧
      (1 ≤ limit → (merge first second limit label).toList.length ≤ min limit clusterLimit) := by
  refine ⟨by rw [merge_eq, joinDash_eq_intercalate]; rfl, ?_,
    length_merge_le_limit first second label⟩
  rw [length_keptOfFirst, length_keptOfSecond]
  exact fair_shares _ _ _

/-! ## Merged names as build IDs -/

theorem allowed_of_mem_kept {first second : String} {limit : Nat} {label : Bool} :
    (∀ c ∈ keptOfFirst first second limit label, isAllowed label c = true) ∧
      ∀ c ∈ keptOfSecond first second limit label, isAllowed label c = true :=
  ⟨fun _ here => (List.mem_filter.1 (List.mem_of_mem_take here)).2,
    fun _ here => (List.mem_filter.1 (List.mem_of_mem_take here)).2⟩

/-- Two texts whose merged name takes all the characters that the cluster allows: there is room
for them, either text has its part, and nothing of the parts is trimmed. -/
structure FillsLimit (first second : String) (limit : Nat) : Prop where
  limit_large : clusterLimit ≤ limit
  first_present : allowed false first ≠ []
  second_present : allowed false second ≠ []
  enough : clusterLimit ≤ (allowed false first).length + (allowed false second).length + 1
  first_trimmed : Trimmed false (keptOfFirst first second limit false)
  second_trimmed : Trimmed false (keptOfSecond first second limit false)

theorem length_merge_eq_iff (first second : String) (limit : Nat) :
    (merge first second limit false).toList.length = clusterLimit ↔
      FillsLimit first second limit := by
  have together := length_kept first second limit false
  have cluster : clusterLimit = 64 := rfl
  rw [merge_eq, length_joinDash]
  constructor
  case mp =>
    intro full
    have firstSublist := trimDashes_sublist (keptOfFirst first second limit false)
    have secondSublist := trimDashes_sublist (keptOfSecond first second limit false)
    have firstLe := firstSublist.length_le
    have secondLe := secondSublist.length_le
    rw [room] at together
    split at full
    case isTrue => omega
    case isFalse both =>
      have firstWhole := firstSublist.eq_of_length (by omega)
      have secondWhole := secondSublist.eq_of_length (by omega)
      rw [firstWhole, secondWhole, not_or] at both
      exact {
        limit_large := by omega
        first_present := fun none => both.1 (by rw [keptOfFirst, none, List.take_nil])
        second_present := fun none => both.2 (by rw [keptOfSecond, none, List.take_nil])
        enough := by omega
        first_trimmed := firstWhole ▸ trimmed_trimDashes allowed_of_mem_kept.1
        second_trimmed := secondWhole ▸ trimmed_trimDashes allowed_of_mem_kept.2 }
  case mpr =>
    intro fills
    have limitLarge := fills.limit_large
    have enough := fills.enough
    have firstPresent := List.length_pos_iff.2 fills.first_present
    have secondPresent := List.length_pos_iff.2 fills.second_present
    have firstKept := length_keptOfFirst first second limit false
    have secondKept := length_keptOfSecond first second limit false
    have whole : room limit = 63 := by
      rw [room]
      omega
    rw [whole, firstShare] at firstKept
    rw [whole, secondShare] at secondKept
    rw [trimDashes_eq_self fills.first_trimmed, trimDashes_eq_self fills.second_trimmed,
      if_neg (not_or.2 ⟨List.ne_nil_of_length_pos (by omega),
        List.ne_nil_of_length_pos (by omega)⟩)]
    omega

/-- The beginning of a name is a build ID as far as its characters go, unless a dash ends it. -/
theorem isValid_take_iff {text : List Char} (trimmed : Trimmed false text) (count : Nat) :
    BuildId.isValid (text.take count) = true ↔ (text.take count).getLast? ≠ some '-' := by
  constructor
  case mp =>
    intro valid dash
    rw [BuildId.isValid, Bool.and_eq_true, dash] at valid
    exact absurd valid.2 (by decide)
  case mpr =>
    intro noDash
    refine BuildId.isValid_of_trimmed ⟨?_, ?_, ?_⟩
    · exact fun c here => trimmed.allowed c (List.mem_of_mem_take here)
    · intro c here
      rw [List.head?_take] at here
      split at here
      · exact absurd here (Option.not_mem_none c)
      · exact trimmed.head c here
    · exact fun c here dash => noDash (dash ▸ here)

theorem length_merge_le_cluster (first second : String) (limit : Nat) (label : Bool) :
    (merge first second limit label).toList.length ≤ clusterLimit := by
  refine Nat.le_trans (length_merge_le first second limit label) ?_
  have cluster : clusterLimit = 64 := rfl
  omega

/-- A merged name is a build ID as it stands, unless it takes all the characters that the cluster
allows, which are one more than those of a build ID.  Such a name is cut, and what is left of it is
a build ID unless a dash ends it. -/
theorem check_merge_iff (first second : String) (limit : Nat) :
    (BuildId.check (merge first second limit false) = .ok (merge first second limit false) ↔
        ¬ FillsLimit first second limit) ∧
      (FillsLimit first second limit ↔
        (merge first second limit false).toList.length = clusterLimit) ∧
      (merge first second limit false).toList.length ≤ clusterLimit ∧
      (BuildId.check (merge first second limit false) =
          .ok (BuildId.cut (merge first second limit false)) ↔
        (BuildId.cut (merge first second limit false)).toList.getLast? ≠ some '-') := by
  have trimmed := trimmed_merge first second limit false
  have short := length_merge_le_cluster first second limit false
  have full := length_merge_eq_iff first second limit
  have cluster : clusterLimit = BuildId.maxLength + 1 := rfl
  refine ⟨⟨fun accepted fills => ?_, fun fits => ?_⟩, full.symm, short, ?_⟩
  · -- What is accepted is never longer than a build ID.
    have cutLength := BuildId.length_cut_le (merge first second limit false)
    rw [BuildId.eq_cut_of_check accepted, full.2 fills] at cutLength
    omega
  · have shorter := mt full.1 fits
    exact BuildId.check_of_trimmed trimmed (by omega)
  · rw [BuildId.check_eq_ok_cut_iff, BuildId.cut, String.toList_ofList]
    exact isValid_take_iff trimmed _

/-- A name of sixty-four characters is refused where the cut takes its last letter and leaves the
dash before it. -/
theorem full_name_refused :
    merge (String.ofList (List.replicate 62 'a')) "b" clusterLimit false =
        String.ofList (List.replicate 62 'a' ++ ['-', 'b']) ∧
      BuildId.check (merge (String.ofList (List.replicate 62 'a')) "b" clusterLimit false) =
        .error (String.ofList (List.replicate 62 'a' ++ ['-'])) := by
  have parts : joinDash (trimDashes (List.replicate 62 'a')) (trimDashes ['b']) =
      List.replicate 62 'a' ++ ['-', 'b'] := by decide
  have merged : merge (String.ofList (List.replicate 62 'a')) "b" clusterLimit false =
      String.ofList (List.replicate 62 'a' ++ ['-', 'b']) := by
    rw [merge, String.toList_ofList, ← parts]
    rfl
  refine ⟨merged, ?_⟩
  rw [merged, BuildId.check, BuildId.cut, String.toList_ofList, String.toList_ofList]
  rfl

end GitName
end ContainerBuild
