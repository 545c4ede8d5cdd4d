namespace ContainerBuild

/-!
# Finite maps with one representation

A `Dict` lists its entries by strictly ascending key, and the order is part of the type.  Two
dictionaries that answer every look-up alike are therefore equal (`ext_get?`), and the order of
`entries` depends on the keys alone, never on the history of insertions.  What insertion does to
look-ups is said by `get?_insert_self` and `get?_insert_of_ne`.
-/

/-- A finite map, listed by strictly ascending key. -/
structure Dict (κ α : Type) [Ord κ] where
  entries : List (κ × α)
  ascending : entries.Pairwise fun earlier later => compare earlier.1 later.1 = .lt
deriving DecidableEq

namespace Dict

variable {κ α : Type} [Ord κ]

/-- Put one entry in its place, over an entry of the same key if there is one. -/
def insertEntry (key : κ) (value : α) : List (κ × α) → List (κ × α)
  | [] => [(key, value)]
  | (other, old) :: rest =>
      match compare key other with
      | .lt => (key, value) :: (other, old) :: rest
      | .eq => (key, value) :: rest
      | .gt => (other, old) :: insertEntry key value rest

/-- An inserted entry is the new one or was there before. -/
theorem mem_insertEntry {key : κ} {value : α} {entries : List (κ × α)} {entry : κ × α}
    (member : entry ∈ insertEntry key value entries) :
    entry = (key, value) ∨ entry ∈ entries := by
  induction entries with
  | nil => simpa [insertEntry] using member
  | cons head rest inductionHypothesis =>
      obtain ⟨other, old⟩ := head
      rw [insertEntry] at member
      split at member
      · simpa using member
      · simp only [List.mem_cons] at member ⊢
        exact member.imp_right Or.inr
      · simp only [List.mem_cons] at member ⊢
        rcases member with equal | later
        · exact Or.inr (Or.inl equal)
        · exact (inductionHypothesis later).imp_right Or.inr

/-- Insertion keeps the entries ascending. -/
theorem pairwise_insertEntry [Std.TransOrd κ] [Std.LawfulEqOrd κ] (key : κ) (value : α)
    {entries : List (κ × α)}
    (ascending : entries.Pairwise fun earlier later => compare earlier.1 later.1 = .lt) :
    (insertEntry key value entries).Pairwise
      fun earlier later => compare earlier.1 later.1 = .lt := by
  induction entries with
  | nil => simp [insertEntry]
  | cons head rest inductionHypothesis =>
      obtain ⟨other, old⟩ := head
      have tail := List.pairwise_cons.1 ascending
      rw [insertEntry]
      split
      next before =>
        refine List.pairwise_cons.2 ⟨?_, ascending⟩
        intro entry member
        rcases List.mem_cons.1 member with equal | later
        · exact equal ▸ before
        · exact Std.TransCmp.lt_trans before (tail.1 entry later)
      next same =>
        have equal : key = other := Std.LawfulEqCmp.eq_of_compare same
        exact List.pairwise_cons.2 ⟨fun entry later => equal ▸ tail.1 entry later, tail.2⟩
      next after =>
        refine List.pairwise_cons.2 ⟨?_, inductionHypothesis tail.2⟩
        intro entry member
        rcases mem_insertEntry member with equal | later
        · exact equal ▸ Std.OrientedCmp.gt_iff_lt.1 after
        · exact tail.1 entry later

/-- The dictionary without entries. -/
def empty : Dict κ α := ⟨[], List.Pairwise.nil⟩

instance : Inhabited (Dict κ α) := ⟨empty⟩

/-- The value kept under a key. -/
def get? (dict : Dict κ α) (key : κ) : Option α :=
  (dict.entries.find? fun entry => compare key entry.1 == .eq).map Prod.snd

/-- Whether a key has a value. -/
def contains (dict : Dict κ α) (key : κ) : Bool := (dict.get? key).isSome

/-- Nothing is kept in the empty dictionary. -/
theorem get?_empty (key : κ) : (empty : Dict κ α).get? key = none := rfl

section Lookup

variable [Std.LawfulEqOrd κ]

/-- The key of an inserted entry finds that entry. -/
theorem find?_insertEntry_self (key : κ) (value : α) (entries : List (κ × α)) :
    (insertEntry key value entries).find? (fun entry => compare key entry.1 == .eq) =
      some (key, value) := by
  induction entries with
  | nil => simp [insertEntry]
  | cons head rest inductionHypothesis =>
      obtain ⟨other, old⟩ := head
      rw [insertEntry]
      split
      next => simp
      next => simp
      next after => simpa [after] using inductionHypothesis

/-- Another key finds what it found before. -/
theorem find?_insertEntry_of_ne {key other : κ} (value : α) (entries : List (κ × α))
    (different : other ≠ key) :
    (insertEntry key value entries).find? (fun entry => compare other entry.1 == .eq) =
      entries.find? (fun entry => compare other entry.1 == .eq) := by
  have unequal : ¬ compare other key = .eq :=
    fun same => different (Std.LawfulEqCmp.eq_of_compare same)
  induction entries with
  | nil => simp [insertEntry, unequal]
  | cons head rest inductionHypothesis =>
      obtain ⟨first, old⟩ := head
      rw [insertEntry]
      split
      next => rw [List.find?_cons_of_neg (by simpa using unequal)]
      next same =>
        have equal : key = first := Std.LawfulEqCmp.eq_of_compare same
        subst equal
        rw [List.find?_cons_of_neg (by simpa using unequal),
          List.find?_cons_of_neg (by simpa using unequal)]
      next => rw [List.find?_cons, List.find?_cons, inductionHypothesis]

/-- The entries of a dictionary are what its look-ups find. -/
theorem mem_entries_iff (dict : Dict κ α) (key : κ) (value : α) :
    (key, value) ∈ dict.entries ↔ dict.get? key = some value := by
  obtain ⟨entries, ascending⟩ := dict
  induction entries with
  | nil => simp [get?]
  | cons head rest inductionHypothesis =>
      obtain ⟨first, old⟩ := head
      have tail := List.pairwise_cons.1 ascending
      by_cases same : key = first
      · subst same
        have fresh : (key, value) ∉ rest := fun later => by
          have before := tail.1 (key, value) later
          simp at before
        simp [get?, fresh, eq_comm]
      · have unequal : ¬ compare key first = .eq :=
          fun equal => same (Std.LawfulEqCmp.eq_of_compare equal)
        have below := inductionHypothesis tail.2
        simpa [get?, same, unequal] using below

/-- What follows the first of ascending entries is everything but that entry. -/
theorem mem_tail_iff {head : κ × α} {rest : List (κ × α)}
    (ascending : (head :: rest).Pairwise fun earlier later => compare earlier.1 later.1 = .lt)
    (entry : κ × α) : entry ∈ rest ↔ entry ∈ head :: rest ∧ entry ≠ head := by
  constructor
  · intro later
    refine ⟨List.mem_cons_of_mem head later, ?_⟩
    intro equal
    have before := (List.pairwise_cons.1 ascending).1 entry later
    rw [equal] at before
    exact absurd before (by simp)
  · intro member
    exact (List.mem_cons.1 member.1).resolve_left member.2

end Lookup

variable [Std.TransOrd κ] [Std.LawfulEqOrd κ]

/-- Keep a value under a key, in place of an earlier one. -/
def insert (dict : Dict κ α) (key : κ) (value : α) : Dict κ α :=
  ⟨insertEntry key value dict.entries, pairwise_insertEntry key value dict.ascending⟩

/-- The dictionary of a list of entries, in which a later entry replaces an earlier one. -/
def ofList (entries : List (κ × α)) : Dict κ α :=
  entries.foldl (fun dict entry => dict.insert entry.1 entry.2) empty

/-- A key finds what was last inserted under it. -/
theorem get?_insert_self (dict : Dict κ α) (key : κ) (value : α) :
    (dict.insert key value).get? key = some value :=
  congrArg (Option.map Prod.snd) (find?_insertEntry_self key value dict.entries)

/-- Insertion under one key leaves every other key alone. -/
theorem get?_insert_of_ne (dict : Dict κ α) {key other : κ} (value : α)
    (different : other ≠ key) : (dict.insert key value).get? other = dict.get? other :=
  congrArg (Option.map Prod.snd) (find?_insertEntry_of_ne value dict.entries different)

/-- Two ascending lists with the same members are the same list. -/
theorem eq_of_mem_iff {first second : List (κ × α)}
    (firstAscending : first.Pairwise fun earlier later => compare earlier.1 later.1 = .lt)
    (secondAscending : second.Pairwise fun earlier later => compare earlier.1 later.1 = .lt)
    (same : ∀ entry, entry ∈ first ↔ entry ∈ second) : first = second := by
  induction first generalizing second with
  | nil =>
      cases second with
      | nil => rfl
      | cons head rest => exact absurd ((same head).2 List.mem_cons_self) List.not_mem_nil
  | cons head rest inductionHypothesis =>
      cases second with
      | nil => exact absurd ((same head).1 List.mem_cons_self) List.not_mem_nil
      | cons other others =>
          have firstTail := List.pairwise_cons.1 firstAscending
          have secondTail := List.pairwise_cons.1 secondAscending
          have heads : head = other := by
            rcases List.mem_cons.1 ((same head).1 List.mem_cons_self) with equal | later
            · exact equal
            · rcases List.mem_cons.1 ((same other).2 List.mem_cons_self) with equal | sooner
              · exact equal.symm
              · have below := secondTail.1 head later
                rw [Std.OrientedCmp.gt_iff_lt.2 (firstTail.1 other sooner)] at below
                cases below
          subst heads
          refine congrArg (head :: ·) (inductionHypothesis firstTail.2 secondTail.2 ?_)
          intro entry
          rw [mem_tail_iff firstAscending, mem_tail_iff secondAscending, same]

/-- Two dictionaries that answer every look-up alike are equal. -/
theorem ext_get? {first second : Dict κ α} (same : ∀ key, first.get? key = second.get? key) :
    first = second := by
  have entries : first.entries = second.entries :=
    eq_of_mem_iff first.ascending second.ascending fun (key, value) => by
      rw [mem_entries_iff, mem_entries_iff, same]
  cases first
  cases second
  simp_all only

end Dict

end ContainerBuild
