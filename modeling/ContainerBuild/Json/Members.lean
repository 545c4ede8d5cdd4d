namespace ContainerBuild

/-!
# Members of objects

The members of an object are a list of names and values in order.  Putting a member changes what
its own name finds and nothing else (`lookup_put_self`, `lookup_put_of_ne`).  No name occurs twice
among the members that a sequence describes (`nodup_names_ofPairs`), and putting keeps it so.
-/

/-- The named parts of an object, in order. -/
abbrev Members (α : Type) := List (String × α)

namespace Members

variable {α : Type}

/-- Set a member: over the first of that name, or at the end if there is none. -/
def put (name : String) (value : α) : Members α → Members α
  | [] => [(name, value)]
  | (other, old) :: rest =>
      if other = name then (name, value) :: rest else (other, old) :: put name value rest

/-- The object that a sequence of members describes: a repeated name keeps its first place and
its last value. -/
def ofPairs (pairs : List (String × α)) : Members α :=
  pairs.foldl (fun members pair => put pair.1 pair.2 members) []

/-- Take the first member of a name out; the last member moves into its place. -/
def takeOut (name : String) : Members α → Members α
  | [] => []
  | (other, value) :: rest =>
      if other = name then
        match rest.getLast? with
        | some last => last :: rest.dropLast
        | none => []
      else
        (other, value) :: takeOut name rest

/-- Add a member at the end unless the name is taken. -/
def putNew (name : String) (value : α) (members : Members α) : Members α :=
  if (members.lookup name).isSome then members else members ++ [(name, value)]

/-- The names, in order. -/
def names (members : Members α) : List String := members.map Prod.fst

/-- A member that is only there if its value is. -/
def optional (name : String) (value? : Option α) : Members α :=
  value?.toList.map fun value => (name, value)

/-! ## Names and look-ups -/

/-- A name finds what was last put under it. -/
theorem lookup_put_self (name : String) (value : α) (members : Members α) :
    (put name value members).lookup name = some value := by
  induction members with
  | nil => simp [put]
  | cons head rest inductionHypothesis =>
      obtain ⟨other, old⟩ := head
      rw [put]
      by_cases same : other = name
      · rw [if_pos same, List.lookup_cons_self]
      · have unequal : (name == other) = false := beq_false_of_ne (Ne.symm same)
        rw [if_neg same, List.lookup_cons, unequal]
        exact inductionHypothesis

/-- Putting a member under one name leaves every other name alone. -/
theorem lookup_put_of_ne {name other : String} (value : α) (members : Members α)
    (different : other ≠ name) :
    (put name value members).lookup other = members.lookup other := by
  induction members with
  | nil => simp [put, different]
  | cons head rest inductionHypothesis =>
      obtain ⟨first, old⟩ := head
      rw [put]
      by_cases same : first = name
      · have unequal : (other == name) = false := beq_false_of_ne different
        rw [if_pos same, List.lookup_cons, List.lookup_cons, same, unequal]
      · rw [if_neg same, List.lookup_cons, List.lookup_cons, inductionHypothesis]

/-- The names after a member is put: as before, and its own. -/
theorem mem_names_put (name : String) (value : α) (members : Members α) (other : String) :
    other ∈ (put name value members).names ↔ other = name ∨ other ∈ members.names := by
  induction members with
  | nil => simp [put, names]
  | cons head rest inductionHypothesis =>
      obtain ⟨first, old⟩ := head
      rw [put]
      by_cases same : first = name
      · simp [same, names]
      · simp only [names] at inductionHypothesis
        simp only [if_neg same, names, List.map_cons, List.mem_cons, inductionHypothesis]
        exact or_left_comm

/-- Putting a member keeps names from occurring twice. -/
theorem nodup_names_put (name : String) (value : α) {members : Members α}
    (distinct : members.names.Nodup) : (put name value members).names.Nodup := by
  induction members with
  | nil => simp [put, names]
  | cons head rest inductionHypothesis =>
      obtain ⟨first, old⟩ := head
      have parts := List.nodup_cons.1 distinct
      rw [put]
      by_cases same : first = name
      · subst same
        rw [if_pos rfl]
        exact distinct
      · rw [if_neg same]
        refine List.nodup_cons.2 ⟨?_, inductionHypothesis parts.2⟩
        intro member
        rcases (mem_names_put name value rest first).1 member with equal | earlier
        · exact same equal
        · exact parts.1 earlier

/-- An object described by a sequence of members names none of them twice. -/
theorem nodup_names_ofPairs (pairs : List (String × α)) : (ofPairs pairs).names.Nodup := by
  have step : ∀ (rest : List (String × α)) (members : Members α), members.names.Nodup →
      (rest.foldl (fun members pair => put pair.1 pair.2 members) members).names.Nodup := by
    intro rest
    induction rest with
    | nil => exact fun _ distinct => distinct
    | cons pair rest inductionHypothesis =>
        exact fun members distinct =>
          inductionHypothesis _ (nodup_names_put pair.1 pair.2 distinct)
  exact step pairs [] List.nodup_nil

end Members

end ContainerBuild
