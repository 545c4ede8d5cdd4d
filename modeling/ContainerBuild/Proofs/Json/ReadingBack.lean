import ContainerBuild.Proofs.Json.Reading
import ContainerBuild.Proofs.Json.Spelling

namespace ContainerBuild
namespace Json

/-!
# Reading back what was written

The text of a value is taken apart into the tree of the value (`toTree`), in which no name is
repeated if the value is well formed.  A reader of the tree then finds what a reader of the value
would: each field under its name, and the members of unknown names in order.
-/

theorem treesOfItems_eq (items : List Json) : treesOfItems items = items.map toTree := by
  induction items with
  | nil => rfl
  | cons item rest inductionHypothesis =>
      exact congrArg (item.toTree :: ·) inductionHypothesis

theorem treesOfMembers_eq (members : Members Json) : treesOfMembers members =
    Tree.underNames (members.map fun member => (member.1, member.2.toTree)) := by
  induction members with
  | nil => rfl
  | cons member rest inductionHypothesis =>
      exact congrArg ((some member.1, member.2.toTree) :: ·) inductionHypothesis

namespace Tree

section

variable {α : Type} {read : Tree → Except Fault α}

/-- If what is written of each item is read as the item, then an array of them is read. -/
theorem list_toTree (write : α → Json) {xs : List α}
    (each : ∀ x ∈ xs, read (write x).toTree = .ok x) :
    (Json.array (xs.map write)).toTree.list read = .ok xs := by
  rw [toTree, treesOfItems_eq, List.map_map]
  exact list_ok_iff.2 ⟨_, rfl, List.forall₂_map_left_iff.2 (List.forall₂_same.2 each)⟩

/-- If what is written of each member is read as the member, then an object of them is read. -/
theorem pairs_toTree (write : α → Json) {members : Members α}
    (each : ∀ member ∈ members, read (write member.2).toTree = .ok member.2) :
    (Json.object (members.map fun member => (member.1, write member.2))).toTree.pairs read =
      .ok members := by
  rw [toTree, treesOfMembers_eq, List.map_map]
  refine pairs_ok_iff.2 ⟨_, rfl, List.forall₂_map_left_iff.2 (List.forall₂_same.2 ?_)⟩
  exact fun member here => ⟨rfl, each member here⟩

theorem generic_toTree {levels : Nat} {value : Json} (within : value.Within levels) :
    value.toTree.generic levels = .ok value :=
  generic_ok_iff.2 (value?_toTree within.1 within.2)

end

theorem fits_of_fitsMembers {named : Members Tree} (fits : FitsMembers (underNames named)) :
    ∀ member ∈ named, member.2.Fits := by
  induction named with
  | nil => exact fun member here => absurd here List.not_mem_nil
  | cons first rest inductionHypothesis =>
      exact List.forall_mem_cons.2 ⟨fits.1, inductionHypothesis fits.2⟩

/-! ## Fields of an object -/

/-- The members of a name, which is not repeated, are what is found under it. -/
theorem filter_name {members : Members Json} (distinct : members.names.Nodup) (name : String) :
    members.filter (·.1 == name) = Members.optional name (members.lookup name) := by
  induction members with
  | nil => rfl
  | cons member rest inductionHypothesis =>
      rcases member with ⟨other, value⟩
      have parts := List.nodup_cons.1 distinct
      have later := inductionHypothesis parts.2
      rw [List.filter_cons, List.lookup_cons]
      by_cases same : other = name
      · have fresh : rest.lookup name = none :=
          Members.lookup_eq_none_iff_notMem.2 (same ▸ parts.1)
        rw [later, fresh, same, beq_self_eq_true, if_pos rfl]
        rfl
      · rw [later, beq_false_of_ne same, beq_false_of_ne (Ne.symm same),
          if_neg Bool.false_ne_true]

/-- The members of a structure that no field is named after are its rest. -/
theorem unknown_writeFields {σ : Type} {fields : List (Field σ)} {rest : σ → Dict String Json}
    {x : σ} (isRest : IsRest (fields.map Field.name) (rest x)) :
    Members.unknown (writeFields fields rest x) (fields.map Field.name) = (rest x).entries := by
  rw [Members.unknown, writeFields, List.filter_append]
  have known : ((fields.flatMap fun field => Members.optional field.name
      (field.written x)).filter fun member => !(fields.map Field.name).contains member.1) = [] := by
    refine List.filter_eq_nil_iff.2 fun member here => ?_
    rcases mem_flatMap_optional here with ⟨field, fieldHere, named, -⟩
    have isField : member.1 ∈ fields.map Field.name :=
      List.mem_map.2 ⟨field, fieldHere, named.symm⟩
    simpa using isField
  have others : ((rest x).entries.filter fun member =>
      !(fields.map Field.name).contains member.1) = (rest x).entries := by
    refine List.filter_eq_self.2 fun member here => ?_
    have apart := (isRest member here).1
    simpa using apart
  rw [known, others, List.nil_append]

namespace Fields

/-- The fields of an object as its text has them. -/
def ofMembers (members : Members Json) : Fields := ⟨treesOfMembers members, true⟩

variable {α : Type} {members : Members Json}

/-- A field is found if its name stands nowhere or its value can be read. -/
theorem once_ofMembers_iff (distinct : members.names.Nodup) {name : String}
    {read : Tree → Except Fault α} {missing : Answer α} {x : α} :
    (ofMembers members).once name read missing = .found x ↔
      (members.lookup name = none ∧ missing = .found x) ∨
        ∃ value, members.lookup name = some value ∧ read value.toTree = .ok x := by
  have chosen : (members.map fun member => (member.1, member.2.toTree)).filter (·.1 == name) =
      (Members.optional name (members.lookup name)).map fun member =>
        (member.1, member.2.toTree) := by
    rw [← filter_name distinct name]
    exact List.filter_map
  rw [ofMembers, treesOfMembers_eq, once_found_iff, chosen]
  cases members.lookup name with
  | none => simp [Members.optional]
  | some value => simp [Members.optional]

/-- The members of unknown names are found in order. -/
theorem others_ofMembers {known : List String} {levels : Nat}
    (within : ∀ member ∈ members.unknown known, member.2.Within levels) :
    (ofMembers members).others known (Tree.generic levels) = .found (members.unknown known) := by
  refine others_found_iff.2 ⟨rfl, _, treesOfMembers_eq members, ?_⟩
  rw [List.filter_map]
  exact List.forall₂_map_left_iff.2 (List.forall₂_same.2 fun member here =>
    ⟨rfl, generic_toTree (within member here)⟩)

end Fields
end Tree
end Json
end ContainerBuild
