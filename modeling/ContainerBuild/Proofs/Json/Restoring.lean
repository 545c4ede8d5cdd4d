import ContainerBuild.Proofs.Json.Places

namespace ContainerBuild
namespace Json

/-!
# Nulls put back

Putting a null back changes one place and only if the place is vacant: an object is around it
and the name is free (`nodeAt?_restoreNull`).  A null that is put back is never an object, so it
makes no other place vacant, and the order in which nulls are put back does not matter
(`nodeAt?_restoreNulls`).
-/

/-- Nothing is at a place, and an object is around it. -/
def Vacant (value : Json) (path : List String) : Prop :=
  value.nodeAt? path.dropLast = some .object ∧ value.nodeAt? path = none

instance (value : Json) (path : List String) : Decidable (value.Vacant path) := by
  unfold Vacant; infer_instance

theorem not_vacant_nil (value : Json) : ¬ value.Vacant [] := by
  intro vacant
  cases vacant.2

theorem vacant_single_iff {value : Json} {name : String} :
    value.Vacant [name] ↔ ∃ members, value = .object members ∧ members.lookup name = none := by
  constructor
  · intro vacant
    rcases eq_object_of_node (Option.some.inj vacant.1) with ⟨members, rfl⟩
    refine ⟨members, rfl, ?_⟩
    have free := vacant.2
    rw [nodeAt?_cons, child?] at free
    cases found : members.lookup name with
    | none => rfl
    | some value =>
        rw [found] at free
        cases free
  · rintro ⟨members, rfl, free⟩
    refine ⟨rfl, ?_⟩
    rw [nodeAt?_cons, child?, free]
    rfl

theorem vacant_cons_iff {value : Json} {token next : String} {rest : List String} :
    value.Vacant (token :: next :: rest) ↔
      ∃ child, value.child? token = some child ∧ child.Vacant (next :: rest) := by
  rw [Vacant, List.dropLast_cons_cons, nodeAt?_cons, nodeAt?_cons]
  cases value.child? token with
  | none => simp
  | some child => simp [Vacant]

/-! ## One null -/

theorem lookup_modifyMember (name : String) (change : Json → Json)
    (members : List (String × Json)) (other : String) :
    (modifyMember name change members).lookup other =
      if other = name then (members.lookup name).map change else members.lookup other := by
  induction members with
  | nil => simp [modifyMember]
  | cons head rest inductionHypothesis =>
      rcases head with ⟨first, value⟩
      rw [modifyMember]
      by_cases same : first = name
      · rw [if_pos same, same, List.lookup_cons, List.lookup_cons_self]
        by_cases asked : other = name
        · rw [asked, beq_self_eq_true, if_pos rfl, Option.map_some]
        · rw [beq_false_of_ne asked, if_neg asked, List.lookup_cons, beq_false_of_ne asked]
      · rw [if_neg same, List.lookup_cons, inductionHypothesis]
        by_cases asked : other = name
        · rw [asked, beq_false_of_ne (Ne.symm same), if_pos rfl, if_pos rfl, List.lookup_cons,
            beq_false_of_ne (Ne.symm same)]
        · rw [if_neg asked, if_neg asked, List.lookup_cons]

theorem names_modifyMember (name : String) (change : Json → Json)
    (members : List (String × Json)) :
    (modifyMember name change members).map Prod.fst = members.map Prod.fst := by
  induction members with
  | nil => rfl
  | cons head rest inductionHypothesis =>
      rcases head with ⟨first, value⟩
      rw [modifyMember]
      split
      · rfl
      · rw [List.map_cons, List.map_cons, inductionHypothesis]

theorem node_restoreNull (path : List String) (value : Json) :
    (restoreNull path value).node = value.node := by
  fun_cases restoreNull path value with
  | case5 token next rest items index named =>
      rw [node, node, List.length_modify]
  | _ => rfl

/-- Below its first token a path changes the child that it leads to, and no other. -/
theorem child?_restoreNull (token next : String) (rest : List String) (value : Json)
    (other : String) :
    (restoreNull (token :: next :: rest) value).child? other =
      if other = token then (value.child? token).map (restoreNull (next :: rest))
      else value.child? other := by
  cases value with
  | object members => exact lookup_modifyMember token _ members other
  | array items =>
      rw [restoreNull]
      cases named : Pointer.index? token with
      | none =>
          by_cases same : other = token
          · rw [same, if_pos rfl, child?, named]
            rfl
          · rw [if_neg same]
      | some index =>
          by_cases same : other = token
          · rw [same, if_pos rfl]
            simp only [child?, named, Option.bind_some, List.getElem?_modify_eq]
            rfl
          · rw [if_neg same]
            simp only [child?]
            cases otherNamed : Pointer.index? other with
            | none => rfl
            | some otherIndex =>
                have apart : index ≠ otherIndex := by
                  intro equal
                  rw [Pointer.eq_toString_of_index? named,
                    Pointer.eq_toString_of_index? otherNamed, equal] at same
                  exact same rfl
                rw [Option.bind_some, Option.bind_some, List.getElem?_modify_ne _ _ apart]
  | _ =>
      by_cases same : other = token
      · rw [if_pos same]
        rfl
      · rw [if_neg same]
        rfl

theorem nodeAt?_putNew_null (name : String) (members : List (String × Json)) (path : List String) :
    (Json.object (Members.putNew name .null members)).nodeAt? path =
      if path = [name] ∧ (Json.object members).Vacant [name] then some .null
      else (Json.object members).nodeAt? path := by
  have vacant : (Json.object members).Vacant [name] ↔ members.lookup name = none := by
    rw [vacant_single_iff]
    exact ⟨fun ⟨_, same, free⟩ => Json.object.inj same ▸ free, fun free => ⟨_, rfl, free⟩⟩
  cases path with
  | nil => rw [nodeAt?_nil, if_neg (by simp), nodeAt?_nil, node, node]
  | cons asked rest =>
      rw [nodeAt?_cons, child?, Members.lookup_putNew, nodeAt?_cons, child?]
      cases found : members.lookup asked with
      | some value =>
          rw [Option.some_or, if_neg]
          rintro ⟨same, free⟩
          rw [(List.cons.inj same).1, vacant.1 free] at found
          cases found
      | none =>
          by_cases same : asked = name
          · subst same
            cases rest with
            | nil =>
                rw [if_pos rfl, if_pos ⟨rfl, vacant.2 found⟩]
                rfl
            | cons next rest =>
                rw [if_pos rfl, if_neg (by simp)]
                rfl
          · rw [if_neg same, if_neg fun both => same (List.cons.inj both.1).1]
            rfl

/-- Putting a null back changes the place it belongs to if that is vacant, and nothing else. -/
theorem nodeAt?_restoreNull (path : List String) (value : Json) (other : List String) :
    (restoreNull path value).nodeAt? other =
      if other = path ∧ value.Vacant path then some .null else value.nodeAt? other := by
  induction path generalizing value other with
  | nil =>
      rw [if_neg fun both => not_vacant_nil value both.2]
      rfl
  | cons token rest inductionHypothesis =>
      cases rest with
      | nil =>
          cases value with
          | object members => exact nodeAt?_putNew_null token members other
          | _ =>
              rw [if_neg]
              · rfl
              · rintro ⟨-, vacant⟩
                cases vacant.1
      | cons next rest =>
          cases other with
          | nil => rw [nodeAt?_nil, nodeAt?_nil, node_restoreNull, if_neg (by simp)]
          | cons asked others =>
              rw [nodeAt?_cons, child?_restoreNull, nodeAt?_cons]
              by_cases same : asked = token
              · subst same
                rw [if_pos rfl]
                simp only [vacant_cons_iff]
                cases value.child? asked with
                | none => simp
                | some child => simp [inductionHypothesis]
              · rw [if_neg same, if_neg fun both => same (List.cons.inj both.1).1]

theorem vacant_restoreNull_iff {path other : List String} {value : Json} :
    (restoreNull path value).Vacant other ↔ value.Vacant other ∧ other ≠ path := by
  rw [Vacant, nodeAt?_restoreNull, nodeAt?_restoreNull]
  constructor
  · intro ⟨around, free⟩
    split at around
    · cases around
    split at free
    · cases free
    next taken =>
    refine ⟨⟨around, free⟩, fun same => taken ⟨same, ?_⟩⟩
    rw [← same]
    exact ⟨around, free⟩
  · intro ⟨vacant, apart⟩
    have notAround : ¬ (other.dropLast = path ∧ value.Vacant path) := by
      rintro ⟨rfl, around⟩
      have object := vacant.1
      rw [around.2] at object
      cases object
    rw [if_neg notAround, if_neg fun both => apart both.1]
    exact vacant

/-! ## Several nulls -/

/-- Putting nulls back changes the vacant places that they belong to, and nothing else. -/
theorem nodeAt?_restoreNulls (pointers : List Pointer) (value : Json) (path : List String) :
    (restoreNulls pointers value).nodeAt? path =
      if ⟨path⟩ ∈ pointers ∧ value.Vacant path then some .null else value.nodeAt? path := by
  induction pointers generalizing value with
  | nil =>
      rw [if_neg fun both => List.not_mem_nil both.1]
      rfl
  | cons pointer rest inductionHypothesis =>
      have step := inductionHypothesis (restoreNull pointer.tokens value)
      simp only [vacant_restoreNull_iff, nodeAt?_restoreNull] at step
      refine step.trans ?_
      by_cases vacant : value.Vacant path
      · by_cases same : path = pointer.tokens
        · rw [if_neg fun both => both.2.2 same, if_pos ⟨same, same ▸ vacant⟩,
            if_pos ⟨List.mem_cons.2 (Or.inl (by rw [same])), vacant⟩]
        · have apart : (⟨path⟩ : Pointer) ≠ pointer := fun equal => same (by rw [← equal])
          by_cases later : ⟨path⟩ ∈ rest
          · rw [if_pos ⟨later, vacant, same⟩, if_pos ⟨List.mem_cons_of_mem _ later, vacant⟩]
          · rw [if_neg fun both => later both.1, if_neg fun both => same both.1,
              if_neg fun both => (List.mem_cons.1 both.1).elim apart later]
      · have elsewhere : ¬ (path = pointer.tokens ∧ value.Vacant pointer.tokens) := by
          rintro ⟨rfl, here⟩
          exact vacant here
        rw [if_neg fun both => vacant both.2.1, if_neg elsewhere, if_neg fun both => vacant both.2]

/-! ## Well-formedness -/

theorem mem_modifyMember {name : String} {change : Json → Json} {members : List (String × Json)}
    {member : String × Json} (here : member ∈ modifyMember name change members) :
    member ∈ members ∨ ∃ value, (name, value) ∈ members ∧ member = (name, change value) := by
  induction members with
  | nil => exact absurd here List.not_mem_nil
  | cons head rest inductionHypothesis =>
      rcases head with ⟨first, value⟩
      rw [modifyMember] at here
      split at here
      next same =>
        rcases List.mem_cons.1 here with equal | later
        · exact Or.inr ⟨value, by rw [← same]; exact List.mem_cons_self, by rw [equal, same]⟩
        · exact Or.inl (List.mem_cons_of_mem _ later)
      next =>
        rcases List.mem_cons.1 here with equal | later
        · exact Or.inl (List.mem_cons.2 (Or.inl equal))
        · rcases inductionHypothesis later with before | ⟨old, oldHere, equal⟩
          · exact Or.inl (List.mem_cons_of_mem _ before)
          · exact Or.inr ⟨old, List.mem_cons_of_mem _ oldHere, equal⟩

theorem mem_putNew {name : String} {value : Json} {members : Members Json}
    {member : String × Json} (here : member ∈ Members.putNew name value members) :
    member ∈ members ∨ member = (name, value) := by
  rw [Members.putNew] at here
  split at here
  · exact Or.inl here
  · exact (List.mem_append.1 here).imp_right List.mem_singleton.1

theorem wellFormed_restoreNull (path : List String) {value : Json}
    (wellFormed : value.WellFormed) : (restoreNull path value).WellFormed := by
  induction path generalizing value with
  | nil => exact wellFormed
  | cons token rest inductionHypothesis =>
      cases rest with
      | nil =>
          cases value with
          | object members =>
              refine ⟨Members.nodup_names_putNew token Json.null wellFormed.1,
                wellFormedMembers_iff.2 fun member here => ?_⟩
              rcases mem_putNew here with before | rfl
              · exact wellFormedMembers_iff.1 wellFormed.2 member before
              · trivial
          | _ => exact wellFormed
      | cons next rest =>
          cases value with
          | object members =>
              rw [restoreNull]
              refine ⟨by rw [names_modifyMember]; exact wellFormed.1,
                wellFormedMembers_iff.2 fun member here => ?_⟩
              rcases mem_modifyMember here with before | ⟨old, oldHere, rfl⟩
              · exact wellFormedMembers_iff.1 wellFormed.2 member before
              · exact inductionHypothesis (wellFormedMembers_iff.1 wellFormed.2 _ oldHere)
          | array items =>
              rw [restoreNull]
              split
              next index named =>
                refine wellFormedItems_iff.2 fun item here => ?_
                rcases List.mem_iff_getElem?.1 here with ⟨place, found⟩
                rw [List.getElem?_modify] at found
                rcases Option.map_eq_some_iff.1 found with ⟨old, oldFound, rfl⟩
                have oldWellFormed := wellFormedItems_iff.1 wellFormed old
                  (List.mem_of_getElem? oldFound)
                split
                · exact inductionHypothesis oldWellFormed
                · exact oldWellFormed
              next => exact wellFormed
          | _ => exact wellFormed

theorem wellFormed_restoreNulls (pointers : List Pointer) {value : Json}
    (wellFormed : value.WellFormed) : (restoreNulls pointers value).WellFormed := by
  induction pointers generalizing value with
  | nil => exact wellFormed
  | cons pointer rest inductionHypothesis =>
      exact inductionHypothesis (wellFormed_restoreNull pointer.tokens wellFormed)

end Json
end ContainerBuild
