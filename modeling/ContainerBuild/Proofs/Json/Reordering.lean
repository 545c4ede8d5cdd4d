import ContainerBuild.Json.Value
import ContainerBuild.Proofs.Json.Members

namespace ContainerBuild
namespace Json

/-!
# Values up to the order of members

`Reorders` relates two values that are identical except that objects, at any depth, may list
their members in another order.  Nothing else is forgiven: a zero differs from a negative zero,
and a null from an absent member.

Sorting members is a normal form for this relation (`reorders_iff_sortMembers_eq`), and what is
related means the same to `sameValue` (`sameValue_of_reorders`).
-/

mutual

/-- The second value is the first with members of objects, at any depth, in another order. -/
inductive Reorders : Json → Json → Prop
  | same (value : Json) : Reorders value value
  | array {items others : List Json} (each : ReordersItems items others) :
      Reorders (.array items) (.array others)
  | object {members shuffled others : List (String × Json)}
      (each : ReordersMembers members shuffled) (shuffle : shuffled.Perm others) :
      Reorders (.object members) (.object others)

/-- `Reorders`, item by item. -/
inductive ReordersItems : List Json → List Json → Prop
  | nil : ReordersItems [] []
  | cons {item other : Json} {items others : List Json} (head : Reorders item other)
      (tail : ReordersItems items others) : ReordersItems (item :: items) (other :: others)

/-- `Reorders`, member by member. -/
inductive ReordersMembers : List (String × Json) → List (String × Json) → Prop
  | nil : ReordersMembers [] []
  | cons (name : String) {value other : Json} {members others : List (String × Json)}
      (head : Reorders value other) (tail : ReordersMembers members others) :
      ReordersMembers ((name, value) :: members) ((name, other) :: others)

end

/-! ## Well-formedness, item by item and member by member -/

theorem wellFormedItems_iff {items : List Json} :
    WellFormedItems items ↔ ∀ item ∈ items, item.WellFormed := by
  induction items with
  | nil => simp [WellFormedItems]
  | cons item rest inductionHypothesis =>
      rw [WellFormedItems, inductionHypothesis, List.forall_mem_cons]

theorem wellFormedMembers_iff {members : List (String × Json)} :
    WellFormedMembers members ↔ ∀ member ∈ members, member.2.WellFormed := by
  induction members with
  | nil => simp [WellFormedMembers]
  | cons member rest inductionHypothesis =>
      rw [WellFormedMembers, inductionHypothesis, List.forall_mem_cons]

theorem depthOfMembers_perm {members others : List (String × Json)}
    (shuffle : members.Perm others) : depthOfMembers members = depthOfMembers others := by
  induction shuffle with
  | nil => rfl
  | cons member _ inductionHypothesis =>
      rw [depthOfMembers, depthOfMembers, inductionHypothesis]
  | swap first second rest =>
      simp only [depthOfMembers]
      omega
  | trans _ _ firstHypothesis secondHypothesis => rw [firstHypothesis, secondHypothesis]

theorem ReordersMembers.names {members others : List (String × Json)}
    (each : ReordersMembers members others) : others.map Prod.fst = members.map Prod.fst := by
  induction members generalizing others with
  | nil =>
      cases each
      rfl
  | cons member rest inductionHypothesis =>
      cases each with
      | cons name _ tail => rw [List.map_cons, List.map_cons, inductionHypothesis tail]

mutual

theorem wellFormed_of_reorders : ∀ {value other : Json}, Reorders value other →
    value.WellFormed → other.WellFormed
  | _, _, .same _, wellFormed => wellFormed
  | _, _, .array each, wellFormed => wellFormedItems_of_reorders each wellFormed
  | _, _, .object each shuffle, wellFormed => by
      refine ⟨(shuffle.map Prod.fst).nodup_iff.1 ?_, wellFormedMembers_iff.2 ?_⟩
      · rw [each.names]
        exact wellFormed.1
      · intro member here
        exact wellFormedMembers_iff.1 (wellFormedMembers_of_reorders each wellFormed.2) member
          (shuffle.mem_iff.2 here)

theorem wellFormedItems_of_reorders : ∀ {items others : List Json}, ReordersItems items others →
    WellFormedItems items → WellFormedItems others
  | _, _, .nil, _ => trivial
  | _, _, .cons head tail, wellFormed =>
      ⟨wellFormed_of_reorders head wellFormed.1, wellFormedItems_of_reorders tail wellFormed.2⟩

theorem wellFormedMembers_of_reorders : ∀ {members others : List (String × Json)},
    ReordersMembers members others → WellFormedMembers members → WellFormedMembers others
  | _, _, .nil, _ => trivial
  | _, _, .cons _ head tail, wellFormed =>
      ⟨wellFormed_of_reorders head wellFormed.1, wellFormedMembers_of_reorders tail wellFormed.2⟩

end

mutual

theorem depth_of_reorders : ∀ {value other : Json}, Reorders value other →
    other.depth = value.depth
  | _, _, .same _ => rfl
  | _, _, .array each => by rw [depth, depth, depthOfItems_of_reorders each]
  | _, _, .object each shuffle => by
      rw [depth, depth, ← depthOfMembers_perm shuffle, depthOfMembers_of_reorders each]

theorem depthOfItems_of_reorders : ∀ {items others : List Json}, ReordersItems items others →
    depthOfItems others = depthOfItems items
  | _, _, .nil => rfl
  | _, _, .cons head tail => by
      rw [depthOfItems, depthOfItems, depth_of_reorders head, depthOfItems_of_reorders tail]

theorem depthOfMembers_of_reorders : ∀ {members others : List (String × Json)},
    ReordersMembers members others → depthOfMembers others = depthOfMembers members
  | _, _, .nil => rfl
  | _, _, .cons _ head tail => by
      rw [depthOfMembers, depthOfMembers, depth_of_reorders head, depthOfMembers_of_reorders tail]

end

/-! ## Sorting members -/

mutual

/-- The names of every object, at any depth, ascend. -/
def Sorted : Json → Prop
  | .array items => SortedItems items
  | .object members => (members.map Prod.fst).Pairwise (· < ·) ∧ SortedMembers members
  | _ => True

/-- Every item is sorted. -/
def SortedItems : List Json → Prop
  | [] => True
  | item :: rest => item.Sorted ∧ SortedItems rest

/-- The value of every member is sorted. -/
def SortedMembers : List (String × Json) → Prop
  | [] => True
  | (_, value) :: rest => value.Sorted ∧ SortedMembers rest

end

theorem sortedMembers_iff {members : List (String × Json)} :
    SortedMembers members ↔ ∀ member ∈ members, member.2.Sorted := by
  induction members with
  | nil => simp [SortedMembers]
  | cons member rest inductionHypothesis =>
      rw [SortedMembers, inductionHypothesis, List.forall_mem_cons]

/-- A member with its value sorted. -/
def sortWithin (member : String × Json) : String × Json := (member.1, member.2.sortMembers)

theorem placeMember_perm (member : String × Json) (members : List (String × Json)) :
    (placeMember member members).Perm (member :: members) := by
  induction members with
  | nil => exact List.Perm.refl _
  | cons other rest inductionHypothesis =>
      rw [placeMember]
      split
      · exact (inductionHypothesis.cons other).trans (List.Perm.swap member other rest)
      · exact List.Perm.refl _

theorem sortedMembers_perm (members : List (String × Json)) :
    (sortedMembers members).Perm (members.map sortWithin) := by
  induction members with
  | nil => exact List.Perm.refl _
  | cons member rest inductionHypothesis =>
      exact (placeMember_perm _ _).trans (inductionHypothesis.cons _)

theorem names_sortWithin (members : List (String × Json)) :
    (members.map sortWithin).map Prod.fst = members.map Prod.fst := by
  rw [List.map_map]
  rfl

theorem placeMember_ascending {member : String × Json} {members : List (String × Json)}
    (ascending : members.Pairwise fun earlier later => earlier.1 < later.1)
    (fresh : ∀ other ∈ members, other.1 ≠ member.1) :
    (placeMember member members).Pairwise fun earlier later => earlier.1 < later.1 := by
  induction members with
  | nil => exact List.pairwise_singleton _ _
  | cons other rest inductionHypothesis =>
      have tail := List.pairwise_cons.1 ascending
      rw [placeMember]
      by_cases before : other.1 < member.1
      · rw [if_pos before]
        refine List.pairwise_cons.2 ⟨?_, inductionHypothesis tail.2
          fun later here => fresh later (List.mem_cons_of_mem other here)⟩
        intro later here
        rcases List.mem_cons.1 ((placeMember_perm member rest).mem_iff.1 here) with rfl | behind
        · exact before
        · exact tail.1 later behind
      · rw [if_neg before]
        have after : member.1 < other.1 :=
          Std.lt_of_le_of_ne (Std.not_lt.1 before) (fresh other List.mem_cons_self).symm
        refine List.pairwise_cons.2 ⟨?_, ascending⟩
        intro later here
        rcases List.mem_cons.1 here with rfl | behind
        · exact after
        · exact Std.lt_trans after (tail.1 later behind)

theorem sortedMembers_ascending {members : List (String × Json)}
    (distinct : (members.map Prod.fst).Nodup) :
    (sortedMembers members).Pairwise fun earlier later => earlier.1 < later.1 := by
  induction members with
  | nil => exact List.Pairwise.nil
  | cons member rest inductionHypothesis =>
      have parts := List.nodup_cons.1 distinct
      refine placeMember_ascending (inductionHypothesis parts.2) fun other here same => parts.1 ?_
      rw [← names_sortWithin rest]
      rw [(sortedMembers_perm rest).mem_iff] at here
      exact List.mem_map.2 ⟨other, here, same⟩

/-- Members of ascending names are determined by which members they are. -/
theorem eq_of_perm_of_ascending {α : Type} {members others : List (String × α)}
    (ascending : members.Pairwise fun earlier later => earlier.1 < later.1)
    (othersAscending : others.Pairwise fun earlier later => earlier.1 < later.1)
    (shuffle : members.Perm others) : members = others :=
  List.Perm.eq_of_pairwise
    (fun _ _ _ _ before after => absurd (Std.lt_trans before after) Std.lt_irrefl)
    ascending othersAscending shuffle

mutual

/-- Sorting a well-formed value sorts every object. -/
theorem sorted_sortMembers : ∀ {value : Json}, value.WellFormed → value.sortMembers.Sorted
  | .null, _ => trivial
  | .bool _, _ => trivial
  | .number _, _ => trivial
  | .string _, _ => trivial
  | .array _, wellFormed => sortedItems_sortItems wellFormed
  | .object members, wellFormed => by
      refine ⟨List.pairwise_map.2 (sortedMembers_ascending wellFormed.1), ?_⟩
      rw [sortedMembers_iff]
      intro member here
      rw [(sortedMembers_perm members).mem_iff] at here
      rcases List.mem_map.1 here with ⟨source, sourceHere, rfl⟩
      exact sorted_valuesOfMembers wellFormed.2 source sourceHere

theorem sortedItems_sortItems : ∀ {items : List Json}, WellFormedItems items →
    SortedItems (sortItems items)
  | [], _ => trivial
  | _ :: _, wellFormed =>
      ⟨sorted_sortMembers wellFormed.1, sortedItems_sortItems wellFormed.2⟩

theorem sorted_valuesOfMembers : ∀ {members : List (String × Json)}, WellFormedMembers members →
    ∀ member ∈ members, member.2.sortMembers.Sorted
  | [], _, _, here => absurd here List.not_mem_nil
  | (_, value) :: _, wellFormed, member, here => by
      rcases List.mem_cons.1 here with rfl | later
      · exact sorted_sortMembers wellFormed.1
      · exact sorted_valuesOfMembers wellFormed.2 member later

end

mutual

/-- A sorted value stays as it is. -/
theorem sortMembers_of_sorted : ∀ {value : Json}, value.Sorted → value.sortMembers = value
  | .null, _ => rfl
  | .bool _, _ => rfl
  | .number _, _ => rfl
  | .string _, _ => rfl
  | .array _, sorted => by rw [sortMembers, sortItems_of_sorted sorted]
  | .object _, sorted => by
      rw [sortMembers, sortedMembers_of_sorted (List.pairwise_map.1 sorted.1) sorted.2]

theorem sortItems_of_sorted : ∀ {items : List Json}, SortedItems items → sortItems items = items
  | [], _ => rfl
  | _ :: _, sorted => by
      rw [sortItems, sortMembers_of_sorted sorted.1, sortItems_of_sorted sorted.2]

theorem sortedMembers_of_sorted : ∀ {members : List (String × Json)},
    members.Pairwise (fun earlier later => earlier.1 < later.1) → SortedMembers members →
    sortedMembers members = members
  | [], _, _ => rfl
  | (name, value) :: rest, ascending, sorted => by
      have tail := List.pairwise_cons.1 ascending
      rw [sortedMembers, sortMembers_of_sorted sorted.1, sortedMembers_of_sorted tail.2 sorted.2]
      cases rest with
      | nil => rfl
      | cons next rest =>
          rw [placeMember, if_neg]
          exact Std.not_lt.2 (Std.le_of_lt (tail.1 next List.mem_cons_self))

end

/-! ## Sorting is a normal form -/

mutual

theorem sortMembers_eq_of_reorders : ∀ {value other : Json}, Reorders value other →
    value.WellFormed → value.sortMembers = other.sortMembers
  | _, _, .same _, _ => rfl
  | _, _, .array each, wellFormed => by
      rw [sortMembers, sortMembers, sortItems_eq_of_reorders each wellFormed]
  | .object members, .object others, .object each shuffle, wellFormed => by
      have reordered := wellFormed_of_reorders (.object each shuffle) wellFormed
      rw [sortMembers, sortMembers]
      refine congrArg Json.object (eq_of_perm_of_ascending
        (sortedMembers_ascending wellFormed.1) (sortedMembers_ascending reordered.1) ?_)
      refine (sortedMembers_perm members).trans ?_
      refine List.Perm.trans ?_ (sortedMembers_perm others).symm
      rw [sortWithin_eq_of_reorders each wellFormed.2]
      exact shuffle.map sortWithin

theorem sortItems_eq_of_reorders : ∀ {items others : List Json}, ReordersItems items others →
    WellFormedItems items → sortItems items = sortItems others
  | _, _, .nil, _ => rfl
  | _, _, .cons head tail, wellFormed => by
      rw [sortItems, sortItems, sortMembers_eq_of_reorders head wellFormed.1,
        sortItems_eq_of_reorders tail wellFormed.2]

theorem sortWithin_eq_of_reorders : ∀ {members others : List (String × Json)},
    ReordersMembers members others → WellFormedMembers members →
    members.map sortWithin = others.map sortWithin
  | _, _, .nil, _ => rfl
  | _, _, .cons name head tail, wellFormed => by
      rw [List.map_cons, List.map_cons, sortWithin, sortWithin,
        sortMembers_eq_of_reorders head wellFormed.1, sortWithin_eq_of_reorders tail wellFormed.2]

end

mutual

theorem reorders_of_sortMembers_eq : ∀ {value other : Json},
    value.sortMembers = other.sortMembers → Reorders value other
  | .array items, other, same => by
      cases other <;> simp only [sortMembers, Json.array.injEq, reduceCtorEq] at same
      exact .array (reordersItems_of_sortItems_eq same)
  | .object members, other, same => by
      cases other with
      | object others =>
          simp only [sortMembers, Json.object.injEq] at same
          have shuffle : (members.map sortWithin).Perm (others.map sortWithin) := by
            refine (sortedMembers_perm members).symm.trans ?_
            rw [same]
            exact sortedMembers_perm others
          rcases reordersMembers_of_perm shuffle with ⟨shuffled, each, shuffle⟩
          exact .object each shuffle
      | _ => simp only [sortMembers, reduceCtorEq] at same
  | .null, other, same => by
      cases other <;> simp only [sortMembers, reduceCtorEq] at same
      exact .same .null
  | .bool value, other, same => by
      cases other <;> simp only [sortMembers, Json.bool.injEq, reduceCtorEq] at same
      rw [same]
      exact .same _
  | .number value, other, same => by
      cases other <;> simp only [sortMembers, Json.number.injEq, reduceCtorEq] at same
      rw [same]
      exact .same _
  | .string value, other, same => by
      cases other <;> simp only [sortMembers, Json.string.injEq, reduceCtorEq] at same
      rw [same]
      exact .same _

theorem reordersItems_of_sortItems_eq : ∀ {items others : List Json},
    sortItems items = sortItems others → ReordersItems items others
  | [], others, same => by
      cases others with
      | nil => exact .nil
      | cons => simp [sortItems] at same
  | item :: items, others, same => by
      cases others with
      | nil => simp [sortItems] at same
      | cons other others =>
          simp only [sortItems, List.cons.injEq] at same
          exact .cons (reorders_of_sortMembers_eq same.1) (reordersItems_of_sortItems_eq same.2)

/-- Every member finds its partner among the others, which leaves the rest to the rest. -/
theorem reordersMembers_of_perm : ∀ {members others : List (String × Json)},
    (members.map sortWithin).Perm (others.map sortWithin) →
    ∃ shuffled, ReordersMembers members shuffled ∧ shuffled.Perm others
  | [], others, shuffle => by
      have none : others = [] := List.map_eq_nil_iff.1 (List.nil_perm.1 shuffle)
      exact ⟨[], .nil, by rw [none]⟩
  | (name, value) :: rest, others, shuffle => by
      rcases List.mem_map.1 (shuffle.mem_iff.1 List.mem_cons_self) with
        ⟨⟨otherName, other⟩, here, same⟩
      simp only [sortWithin, Prod.mk.injEq] at same
      rcases List.append_of_mem here with ⟨before, after, rfl⟩
      have apart : (rest.map sortWithin).Perm ((before ++ after).map sortWithin) := by
        have front := shuffle.trans (List.perm_middle.map sortWithin)
        simp only [List.map_cons, sortWithin, same.1, same.2] at front
        exact front.cons_inv
      rcases reordersMembers_of_perm apart with ⟨shuffled, each, rearranged⟩
      refine ⟨(name, other) :: shuffled,
        .cons name (reorders_of_sortMembers_eq same.2.symm) each, ?_⟩
      rw [same.1]
      exact (rearranged.cons _).trans List.perm_middle.symm

end

/-- Two values are the same up to the order of members just when sorting makes them one. -/
theorem reorders_iff_sortMembers_eq {value other : Json} (wellFormed : value.WellFormed) :
    Reorders value other ↔ value.sortMembers = other.sortMembers :=
  ⟨fun reorders => sortMembers_eq_of_reorders reorders wellFormed, reorders_of_sortMembers_eq⟩

/-- Sorting changes nothing but the order of members. -/
theorem reorders_sortMembers {value : Json} (wellFormed : value.WellFormed) :
    Reorders value value.sortMembers :=
  reorders_of_sortMembers_eq (sortMembers_of_sorted (sorted_sortMembers wellFormed)).symm

/-! ## Equality of meaning -/

mutual

theorem sameValue_self : ∀ {value : Json}, value.WellFormed → value.sameValue value = true
  | .null, _ => rfl
  | .bool value, _ => beq_self_eq_true value
  | .number (.integer value), _ => beq_self_eq_true value
  | .number (.float value), _ => by
      rw [sameValue, Number.sameValue, Binary64.sameValue, beq_self_eq_true, Bool.true_or]
  | .string value, _ => beq_self_eq_true value
  | .array _, wellFormed => sameItems_self wellFormed
  | .object members, wellFormed => by
      rw [sameValue, beq_self_eq_true, Bool.true_and]
      exact sameMembers_of_subset wellFormed.2 wellFormed.1 (List.Subset.refl members)

theorem sameItems_self : ∀ {items : List Json}, WellFormedItems items →
    sameItems items items = true
  | [], _ => rfl
  | _ :: _, wellFormed => by
      rw [sameItems, sameValue_self wellFormed.1, sameItems_self wellFormed.2, Bool.and_self]

theorem sameMembers_of_subset : ∀ {members others : List (String × Json)},
    WellFormedMembers members → (Members.names others).Nodup → members ⊆ others →
    sameMembers members others = true
  | [], _, _, _, _ => rfl
  | (name, value) :: rest, others, wellFormed, distinct, subset => by
      have parts := List.cons_subset.1 subset
      rw [sameMembers, (Members.lookup_eq_some_iff_mem distinct).2 parts.1,
        sameMembers_of_subset wellFormed.2 distinct parts.2, Bool.and_true]
      exact sameValue_self wellFormed.1

end

mutual

/-- Values that are the same up to the order of members mean the same. -/
theorem sameValue_of_reorders : ∀ {value other : Json}, Reorders value other →
    value.WellFormed → value.sameValue other = true
  | _, _, .same _, wellFormed => sameValue_self wellFormed
  | _, _, .array each, wellFormed => sameItems_of_reorders each wellFormed
  | .object members, .object others, .object each shuffle, wellFormed => by
      have reordered := wellFormed_of_reorders (.object each shuffle) wellFormed
      have sameLength : members.length = others.length := by
        rw [← shuffle.length_eq, ← List.length_map Prod.fst, ← each.names, List.length_map]
      rw [sameValue, sameLength, beq_self_eq_true, Bool.true_and]
      exact sameMembers_of_reorders each wellFormed.2 reordered.1 shuffle.subset

theorem sameItems_of_reorders : ∀ {items others : List Json}, ReordersItems items others →
    WellFormedItems items → sameItems items others = true
  | _, _, .nil, _ => rfl
  | _, _, .cons head tail, wellFormed => by
      rw [sameItems, sameValue_of_reorders head wellFormed.1,
        sameItems_of_reorders tail wellFormed.2, Bool.and_self]

theorem sameMembers_of_reorders : ∀ {members shuffled others : List (String × Json)},
    ReordersMembers members shuffled → WellFormedMembers members →
    (Members.names others).Nodup → shuffled ⊆ others → sameMembers members others = true
  | _, _, _, .nil, _, _, _ => rfl
  | _, _, others, .cons name head tail, wellFormed, distinct, subset => by
      have parts := List.cons_subset.1 subset
      rw [sameMembers, (Members.lookup_eq_some_iff_mem distinct).2 parts.1,
        sameMembers_of_reorders tail wellFormed.2 distinct parts.2, Bool.and_true]
      exact sameValue_of_reorders head wellFormed.1

end

end Json
end ContainerBuild
