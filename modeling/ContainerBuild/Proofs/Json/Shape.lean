import ContainerBuild.Proofs.Json.DroppedNulls

namespace ContainerBuild
namespace Json

/-!
# Shapes of typed forms

A shape says which parts of a value a typed form looks into, and in which fields it takes null
for absence.  `Keeps` relates a value to what a typed form of the shape keeps of it: the same,
in another order and without the nulls of lenient fields.  A null that is lost thus lies in a
lenient field (`slot_of_lost`), and a null put into one is not noticed (`keeps_restoreNull`).
-/

/-- How a typed form looks into a value. -/
inductive Shape where
  /-- The value is kept as it is. -/
  | any
  | list (item : Shape)
  /-- Fields by name.  A lenient field takes null for absence; unknown members are kept. -/
  | object (fields : List (String × Bool × Shape))

namespace Shape

/-- What is kept of a field, in terms of what is kept of its value. -/
def FieldKept (lenient : Bool) (kept : Json → Json → Prop) : Option Json → Option Json → Prop
  | none, none => True
  | some value, none => lenient = true ∧ value = .null
  | some value, some other => kept value other ∧ (lenient = true → value ≠ .null)
  | none, some _ => False

mutual

/-- A typed form of the shape keeps the second value of the first. -/
def Keeps : Shape → Json → Json → Prop
  | .any, value, kept => value = kept
  | .list item, .array items, .array kept => List.Forall₂ (Keeps item) items kept
  | .object fields, .object members, .object kept =>
      KeepsFields fields members kept ∧
        ∀ name ∉ fields.map Prod.fst, members.lookup name = kept.lookup name
  | _, _, _ => False

/-- `Keeps`, field by field. -/
def KeepsFields : List (String × Bool × Shape) → Members Json → Members Json → Prop
  | [], _, _ => True
  | (name, lenient, shape) :: rest, members, kept =>
      FieldKept lenient (Keeps shape) (members.lookup name) (kept.lookup name) ∧
        KeepsFields rest members kept

end

mutual

/-- No object of the shape has two fields of one name. -/
def Distinct : Shape → Prop
  | .any => True
  | .list item => Distinct item
  | .object fields => (fields.map Prod.fst).Nodup ∧ DistinctFields fields

/-- The shape of every field is distinct. -/
def DistinctFields : List (String × Bool × Shape) → Prop
  | [] => True
  | (_, _, shape) :: rest => Distinct shape ∧ DistinctFields rest

end

/-- A path leads to a lenient field. -/
def Slot : List String → Shape → Prop
  | [name], .object fields => ∃ shape, (name, true, shape) ∈ fields
  | name :: next :: rest, .object fields =>
      ∃ lenient shape, (name, lenient, shape) ∈ fields ∧ Slot (next :: rest) shape
  | _ :: next :: rest, .list item => Slot (next :: rest) item
  | _, _ => False

/-- A shape looks into values of its own form only, and what it keeps of one has that form. -/
theorem keeps_inversion {shape : Shape} {value kept : Json} (keeps : shape.Keeps value kept) :
    (shape = .any ∧ value = kept) ∨
      (∃ item items keptItems, shape = .list item ∧ value = .array items ∧
        kept = .array keptItems ∧ List.Forall₂ item.Keeps items keptItems) ∨
      ∃ fields members keptMembers, shape = .object fields ∧ value = .object members ∧
        kept = .object keptMembers ∧ KeepsFields fields members keptMembers ∧
        ∀ name ∉ fields.map Prod.fst, members.lookup name = keptMembers.lookup name := by
  cases shape with
  | any =>
      rw [Keeps] at keeps
      exact Or.inl ⟨rfl, keeps⟩
  | list item =>
      cases value with
      | array items =>
          cases kept with
          | array keptItems =>
              rw [Keeps] at keeps
              exact Or.inr (Or.inl ⟨item, items, keptItems, rfl, rfl, rfl, keeps⟩)
          | _ => exact keeps.elim
      | _ => exact keeps.elim
  | object fields =>
      cases value with
      | object members =>
          cases kept with
          | object keptMembers =>
              rw [Keeps] at keeps
              exact Or.inr (Or.inr ⟨fields, members, keptMembers, rfl, rfl, rfl, keeps⟩)
          | _ => exact keeps.elim
      | _ => exact keeps.elim

theorem distinct_any : Distinct .any := by
  rw [Distinct]
  trivial

theorem keepsFields_iff {fields : List (String × Bool × Shape)} {members kept : Members Json} :
    KeepsFields fields members kept ↔ ∀ field ∈ fields,
      FieldKept field.2.1 (Keeps field.2.2) (members.lookup field.1) (kept.lookup field.1) := by
  induction fields with
  | nil => simp [KeepsFields]
  | cons field rest inductionHypothesis =>
      rw [KeepsFields, inductionHypothesis, List.forall_mem_cons]

theorem distinctFields_iff {fields : List (String × Bool × Shape)} :
    DistinctFields fields ↔ ∀ field ∈ fields, Distinct field.2.2 := by
  induction fields with
  | nil => simp [DistinctFields]
  | cons field rest inductionHypothesis =>
      rw [DistinctFields, inductionHypothesis, List.forall_mem_cons]

/-! ## Kept values are pruned values -/

theorem prunes_self (value : Json) : Prunes value value := by
  constructor
  · exact fun found => found
  · intro path node free found
    rw [free] at found
    cases found

theorem nodeAt?_null_cons (token : String) (path : List String) :
    Json.null.nodeAt? (token :: path) = none := rfl

/-- A value is pruned if its parts are, and those that are not kept leave a vacant place. -/
theorem prunes_of_children {value kept : Json} (root : value.node = kept.node)
    (each : ∀ token, ∃ lenient, FieldKept lenient Prunes (value.child? token) (kept.child? token))
    (vacant : ∀ token child, value.child? token = some child → kept.child? token = none →
      kept.Vacant [token]) : Prunes value kept := by
  constructor
  · intro path node found
    cases path with
    | nil =>
        rw [nodeAt?_nil, root]
        exact found
    | cons token rest =>
        rw [nodeAt?_cons] at found ⊢
        rcases Option.bind_eq_some_iff.1 found with ⟨other, keptFound, below⟩
        rcases each token with ⟨lenient, field⟩
        rw [keptFound] at field
        cases valueFound : value.child? token with
        | none =>
            rw [valueFound] at field
            exact field.elim
        | some child =>
            rw [valueFound] at field
            exact field.1.keeps below
  · intro path node free found
    cases path with
    | nil => cases free
    | cons token rest =>
        rw [nodeAt?_cons] at free found
        rcases Option.bind_eq_some_iff.1 found with ⟨child, valueFound, below⟩
        rcases each token with ⟨lenient, field⟩
        rw [valueFound] at field
        cases keptFound : kept.child? token with
        | none =>
            rw [keptFound] at field
            rw [field.2] at below
            cases rest with
            | nil => exact ⟨(Option.some.inj below).symm, vacant token child valueFound keptFound⟩
            | cons next rest =>
                rw [nodeAt?_null_cons] at below
                cases below
        | some other =>
            rw [keptFound] at field free
            rcases field.1.loses free below with ⟨null, vacantBelow⟩
            refine ⟨null, ?_⟩
            cases rest with
            | nil => cases free
            | cons next rest => exact vacant_cons_iff.2 ⟨other, keptFound, vacantBelow⟩

/-- Objects are pruned member by member. -/
theorem prunes_object {members kept : Members Json}
    (each : ∀ name, ∃ lenient, FieldKept lenient Prunes (members.lookup name) (kept.lookup name)) :
    Prunes (.object members) (.object kept) := by
  apply prunes_of_children
  · rfl
  · exact each
  · intro name _ _ free
    exact vacant_single_iff.2 ⟨kept, rfl, free⟩

/-- Arrays are pruned item by item. -/
theorem prunes_array {items kept : List Json} (each : List.Forall₂ Prunes items kept) :
    Prunes (.array items) (.array kept) := by
  have sameLength := each.length_eq
  apply prunes_of_children
  · rw [node, node, sameLength]
  · intro token
    refine ⟨false, ?_⟩
    rw [child?, child?]
    cases Pointer.index? token with
    | none => trivial
    | some index =>
        rw [Option.bind_some, Option.bind_some]
        by_cases inside : index < items.length
        · have keptInside : index < kept.length := sameLength ▸ inside
          rw [List.getElem?_eq_getElem inside, List.getElem?_eq_getElem keptInside]
          exact ⟨each.get inside keptInside, fun lenient => (by cases lenient)⟩
        · have outside := Nat.le_of_not_lt inside
          rw [List.getElem?_eq_none outside, List.getElem?_eq_none (sameLength ▸ outside)]
          trivial
  · intro token item found free
    rw [child?] at found free
    rcases Option.bind_eq_some_iff.1 found with ⟨index, named, here⟩
    rcases List.getElem?_eq_some_iff.1 here with ⟨inside, -⟩
    rw [named, Option.bind_some, List.getElem?_eq_none_iff] at free
    omega

theorem FieldKept.imp {lenient : Bool} {kept other : Json → Json → Prop}
    {value? kept? : Option Json} (field : FieldKept lenient kept value? kept?)
    (imp : ∀ value keptValue, kept value keptValue → other value keptValue) :
    FieldKept lenient other value? kept? := by
  cases value? with
  | none => cases kept? <;> exact field
  | some value =>
      cases kept? with
      | none => exact field
      | some keptValue => exact ⟨imp value keptValue field.1, field.2⟩

theorem fieldKept_self {kept : Json → Json → Prop} {value? : Option Json}
    (self : ∀ value ∈ value?, kept value value) : FieldKept false kept value? value? := by
  cases value? with
  | none => trivial
  | some value => exact ⟨self value rfl, fun lenient => by cases lenient⟩

mutual

/-- What a typed form keeps is the value without some of its null members. -/
theorem prunes_of_keeps : ∀ {shape : Shape} {value kept : Json}, shape.Keeps value kept →
    Prunes value kept
  | .any, value, kept, keeps => by
      rw [Keeps] at keeps
      rw [keeps]
      exact prunes_self kept
  | .list item, .array items, .array kept, keeps => by
      rw [Keeps] at keeps
      exact prunes_array (keeps.imp fun _ _ itemKeeps => prunes_of_keeps itemKeeps)
  | .object fields, .object members, .object kept, keeps => by
      rw [Keeps] at keeps
      refine prunes_object fun name => ?_
      by_cases known : name ∈ fields.map Prod.fst
      · exact prunes_of_keepsFields keeps.1 name known
      · refine ⟨false, ?_⟩
        rw [keeps.2 name known]
        exact fieldKept_self fun value _ => prunes_self value

theorem prunes_of_keepsFields : ∀ {fields : List (String × Bool × Shape)}
    {members kept : Members Json}, KeepsFields fields members kept →
    ∀ name ∈ fields.map Prod.fst,
      ∃ lenient, FieldKept lenient Prunes (members.lookup name) (kept.lookup name)
  | [], _, _, _, _, known => absurd known List.not_mem_nil
  | (first, lenient, shape) :: rest, members, kept, keeps, name, known => by
      rcases List.mem_cons.1 known with rfl | later
      · exact ⟨lenient, keeps.1.imp fun _ _ fieldKeeps => prunes_of_keeps fieldKeeps⟩
      · exact prunes_of_keepsFields keeps.2 name later

end

/-! ## Where nulls are lost -/

/-- A null that is lost lies in a lenient field. -/
theorem slot_of_lost {path : List String} {shape : Shape} {value kept : Json}
    (keeps : shape.Keeps value kept) (lost : Lost value kept path) : Slot path shape := by
  induction path generalizing shape value kept with
  | nil => exact absurd lost (not_lost_nil value kept)
  | cons token rest inductionHypothesis =>
      rcases lost with ⟨null, free⟩
      rw [nodeAt?_cons] at null free
      rcases Option.bind_eq_some_iff.1 null with ⟨child, childFound, childNull⟩
      rcases keeps_inversion keeps with ⟨rfl, rfl⟩ |
        ⟨item, items, keptItems, rfl, rfl, rfl, each⟩ |
        ⟨fields, members, keptMembers, rfl, rfl, rfl, known, unknown⟩
      · rw [childFound, Option.bind_some, childNull] at free
        cases free
      · rcases Option.bind_eq_some_iff.1 childFound with ⟨index, named, here⟩
        rcases List.getElem?_eq_some_iff.1 here with ⟨inside, itemAt⟩
        have keptHere := List.getElem?_eq_getElem (l := keptItems) (each.length_eq ▸ inside)
        have itemKeeps := each.get inside (each.length_eq ▸ inside)
        rw [List.get_eq_getElem, List.get_eq_getElem, itemAt] at itemKeeps
        rw [child?, named, Option.bind_some, keptHere, Option.bind_some] at free
        cases rest with
        | nil => cases free
        | cons next rest => exact inductionHypothesis itemKeeps ⟨childNull, free⟩
      · rw [child?] at childFound free
        by_cases isField : token ∈ fields.map Prod.fst
        · rcases List.mem_map.1 isField with ⟨⟨name, lenient, fieldShape⟩, here, same⟩
          have sameName : token = name := same.symm
          subst sameName
          have field := keepsFields_iff.1 known _ here
          dsimp only at field
          rw [childFound] at field
          cases keptFound : keptMembers.lookup token with
          | none =>
              rw [keptFound] at field
              rw [field.2] at childNull
              cases rest with
              | nil => exact ⟨fieldShape, field.1 ▸ here⟩
              | cons next rest =>
                  rw [nodeAt?_null_cons] at childNull
                  cases childNull
          | some keptChild =>
              rw [keptFound] at field free
              cases rest with
              | nil => cases free
              | cons next rest =>
                  exact ⟨lenient, fieldShape, here,
                    inductionHypothesis field.1 ⟨childNull, free⟩⟩
        · rw [← unknown token isField, childFound, Option.bind_some, childNull] at free
          cases free

/-! ## Nulls in lenient fields -/

theorem fieldKept_null {kept : Json → Json → Prop} {value? kept? : Option Json}
    (field : FieldKept true kept value? kept?) :
    FieldKept true kept (value?.or (some .null)) kept? := by
  cases value? with
  | some value => exact field
  | none =>
      cases kept? with
      | none => exact ⟨rfl, rfl⟩
      | some other => exact field.elim

/-- A change of the value that the field keeps and that makes and unmakes no null is not
noticed. -/
theorem fieldKept_map {lenient : Bool} {kept : Json → Json → Prop} {change : Json → Json}
    {value? kept? : Option Json} (field : FieldKept lenient kept value? kept?)
    (sameNode : ∀ value, (change value).node = value.node)
    (keeps : ∀ value other, kept value other → kept (change value) other) :
    FieldKept lenient kept (value?.map change) kept? := by
  cases value? with
  | none => exact field
  | some value =>
      cases kept? with
      | none =>
          refine ⟨field.1, eq_null_of_node ?_⟩
          rw [sameNode, field.2, node]
      | some other =>
          refine ⟨keeps value other field.1, fun strict null => field.2 strict ?_⟩
          refine eq_null_of_node ?_
          rw [← sameNode, null, node]

/-- An object in which one member changes is kept if that member is. -/
theorem keeps_object_of_lookup {fields : List (String × Bool × Shape)}
    {members kept changed keptChanged : Members Json} {token : String}
    (keeps : Keeps (.object fields) (.object members) (.object kept))
    (same : ∀ other, other ≠ token → changed.lookup other = members.lookup other)
    (keptSame : ∀ other, other ≠ token → keptChanged.lookup other = kept.lookup other)
    (field : ∀ lenient shape, (token, lenient, shape) ∈ fields →
      FieldKept lenient (Keeps shape) (changed.lookup token) (keptChanged.lookup token))
    (unknown : token ∉ fields.map Prod.fst → changed.lookup token = keptChanged.lookup token) :
    Keeps (.object fields) (.object changed) (.object keptChanged) := by
  rw [Keeps] at keeps ⊢
  refine ⟨keepsFields_iff.2 fun entry here => ?_, fun other outside => ?_⟩
  · rcases entry with ⟨other, lenient, shape⟩
    by_cases isToken : other = token
    · subst isToken
      exact field lenient shape here
    · rw [same other isToken, keptSame other isToken]
      exact keepsFields_iff.1 keeps.1 _ here
  · by_cases isToken : other = token
    · subst isToken
      exact unknown outside
    · rw [same other isToken, keptSame other isToken]
      exact keeps.2 other outside

/-- An object in which the value of one field changes is kept if that value is. -/
theorem keeps_object_change {fields : List (String × Bool × Shape)}
    {members kept changed keptChanged : Members Json} {token : String} {lenient : Bool}
    {shape : Shape} (distinct : (fields.map Prod.fst).Nodup)
    (here : (token, lenient, shape) ∈ fields)
    (keeps : Keeps (.object fields) (.object members) (.object kept))
    (same : ∀ other, other ≠ token → changed.lookup other = members.lookup other)
    (keptSame : ∀ other, other ≠ token → keptChanged.lookup other = kept.lookup other)
    (field : FieldKept lenient shape.Keeps (changed.lookup token) (keptChanged.lookup token)) :
    Keeps (.object fields) (.object changed) (.object keptChanged) := by
  refine keeps_object_of_lookup keeps same keptSame (fun otherLenient otherShape there => ?_)
    fun unknown => absurd (List.mem_map.2 ⟨_, here, rfl⟩) unknown
  have only := Prod.mk.inj (List.inj_on_of_nodup_map distinct there here rfl)
  cases only.2
  exact field

/-- An array is kept as before when one item changes, to one that is kept as before. -/
theorem forall₂_modify {kept : Json → Json → Prop} {change : Json → Json} {index : Nat}
    {items keptItems : List Json} (each : List.Forall₂ kept items keptItems)
    (keeps : ∀ value other, kept value other → kept (change value) other) :
    List.Forall₂ kept (items.modify index change) keptItems := by
  refine List.forall₂_iff_get.2 ⟨?_, fun place inside keptInside => ?_⟩
  · rw [List.length_modify, each.length_eq]
  · rw [List.length_modify] at inside
    have itemKept := each.get inside keptInside
    rw [List.get_eq_getElem, List.get_eq_getElem] at itemKept ⊢
    rw [List.getElem_modify]
    split
    · exact keeps _ _ itemKept
    · exact itemKept

/-- A null put into a lenient field is not noticed. -/
theorem keeps_restoreNull {path : List String} {shape : Shape} {value kept : Json}
    (distinct : shape.Distinct) (slot : Slot path shape) (keeps : shape.Keeps value kept) :
    shape.Keeps (restoreNull path value) kept := by
  induction path generalizing shape value kept with
  | nil => cases shape <;> exact slot.elim
  | cons token rest inductionHypothesis =>
      rcases keeps_inversion keeps with ⟨rfl, -⟩ |
        ⟨item, items, keptItems, rfl, rfl, rfl, each⟩ |
        ⟨fields, members, keptMembers, rfl, rfl, rfl, known, -⟩
      · cases rest <;> exact slot.elim
      · cases rest with
        | nil => exact slot.elim
        | cons next rest =>
            rw [Distinct] at distinct
            rw [restoreNull]
            split
            next index named =>
              rw [Keeps]
              exact forall₂_modify each fun _ _ => inductionHypothesis distinct slot
            next => exact keeps
      · rw [Distinct] at distinct
        cases rest with
        | nil =>
            rcases slot with ⟨fieldShape, here⟩
            rw [restoreNull]
            refine keeps_object_change distinct.1 here keeps ?_ (fun _ _ => rfl) ?_
            · intro name apart
              rw [Members.lookup_putNew, if_neg apart, Option.or_none]
            · rw [Members.lookup_putNew, if_pos rfl]
              exact fieldKept_null (keepsFields_iff.1 known _ here)
        | cons next rest =>
            rcases slot with ⟨lenient, fieldShape, here, below⟩
            have fieldDistinct := distinctFields_iff.1 distinct.2 _ here
            rw [restoreNull]
            refine keeps_object_change distinct.1 here keeps ?_ (fun _ _ => rfl) ?_
            · intro name apart
              rw [lookup_modifyMember, if_neg apart]
            · rw [lookup_modifyMember, if_pos rfl]
              exact fieldKept_map (keepsFields_iff.1 known _ here)
                (node_restoreNull (next :: rest))
                fun _ _ => inductionHypothesis fieldDistinct below

theorem keeps_restoreNulls {pointers : List Pointer} {shape : Shape} {value kept : Json}
    (distinct : shape.Distinct) (slots : ∀ pointer ∈ pointers, Slot pointer.tokens shape)
    (keeps : shape.Keeps value kept) : shape.Keeps (restoreNulls pointers value) kept := by
  induction pointers generalizing value with
  | nil => exact keeps
  | cons pointer rest inductionHypothesis =>
      have parts := List.forall_mem_cons.1 slots
      exact inductionHypothesis parts.2 (keeps_restoreNull distinct parts.1 keeps)

end Shape
end Json
end ContainerBuild
