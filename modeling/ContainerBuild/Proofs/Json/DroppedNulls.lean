import ContainerBuild.Proofs.Json.PointerOrder
import ContainerBuild.Proofs.Json.Restoring

namespace ContainerBuild
namespace Json

/-!
# Nulls dropped and put back

A typed form prunes a value if it keeps everything but some null members (`Prunes`).  The
dropped nulls are then exactly the places where the value has a null and the typed form has
nothing, and putting them back makes up for the pruning (`reorders_restoreNulls`).  The other
way round, nulls put back are found again wherever their place was vacant
(`droppedNulls_restoreNulls`).
-/

/-- The second value is the first without some of its null members. -/
structure Prunes (value kept : Json) : Prop where
  keeps : ∀ {path : List String} {node : Node}, kept.nodeAt? path = some node →
    value.nodeAt? path = some node
  loses : ∀ {path : List String} {node : Node}, kept.nodeAt? path = none →
    value.nodeAt? path = some node → node = .null ∧ kept.Vacant path

/-- A value has a null where its typed form has nothing. -/
def Lost (value kept : Json) (path : List String) : Prop :=
  value.nodeAt? path = some .null ∧ kept.nodeAt? path = none

theorem Prunes.vacant_of_lost {value kept : Json} (prunes : Prunes value kept)
    {path : List String} (lost : Lost value kept path) : kept.Vacant path :=
  (prunes.loses lost.2 lost.1).2

theorem not_lost_nil (value kept : Json) : ¬ Lost value kept [] := by
  intro lost
  cases lost.2

/-- Nothing is lost from a value without parts. -/
theorem not_lost_of_scalar {value kept : Json} (scalar : ∀ token, value.child? token = none)
    (path : List String) : ¬ Lost value kept path := by
  intro lost
  cases path with
  | nil => exact not_lost_nil value kept lost
  | cons token rest =>
      have null := lost.1
      rw [nodeAt?_cons, scalar] at null
      cases null

theorem Prunes.child {value kept valueChild keptChild : Json} (prunes : Prunes value kept)
    {token : String} (valueFound : value.child? token = some valueChild)
    (keptFound : kept.child? token = some keptChild) : Prunes valueChild keptChild := by
  have valueBelow (path : List String) :
      value.nodeAt? (token :: path) = valueChild.nodeAt? path := by
    rw [nodeAt?_cons, valueFound, Option.bind_some]
  have keptBelow (path : List String) : kept.nodeAt? (token :: path) = keptChild.nodeAt? path := by
    rw [nodeAt?_cons, keptFound, Option.bind_some]
  constructor
  · intro path node found
    rw [← keptBelow] at found
    rw [← valueBelow]
    exact prunes.keeps found
  · intro path node free found
    rw [← keptBelow] at free
    rw [← valueBelow] at found
    rcases prunes.loses free found with ⟨null, vacant⟩
    refine ⟨null, ?_⟩
    cases path with
    | nil =>
        rw [keptBelow] at free
        cases free
    | cons next rest =>
        rcases vacant_cons_iff.1 vacant with ⟨child, childFound, childVacant⟩
        rw [keptFound, Option.some.injEq] at childFound
        rwa [childFound]

/-! ## Which nulls are lost -/

/-- A null is lost from an object where one is lost from a member, or is the member. -/
theorem lost_object_iff {members keptMembers : List (String × Json)}
    (distinct : (Members.names members).Nodup) {path : List String} :
    Lost (.object members) (.object keptMembers) path ↔
      ∃ name value below, (name, value) ∈ members ∧ path = name :: below ∧
        value.nodeAt? below = some .null ∧
        (keptMembers.lookup name).bind (nodeAt? below) = none := by
  constructor
  · intro lost
    cases path with
    | nil => exact absurd lost (not_lost_nil _ _)
    | cons name below =>
        rcases lost with ⟨null, free⟩
        rw [nodeAt?_cons] at null free
        rcases Option.bind_eq_some_iff.1 null with ⟨value, found, valueNull⟩
        exact ⟨name, value, below, Members.mem_of_lookup_eq_some found, rfl, valueNull, free⟩
  · rintro ⟨name, value, below, here, rfl, null, free⟩
    constructor
    · rw [nodeAt?_cons, child?, (Members.lookup_eq_some_iff_mem distinct).2 here]
      exact null
    · rw [nodeAt?_cons]
      exact free

/-- A null is lost from an array where one is lost from an item. -/
theorem lost_array_iff {items keptItems : List Json} {path : List String} :
    Lost (.array items) (.array keptItems) path ↔
      ∃ (index : Nat) (item : Json) (below : List String), items[index]? = some item ∧
        path = toString index :: below ∧ item.nodeAt? below = some .null ∧
        keptItems[index]?.bind (nodeAt? below) = none := by
  constructor
  · intro lost
    cases path with
    | nil => exact absurd lost (not_lost_nil _ _)
    | cons token below =>
        rcases lost with ⟨null, free⟩
        rw [nodeAt?_cons, child?] at null free
        rcases Option.bind_eq_some_iff.1 null with ⟨item, found, itemNull⟩
        rcases Option.bind_eq_some_iff.1 found with ⟨index, named, here⟩
        rw [named] at free
        rw [Pointer.eq_toString_of_index? named]
        exact ⟨index, item, below, here, rfl, itemNull, free⟩
  · rintro ⟨index, item, below, here, rfl, null, free⟩
    constructor
    · rw [nodeAt?_item, here]
      exact null
    · rw [nodeAt?_item]
      exact free

/-- A member is null and not kept, or kept and pruned. -/
def MemberPruned (kept : Option Json) (value : Json) : Prop :=
  match kept with
  | none => value = .null
  | some kept => Prunes value kept

theorem Prunes.memberPruned {members keptMembers : List (String × Json)}
    (prunes : Prunes (.object members) (.object keptMembers))
    (distinct : (Members.names members).Nodup) {name : String} {value : Json}
    (here : (name, value) ∈ members) : MemberPruned (keptMembers.lookup name) value := by
  have found : (Json.object members).child? name = some value :=
    (Members.lookup_eq_some_iff_mem distinct).2 here
  cases keptFound : keptMembers.lookup name with
  | none =>
      have free : (Json.object keptMembers).nodeAt? [name] = none := by
        rw [nodeAt?_cons, child?, keptFound]
        rfl
      have there : (Json.object members).nodeAt? [name] = some value.node := by
        rw [nodeAt?_cons, found]
        rfl
      exact eq_null_of_node (prunes.loses free there).1
  | some kept => exact prunes.child found keptFound

theorem Prunes.items {items keptItems : List Json}
    (prunes : Prunes (.array items) (.array keptItems)) :
    items.length = keptItems.length ∧ ∀ (index : Nat) (item kept : Json),
      items[index]? = some item → keptItems[index]? = some kept → Prunes item kept := by
  have root := prunes.keeps (nodeAt?_nil (.array keptItems))
  refine ⟨by simpa [nodeAt?_nil, node] using root, fun index item kept found keptFound => ?_⟩
  exact prunes.child ((child?_item items index).trans found)
    ((child?_item keptItems index).trans keptFound)

theorem mem_lostNulls_scalar {value kept : Json} {path : List String} {pointer : Pointer}
    (scalar : ∀ token, value.child? token = none)
    (nothing : lostNulls path (some kept) value = []) :
    pointer ∈ lostNulls path (some kept) value ↔
      ∃ below, pointer.tokens = path ++ below ∧ Lost value kept below := by
  rw [nothing]
  constructor
  · exact fun here => absurd here List.not_mem_nil
  · rintro ⟨below, -, lost⟩
    exact absurd lost (not_lost_of_scalar scalar below)

mutual

/-- The lost nulls are the places below where a null is lost. -/
theorem mem_lostNulls : ∀ {value kept : Json} {path : List String} {pointer : Pointer},
    value.WellFormed → Prunes value kept →
    (pointer ∈ lostNulls path (some kept) value ↔
      ∃ below, pointer.tokens = path ++ below ∧ Lost value kept below)
  | .object members, kept, path, pointer, wellFormed, prunes => by
      have root := prunes.keeps (nodeAt?_nil kept)
      rcases eq_object_of_node (Option.some.inj root).symm with ⟨keptMembers, rfl⟩
      rw [lostNulls, mem_lostInMembers wellFormed.2 fun name value here =>
        prunes.memberPruned wellFormed.1 here]
      simp only [lost_object_iff wellFormed.1]
      constructor
      · rintro ⟨name, value, below, here, tokens, lost⟩
        exact ⟨name :: below, tokens, name, value, below, here, rfl, lost⟩
      · rintro ⟨_, tokens, name, value, below, here, rfl, lost⟩
        exact ⟨name, value, below, here, tokens, lost⟩
  | .array items, kept, path, pointer, wellFormed, prunes => by
      have root := prunes.keeps (nodeAt?_nil kept)
      rcases eq_array_of_node (Option.some.inj root).symm with ⟨keptItems, rfl, -⟩
      rcases prunes.items with ⟨sameLength, each⟩
      rw [lostNulls, mem_lostInItems wellFormed (by simpa using sameLength) fun index item kept =>
        by rw [Nat.zero_add]; exact each index item kept]
      simp only [lost_array_iff, Nat.zero_add]
      constructor
      · rintro ⟨index, item, below, here, tokens, lost⟩
        exact ⟨toString index :: below, tokens, index, item, below, here, rfl, lost⟩
      · rintro ⟨_, tokens, index, item, below, here, rfl, lost⟩
        exact ⟨index, item, below, here, tokens, lost⟩
  | .null, _, _, _, _, _ => mem_lostNulls_scalar (fun _ => rfl) rfl
  | .bool _, _, _, _, _, _ => mem_lostNulls_scalar (fun _ => rfl) rfl
  | .number _, _, _, _, _, _ => mem_lostNulls_scalar (fun _ => rfl) rfl
  | .string _, _, _, _, _, _ => mem_lostNulls_scalar (fun _ => rfl) rfl

theorem mem_lostInMembers : ∀ {part keptMembers : List (String × Json)} {path : List String}
    {pointer : Pointer}, WellFormedMembers part →
    (∀ name value, (name, value) ∈ part → MemberPruned (keptMembers.lookup name) value) →
    (pointer ∈ lostInMembers path (some (.object keptMembers)) part ↔
      ∃ name value below, (name, value) ∈ part ∧ pointer.tokens = path ++ name :: below ∧
        value.nodeAt? below = some .null ∧
        (keptMembers.lookup name).bind (nodeAt? below) = none)
  | [], _, _, _, _, _ => by
      rw [lostInMembers]
      exact ⟨fun here => absurd here List.not_mem_nil,
        fun ⟨_, _, _, here, _⟩ => absurd here List.not_mem_nil⟩
  | (name, value) :: rest, keptMembers, path, pointer, wellFormed, pruned => by
      have head := pruned name value List.mem_cons_self
      have first : pointer ∈ (if value.isNull && (keptMembers.lookup name).isNone
            then [⟨path ++ [name]⟩]
            else lostNulls (path ++ [name]) (keptMembers.lookup name) value) ↔
          ∃ below, pointer.tokens = path ++ name :: below ∧ value.nodeAt? below = some .null ∧
            (keptMembers.lookup name).bind (nodeAt? below) = none := by
        cases found : keptMembers.lookup name with
        | none =>
            rw [found] at head
            change value = .null at head
            subst head
            change pointer ∈ [(⟨path ++ [name]⟩ : Pointer)] ↔ _
            rw [List.mem_singleton]
            constructor
            · rintro rfl
              exact ⟨[], rfl, rfl, rfl⟩
            · rintro ⟨below, tokens, null, -⟩
              cases below with
              | nil => rw [← tokens]
              | cons => exact absurd null (by simp [nodeAt?_cons, child?])
        | some kept =>
            rw [found] at head
            rw [if_neg (by simp), mem_lostNulls wellFormed.1 head]
            simp only [List.append_assoc, List.singleton_append, Option.bind_some, Lost]
      have others : pointer ∈ lostInMembers path (some (.object keptMembers)) rest ↔ _ :=
        mem_lostInMembers wellFormed.2
        fun name value here => pruned name value (List.mem_cons_of_mem _ here)
      rw [lostInMembers, List.mem_append, others]
      refine (or_congr_left first).trans ?_
      constructor
      · rintro (⟨below, tokens, null, free⟩ | ⟨other, otherValue, below, here, lost⟩)
        · exact ⟨name, value, below, List.mem_cons_self, tokens, null, free⟩
        · exact ⟨other, otherValue, below, List.mem_cons_of_mem _ here, lost⟩
      · rintro ⟨other, otherValue, below, here, lost⟩
        rcases List.mem_cons.1 here with same | later
        · rw [(Prod.mk.inj same).1, (Prod.mk.inj same).2] at lost
          exact Or.inl ⟨below, lost⟩
        · exact Or.inr ⟨other, otherValue, below, later, lost⟩

theorem mem_lostInItems : ∀ {part keptItems : List Json} {path : List String} {index : Nat}
    {pointer : Pointer}, WellFormedItems part → index + part.length = keptItems.length →
    (∀ (offset : Nat) item kept, part[offset]? = some item →
      keptItems[index + offset]? = some kept → Prunes item kept) →
    (pointer ∈ lostInItems path (some (.array keptItems)) index part ↔
      ∃ (offset : Nat) (item : Json) (below : List String), part[offset]? = some item ∧
        pointer.tokens = path ++ toString (index + offset) :: below ∧
        item.nodeAt? below = some .null ∧
        keptItems[index + offset]?.bind (nodeAt? below) = none)
  | [], _, _, _, _, _, _, _ => by
      rw [lostInItems]
      exact ⟨fun here => absurd here List.not_mem_nil, fun ⟨_, _, _, here, _⟩ => by cases here⟩
  | item :: rest, keptItems, path, index, pointer, wellFormed, sameLength, pruned => by
      have inside : index < keptItems.length := by
        rw [List.length_cons] at sameLength
        omega
      have keptFound : keptItems[index]? = some keptItems[index] := List.getElem?_eq_getElem inside
      have head := pruned 0 item keptItems[index] rfl (by rw [Nat.add_zero]; exact keptFound)
      have others : pointer ∈ lostInItems path (some (.array keptItems)) (index + 1) rest ↔ _ :=
        mem_lostInItems wellFormed.2 (by rw [← sameLength, List.length_cons]; omega)
        fun offset item kept here keptHere => pruned (offset + 1) item kept here (by
          rwa [Nat.add_assoc, Nat.add_comm 1] at keptHere)
      rw [lostInItems, List.mem_append, others]
      have first : pointer ∈ lostNulls (path ++ [toString index])
            ((some (Json.array keptItems)).bind (·.item? index)) item ↔
          ∃ below, pointer.tokens = path ++ toString index :: below ∧
            item.nodeAt? below = some .null ∧
            keptItems[index]?.bind (nodeAt? below) = none := by
        rw [Option.bind_some, item?, keptFound, mem_lostNulls wellFormed.1 head]
        simp only [List.append_assoc, List.singleton_append, Option.bind_some, Lost]
      refine (or_congr_left first).trans ?_
      constructor
      · rintro (⟨below, lost⟩ | ⟨offset, other, below, here, lost⟩)
        · exact ⟨0, item, below, rfl, lost⟩
        · refine ⟨offset + 1, other, below, here, ?_⟩
          rwa [Nat.add_assoc, Nat.add_comm 1] at lost
      · rintro ⟨offset, other, below, here, lost⟩
        cases offset with
        | zero =>
            rw [← Option.some.inj here] at lost
            exact Or.inl ⟨below, lost⟩
        | succ offset =>
            refine Or.inr ⟨offset, other, below, here, ?_⟩
            rwa [Nat.add_assoc, Nat.add_comm 1]

end

/-! ## Each lost null once -/

mutual

theorem tokens_of_mem_lostNulls : ∀ {value : Json} {path : List String} {kept : Option Json}
    {pointer : Pointer}, pointer ∈ lostNulls path kept value →
    ∃ below, pointer.tokens = path ++ below
  | .object members, _, _, _, here => by
      rw [lostNulls] at here
      rcases tokens_of_mem_lostInMembers here with ⟨name, -, below, tokens⟩
      exact ⟨name :: below, tokens⟩
  | .array items, _, _, _, here => by
      rw [lostNulls] at here
      rcases tokens_of_mem_lostInItems here with ⟨offset, below, tokens⟩
      exact ⟨_, tokens⟩
  | .null, _, _, _, here => by simp [lostNulls] at here
  | .bool _, _, _, _, here => by simp [lostNulls] at here
  | .number _, _, _, _, here => by simp [lostNulls] at here
  | .string _, _, _, _, here => by simp [lostNulls] at here

theorem tokens_of_mem_lostInMembers : ∀ {part : List (String × Json)} {path : List String}
    {kept : Option Json} {pointer : Pointer}, pointer ∈ lostInMembers path kept part →
    ∃ name ∈ Members.names part, ∃ below, pointer.tokens = path ++ name :: below
  | [], _, _, _, here => by simp [lostInMembers] at here
  | (name, value) :: rest, path, kept, pointer, here => by
      rw [lostInMembers, List.mem_append] at here
      rcases here with first | later
      · refine ⟨name, List.mem_cons_self, ?_⟩
        split at first
        · rw [List.mem_singleton.1 first]
          exact ⟨[], rfl⟩
        · rcases tokens_of_mem_lostNulls first with ⟨below, tokens⟩
          exact ⟨below, by rw [tokens, List.append_assoc]; rfl⟩
      · rcases tokens_of_mem_lostInMembers later with ⟨other, named, below, tokens⟩
        exact ⟨other, List.mem_cons_of_mem name named, below, tokens⟩

theorem tokens_of_mem_lostInItems : ∀ {part : List Json} {path : List String}
    {kept : Option Json} {index : Nat} {pointer : Pointer},
    pointer ∈ lostInItems path kept index part →
    ∃ offset below, pointer.tokens = path ++ toString (index + offset) :: below
  | [], _, _, _, _, here => by simp [lostInItems] at here
  | item :: rest, path, kept, index, pointer, here => by
      rw [lostInItems, List.mem_append] at here
      rcases here with first | later
      · rcases tokens_of_mem_lostNulls first with ⟨below, tokens⟩
        exact ⟨0, below, by rw [tokens, List.append_assoc]; rfl⟩
      · rcases tokens_of_mem_lostInItems later with ⟨offset, below, tokens⟩
        exact ⟨offset + 1, below, by rw [tokens, Nat.add_assoc, Nat.add_comm 1]⟩

end

/-- Pointers whose next tokens differ differ. -/
theorem token_eq_of_append {path below otherBelow : List String} {token other : String}
    (same : path ++ token :: below = path ++ other :: otherBelow) : token = other :=
  (List.cons.inj (List.append_cancel_left same)).1

mutual

theorem nodup_lostNulls : ∀ {value : Json} (path : List String) (kept : Option Json),
    value.WellFormed → (lostNulls path kept value).Nodup
  | .object members, path, kept, wellFormed => by
      rw [lostNulls]
      exact nodup_lostInMembers path kept wellFormed.1 wellFormed.2
  | .array items, path, kept, wellFormed => by
      rw [lostNulls]
      exact nodup_lostInItems path kept 0 wellFormed
  | .null, _, _, _ => by simp [lostNulls]
  | .bool _, _, _, _ => by simp [lostNulls]
  | .number _, _, _, _ => by simp [lostNulls]
  | .string _, _, _, _ => by simp [lostNulls]

theorem nodup_lostInMembers : ∀ {part : List (String × Json)} (path : List String)
    (kept : Option Json), (Members.names part).Nodup → WellFormedMembers part →
    (lostInMembers path kept part).Nodup
  | [], _, _, _, _ => by simp [lostInMembers]
  | (name, value) :: rest, path, kept, distinct, wellFormed => by
      have parts := List.nodup_cons.1 distinct
      rw [lostInMembers]
      refine List.nodup_append.2 ⟨?_, nodup_lostInMembers path kept parts.2 wellFormed.2, ?_⟩
      · split
        · exact List.nodup_singleton _
        · exact nodup_lostNulls _ _ wellFormed.1
      · intro pointer here other later same
        have below : ∃ below, pointer.tokens = path ++ name :: below := by
          split at here
          · rw [List.mem_singleton.1 here]
            exact ⟨[], rfl⟩
          · rcases tokens_of_mem_lostNulls here with ⟨below, tokens⟩
            exact ⟨below, by rw [tokens, List.append_assoc]; rfl⟩
        rcases below with ⟨below, tokens⟩
        rcases tokens_of_mem_lostInMembers later with ⟨otherName, named, otherBelow, otherTokens⟩
        rw [same, otherTokens] at tokens
        rw [token_eq_of_append tokens] at named
        exact parts.1 named

theorem nodup_lostInItems : ∀ {part : List Json} (path : List String) (kept : Option Json)
    (index : Nat), WellFormedItems part → (lostInItems path kept index part).Nodup
  | [], _, _, _, _ => by simp [lostInItems]
  | item :: rest, path, kept, index, wellFormed => by
      rw [lostInItems]
      refine List.nodup_append.2 ⟨nodup_lostNulls _ _ wellFormed.1,
        nodup_lostInItems path kept (index + 1) wellFormed.2, ?_⟩
      intro pointer here other later same
      rcases tokens_of_mem_lostNulls here with ⟨below, tokens⟩
      rcases tokens_of_mem_lostInItems later with ⟨offset, otherBelow, otherTokens⟩
      rw [List.append_assoc, List.singleton_append] at tokens
      rw [same, otherTokens] at tokens
      have named := congrArg Pointer.index? (token_eq_of_append tokens)
      rw [Pointer.index?_toString, Pointer.index?_toString, Option.some.injEq] at named
      omega

end

/-! ## Dropping and putting back -/

variable {value kept : Json}

/-- The dropped nulls are the places where a null is lost. -/
theorem mem_droppedNulls (wellFormed : value.WellFormed) (prunes : Prunes value kept)
    {pointer : Pointer} : pointer ∈ droppedNulls value kept ↔ Lost value kept pointer.tokens := by
  rw [droppedNulls, (Pointer.sort_perm _).mem_iff, mem_lostNulls wellFormed prunes]
  constructor
  · rintro ⟨below, tokens, lost⟩
    rwa [tokens]
  · exact fun lost => ⟨pointer.tokens, rfl, lost⟩

theorem ascending_droppedNulls (wellFormed : value.WellFormed) :
    Pointer.Ascending (droppedNulls value kept) :=
  Pointer.ascending_sort (nodup_lostNulls [] (some kept) wellFormed)

/-- What was pruned is complete again once the dropped nulls are put back. -/
theorem reorders_restoreNulls (wellFormed : value.WellFormed) (keptWellFormed : kept.WellFormed)
    (prunes : Prunes value kept) :
    Reorders value (restoreNulls (droppedNulls value kept) kept) := by
  refine reorders_of_nodeAt?_eq (wellFormed_restoreNulls _ keptWellFormed) wellFormed fun path => ?_
  rw [nodeAt?_restoreNulls]
  cases keptFound : kept.nodeAt? path with
  | some node =>
      rw [if_neg, prunes.keeps keptFound]
      rintro ⟨-, vacant⟩
      rw [vacant.2] at keptFound
      cases keptFound
  | none =>
      cases found : value.nodeAt? path with
      | none =>
          rw [if_neg]
          rintro ⟨dropped, -⟩
          have lost := (mem_droppedNulls wellFormed prunes).1 dropped
          rw [lost.1] at found
          cases found
      | some node =>
          rcases prunes.loses keptFound found with ⟨rfl, vacant⟩
          rw [if_pos ⟨(mem_droppedNulls wellFormed prunes).2 ⟨found, keptFound⟩, vacant⟩]

/-- Putting nulls back adds null members and nothing else. -/
theorem prunes_restoreNulls (pointers : List Pointer) (kept : Json) :
    Prunes (restoreNulls pointers kept) kept := by
  constructor
  · intro path node found
    rw [nodeAt?_restoreNulls, if_neg, found]
    rintro ⟨-, vacant⟩
    rw [vacant.2] at found
    cases found
  · intro path node free found
    rw [nodeAt?_restoreNulls] at found
    split at found
    next restored => exact ⟨(Option.some.inj found).symm, restored.2⟩
    next =>
      rw [free] at found
      cases found

/-- Nulls put back are dropped again, except those that had no place. -/
theorem droppedNulls_restoreNulls (wellFormed : kept.WellFormed) {pointers : List Pointer}
    (ascending : Pointer.Ascending pointers) :
    droppedNulls (restoreNulls pointers kept) kept =
      pointers.filter fun pointer => kept.Vacant pointer.tokens := by
  have restored := wellFormed_restoreNulls pointers wellFormed
  refine (ascending_droppedNulls restored).eq_of_mem_iff (ascending.filter _) fun pointer => ?_
  rw [mem_droppedNulls restored (prunes_restoreNulls pointers kept), List.mem_filter,
    decide_eq_true_eq, Lost, nodeAt?_restoreNulls]
  constructor
  · rintro ⟨null, free⟩
    split at null
    next both => exact both
    next =>
      rw [free] at null
      cases null
  · rintro ⟨here, vacant⟩
    rw [if_pos ⟨here, vacant⟩]
    exact ⟨rfl, vacant.2⟩

end Json
end ContainerBuild
