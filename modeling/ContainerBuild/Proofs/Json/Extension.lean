import ContainerBuild.Proofs.Json.Shape

namespace ContainerBuild
namespace Json

/-!
# Members added to a value

`Added` relates a value to the same value with one more member in the object at some place;
everything else stays what it is and where it is.  A typed form that has no field of that name
there keeps the new member with the value it has (`keeps_added`).  It drops the same nulls as
before (`droppedNulls_added`), as those inside the new member are kept with it, and putting them
back does not touch the new member (`Added.restoreNulls`).
-/

/-- The second value is the first with one more member in the object at a place.  The name is new
there, and the order of everything else stays. -/
inductive Added (name : String) (value : Json) : List String → Json → Json → Prop
  | here {front back : Members Json} (fresh : name ∉ Members.names (front ++ back)) :
      Added name value [] (.object (front ++ back)) (.object (front ++ (name, value) :: back))
  | member {token : String} {path : List String} {child grown : Json} {front back : Members Json}
      (first : token ∉ Members.names front) (below : Added name value path child grown) :
      Added name value (token :: path) (.object (front ++ (token, child) :: back))
        (.object (front ++ (token, grown) :: back))
  | item {path : List String} {child grown : Json} {front back : List Json}
      (below : Added name value path child grown) :
      Added name value (toString front.length :: path) (.array (front ++ child :: back))
        (.array (front ++ grown :: back))

/-! ## Lists with something in the middle -/

section Middle

variable {α : Type} {name other : String} {front back : Members α}

theorem lookup_middle_self (value : α) (first : name ∉ Members.names front) :
    List.lookup name (front ++ (name, value) :: back) = some value := by
  rw [List.lookup_append, Members.lookup_eq_none_iff_notMem.2 first, Option.none_or,
    List.lookup_cons_self]

theorem lookup_middle_of_ne (value : α) (different : other ≠ name) :
    List.lookup other (front ++ (name, value) :: back) = List.lookup other (front ++ back) := by
  rw [List.lookup_append, List.lookup_append, List.lookup_cons, beq_false_of_ne different]

end Middle

theorem modifyMember_append_of_mem {token : String} {change : Json → Json}
    {front back : Members Json} (here : token ∈ Members.names front) :
    modifyMember token change (front ++ back) = modifyMember token change front ++ back := by
  induction front with
  | nil => exact absurd here List.not_mem_nil
  | cons head rest inductionHypothesis =>
      rcases head with ⟨other, old⟩
      rw [List.cons_append, modifyMember, modifyMember]
      split
      · rfl
      next apart =>
        have later := (List.mem_cons.1 here).resolve_left (Ne.symm apart)
        rw [inductionHypothesis later, List.cons_append]

theorem modifyMember_append_of_notMem {token : String} {change : Json → Json}
    {front back : Members Json} (missing : token ∉ Members.names front) :
    modifyMember token change (front ++ back) = front ++ modifyMember token change back := by
  induction front with
  | nil => rfl
  | cons head rest inductionHypothesis =>
      rcases head with ⟨other, old⟩
      have parts := not_or.1 (mt List.mem_cons.2 missing)
      rw [List.cons_append, modifyMember, if_neg (Ne.symm parts.1), inductionHypothesis parts.2,
        List.cons_append]

theorem modify_append_of_lt {α : Type} {change : α → α} {front back : List α} {index : Nat}
    (inside : index < front.length) :
    (front ++ back).modify index change = front.modify index change ++ back := by
  induction front generalizing index with
  | nil => exact absurd inside (Nat.not_lt_zero index)
  | cons head rest inductionHypothesis =>
      cases index with
      | zero => rfl
      | succ index =>
          rw [List.cons_append, List.modify_succ_cons, List.modify_succ_cons, List.cons_append,
            inductionHypothesis (Nat.lt_of_succ_lt_succ inside)]

theorem forall_mem_replace {α : Type} {property : α → Prop} {front back : List α} {old new : α}
    (each : ∀ x ∈ front ++ old :: back, property x) (replaced : property new) :
    ∀ x ∈ front ++ new :: back, property x := by
  intro x here
  rcases List.mem_append.1 here with inFront | inRest
  · exact each x (List.mem_append_left _ inFront)
  · rcases List.mem_cons.1 inRest with rfl | inBack
    · exact replaced
    · exact each x (List.mem_append_right _ (List.mem_cons_of_mem _ inBack))

namespace Added

variable {name : String} {value before after : Json} {path : List String}

/-! ## What changes and what does not -/

theorem node_eq (added : Added name value path before after) : after.node = before.node := by
  cases added with
  | here fresh => rfl
  | member first below => rfl
  | item below => simp [node]

theorem ne_null (added : Added name value path before after) : after ≠ .null := by
  cases added <;> exact fun null => by cases null

/-- The new member, where it is added. -/
theorem child?_here (added : Added name value [] before after) :
    before.child? name = none ∧ after.child? name = some value ∧
      ∀ other, other ≠ name → after.child? other = before.child? other := by
  cases added with
  | @here front back fresh =>
      have apart : name ∉ Members.names front := fun here => fresh (by
        rw [Members.names, List.map_append]
        exact List.mem_append_left _ here)
      exact ⟨Members.lookup_eq_none_iff_notMem.2 fresh, lookup_middle_self value apart,
        fun other different => lookup_middle_of_ne value different⟩

theorem items_cases {token : String} {items : List Json}
    (added : Added name value (token :: path) (.array items) after) :
    ∃ front child grown back, token = toString (List.length front) ∧
      items = front ++ child :: back ∧ after = .array (front ++ grown :: back) ∧
      Added name value path child grown := by
  cases added with
  | item below => exact ⟨_, _, _, _, rfl, rfl, rfl, below⟩

/-- Towards the place of the new member only the part that leads there changes. -/
theorem child?_below {token : String} (added : Added name value (token :: path) before after) :
    (∃ child grown, before.child? token = some child ∧ after.child? token = some grown ∧
        Added name value path child grown) ∧
      ∀ other, other ≠ token → after.child? other = before.child? other := by
  cases added with
  | @member _ _ child grown front back first below =>
      refine ⟨⟨child, grown, lookup_middle_self child first, lookup_middle_self grown first,
        below⟩, fun other different => ?_⟩
      rw [child?, child?, lookup_middle_of_ne grown different, lookup_middle_of_ne child different]
  | @item _ child grown front back below =>
      refine ⟨⟨child, grown, ?_, ?_, below⟩, fun other different => ?_⟩
      · rw [child?_item, List.getElem?_append_right le_rfl, Nat.sub_self, List.getElem?_cons_zero]
      · rw [child?_item, List.getElem?_append_right le_rfl, Nat.sub_self, List.getElem?_cons_zero]
      · rw [child?, child?]
        cases named : Pointer.index? other with
        | none => rfl
        | some index =>
            have apart : index ≠ front.length := fun same =>
              different (by rw [Pointer.eq_toString_of_index? named, same])
            rw [Option.bind_some, Option.bind_some]
            rcases Nat.lt_or_gt_of_ne apart with less | greater
            · rw [List.getElem?_append_left less, List.getElem?_append_left less]
            · rw [List.getElem?_append_right greater.le, List.getElem?_append_right greater.le]
              obtain ⟨offset, distance⟩ : ∃ offset, index - front.length = offset + 1 :=
                ⟨index - front.length - 1, by omega⟩
              rw [distance, List.getElem?_cons_succ, List.getElem?_cons_succ]

/-- At the new member and below it is the new value, and nothing was there before. -/
theorem nodeAt?_inside (added : Added name value path before after) (below : List String) :
    before.nodeAt? (path ++ name :: below) = none ∧
      after.nodeAt? (path ++ name :: below) = value.nodeAt? below := by
  induction path generalizing before after with
  | nil =>
      rcases added.child?_here with ⟨free, found, -⟩
      rw [List.nil_append, nodeAt?_cons, nodeAt?_cons, free, found]
      exact ⟨rfl, rfl⟩
  | cons token rest inductionHypothesis =>
      rcases added.child?_below with ⟨⟨child, grown, childFound, grownFound, below⟩, -⟩
      rw [List.cons_append, nodeAt?_cons, nodeAt?_cons, childFound, grownFound]
      exact inductionHypothesis below

/-- Outside the new member nothing changes. -/
theorem nodeAt?_outside (added : Added name value path before after) {place : List String}
    (outside : ∀ below, place ≠ path ++ name :: below) :
    after.nodeAt? place = before.nodeAt? place := by
  induction path generalizing before after place with
  | nil =>
      cases place with
      | nil => rw [nodeAt?_nil, nodeAt?_nil, added.node_eq]
      | cons asked below =>
          have apart : asked ≠ name := fun same => outside below (by rw [same, List.nil_append])
          rw [nodeAt?_cons, nodeAt?_cons, added.child?_here.2.2 asked apart]
  | cons token rest inductionHypothesis =>
      cases place with
      | nil => rw [nodeAt?_nil, nodeAt?_nil, added.node_eq]
      | cons asked others =>
          rcases added.child?_below with ⟨⟨child, grown, childFound, grownFound, below⟩, same⟩
          by_cases asksToken : asked = token
          · subst asksToken
            rw [nodeAt?_cons, nodeAt?_cons, childFound, grownFound]
            refine inductionHypothesis below fun below equal => outside below ?_
            rw [equal, List.cons_append]
          · rw [nodeAt?_cons, nodeAt?_cons, same asked asksToken]

theorem nodeAt?_place (added : Added name value path before after) :
    before.nodeAt? path = some .object := by
  induction path generalizing before after with
  | nil =>
      cases added with
      | here fresh => rfl
  | cons token rest inductionHypothesis =>
      rcases added.child?_below with ⟨⟨child, grown, childFound, -, below⟩, -⟩
      rw [nodeAt?_cons, childFound]
      exact inductionHypothesis below

theorem vacant (added : Added name value path before after) : before.Vacant (path ++ [name]) := by
  refine ⟨?_, (added.nodeAt?_inside []).1⟩
  rw [List.dropLast_concat]
  exact added.nodeAt?_place

theorem wellFormed (added : Added name value path before after) (valueWellFormed : value.WellFormed)
    (beforeWellFormed : before.WellFormed) : after.WellFormed := by
  induction added with
  | @here front back fresh =>
      refine ⟨?_, wellFormedMembers_iff.2 fun member here => ?_⟩
      · have distinct : (name :: Members.names (front ++ back)).Nodup :=
          List.nodup_cons.2 ⟨fresh, beforeWellFormed.1⟩
        have shuffle : (front ++ (name, value) :: back).Perm ((name, value) :: (front ++ back)) :=
          List.perm_middle
        exact (shuffle.map Prod.fst).nodup_iff.2 distinct
      · rcases List.mem_cons.1 (List.perm_middle.mem_iff.1 here) with rfl | old
        · exact valueWellFormed
        · exact wellFormedMembers_iff.1 beforeWellFormed.2 member old
  | @member token path child grown front back first below inductionHypothesis =>
      have each := wellFormedMembers_iff.1 beforeWellFormed.2
      have childWellFormed := each (token, child) (List.mem_append_right _ List.mem_cons_self)
      constructor
      · have distinct := beforeWellFormed.1
        rwa [List.map_append, List.map_cons] at distinct ⊢
      · exact wellFormedMembers_iff.2
          (forall_mem_replace each (inductionHypothesis childWellFormed))
  | @item path child grown front back below inductionHypothesis =>
      have each := wellFormedItems_iff.1 beforeWellFormed
      have childWellFormed := each child (List.mem_append_right _ List.mem_cons_self)
      exact wellFormedItems_iff.2 (forall_mem_replace each (inductionHypothesis childWellFormed))

end Added

/-! ## What a typed form makes of it -/

theorem vacant_cons_concat_iff {value : Json} {token name : String} {path : List String} :
    value.Vacant (token :: (path ++ [name])) ↔
      ∃ child, value.child? token = some child ∧ child.Vacant (path ++ [name]) := by
  cases path with
  | nil => exact vacant_cons_iff
  | cons next rest => exact vacant_cons_iff

/-- A place that is vacant in a value is vacant in what is kept of it. -/
theorem Prunes.vacant {value kept : Json} (prunes : Prunes value kept) {path : List String}
    (vacant : value.Vacant path) : kept.Vacant path := by
  constructor
  · cases found : kept.nodeAt? path.dropLast with
    | none =>
        have null := (prunes.loses found vacant.1).1
        cases null
    | some around =>
        have object := prunes.keeps found
        rw [vacant.1] at object
        exact object.symm
  · cases found : kept.nodeAt? path with
    | none => rfl
    | some node =>
        have there := prunes.keeps found
        rw [vacant.2] at there
        cases there

namespace Shape

/-- A path leads to an object of the shape that has no field of the name. -/
def Open (name : String) : List String → Shape → Prop
  | [], .object fields => name ∉ fields.map Prod.fst
  | token :: rest, .object fields =>
      ∃ lenient shape, (token, lenient, shape) ∈ fields ∧ Open name rest shape
  | _ :: rest, .list item => Open name rest item
  | _, _ => False

variable {name : String} {value before after kept keptAfter : Json} {path : List String}

/-- Items at one place can be replaced in both lists. -/
theorem forall₂_middle {α : Type} {relation : α → α → Prop} {item other : α}
    {front back otherFront otherBack : List α} (sameLength : front.length = otherFront.length)
    (each : List.Forall₂ relation (front ++ item :: back) (otherFront ++ other :: otherBack)) :
    relation item other ∧ ∀ new otherNew, relation new otherNew →
      List.Forall₂ relation (front ++ new :: back) (otherFront ++ otherNew :: otherBack) := by
  induction front generalizing otherFront with
  | nil =>
      rw [List.eq_nil_of_length_eq_zero sameLength.symm] at each ⊢
      cases each with
      | cons head tail => exact ⟨head, fun _ _ related => .cons related tail⟩
  | cons first rest inductionHypothesis =>
      cases otherFront with
      | nil => cases sameLength
      | cons otherFirst otherRest =>
          cases each with
          | cons head tail =>
              rcases inductionHypothesis (Nat.succ.inj sameLength) tail with ⟨here, replace⟩
              exact ⟨here, fun _ _ related => .cons head (replace _ _ related)⟩

/-- A member that no field is named after is kept as it is. -/
theorem keeps_added {shape : Shape} (distinct : shape.Distinct) (isOpen : shape.Open name path)
    (keeps : shape.Keeps before kept) (added : Added name value path before after)
    (keptAdded : Added name value path kept keptAfter) : shape.Keeps after keptAfter := by
  induction path generalizing shape before after kept keptAfter with
  | nil =>
      rcases keeps_inversion keeps with ⟨rfl, -⟩ | ⟨_, _, _, rfl, -⟩ |
        ⟨fields, members, keptMembers, rfl, rfl, rfl, -⟩
      · exact isOpen.elim
      · exact isOpen.elim
      · rcases added.child?_here with ⟨-, found, others⟩
        rcases keptAdded.child?_here with ⟨-, keptFound, keptOthers⟩
        rcases eq_object_of_node added.node_eq with ⟨changed, rfl⟩
        rcases eq_object_of_node keptAdded.node_eq with ⟨keptChanged, rfl⟩
        exact keeps_object_of_lookup keeps others keptOthers
          (fun _ _ here => absurd (List.mem_map.2 ⟨_, here, rfl⟩) isOpen)
          fun _ => found.trans keptFound.symm
  | cons token rest inductionHypothesis =>
      rcases keeps_inversion keeps with ⟨rfl, -⟩ | ⟨item, items, keptItems, rfl, rfl, rfl, each⟩ |
        ⟨fields, members, keptMembers, rfl, rfl, rfl, known, -⟩
      · exact isOpen.elim
      · rw [Distinct] at distinct
        rcases added.items_cases with ⟨front, child, grown, back, named, rfl, rfl, below⟩
        rcases keptAdded.items_cases with
          ⟨keptFront, keptChild, keptGrown, keptBack, keptNamed, rfl, rfl, keptBelow⟩
        have sameLength : front.length = keptFront.length := by
          have same := congrArg Pointer.index? (named.symm.trans keptNamed)
          rwa [Pointer.index?_toString, Pointer.index?_toString, Option.some.injEq] at same
        rcases forall₂_middle sameLength each with ⟨childKeeps, replace⟩
        rw [Keeps]
        exact replace _ _ (inductionHypothesis distinct isOpen childKeeps below keptBelow)
      · rw [Distinct] at distinct
        rcases isOpen with ⟨lenient, shape, here, isOpen⟩
        rcases added.child?_below with ⟨⟨child, grown, found, grownFound, below⟩, others⟩
        rcases keptAdded.child?_below with
          ⟨⟨keptChild, keptGrown, keptFound, keptGrownFound, keptBelow⟩, keptOthers⟩
        rcases eq_object_of_node added.node_eq with ⟨changed, rfl⟩
        rcases eq_object_of_node keptAdded.node_eq with ⟨keptChanged, rfl⟩
        rw [child?] at found grownFound keptFound keptGrownFound
        have field := keepsFields_iff.1 known _ here
        dsimp only at field
        rw [found, keptFound] at field
        have grownKeeps := inductionHypothesis (distinctFields_iff.1 distinct.2 _ here) isOpen
          field.1 below keptBelow
        refine keeps_object_change distinct.1 here keeps others keptOthers ?_
        rw [grownFound, keptGrownFound]
        exact ⟨grownKeeps, fun _ => below.ne_null⟩

/-- No null of a lenient field lies inside a member that no field is named after. -/
theorem not_slot_of_open {shape : Shape} (distinct : shape.Distinct)
    (isOpen : shape.Open name path) (below : List String) :
    ¬ Slot (path ++ name :: below) shape := by
  induction path generalizing shape with
  | nil =>
      cases shape with
      | object fields =>
          cases below with
          | nil => exact fun ⟨_, here⟩ => isOpen (List.mem_map.2 ⟨_, here, rfl⟩)
          | cons next rest => exact fun ⟨_, _, here, _⟩ => isOpen (List.mem_map.2 ⟨_, here, rfl⟩)
      | _ => exact isOpen.elim
  | cons token rest inductionHypothesis =>
      obtain ⟨next, others, split⟩ : ∃ next others, rest ++ name :: below = next :: others := by
        cases rest with
        | nil => exact ⟨_, _, rfl⟩
        | cons next others => exact ⟨_, _, rfl⟩
      rw [List.cons_append, split]
      cases shape with
      | any => exact isOpen.elim
      | list item =>
          rw [Distinct] at distinct
          have inItem := inductionHypothesis distinct isOpen
          rwa [split] at inItem
      | object fields =>
          rw [Distinct] at distinct
          rintro ⟨lenient, shape, here, slot⟩
          rcases isOpen with ⟨openLenient, openShape, openHere, isOpen⟩
          have same := List.inj_on_of_nodup_map distinct.1 here openHere rfl
          cases same
          refine inductionHypothesis (distinctFields_iff.1 distinct.2 _ here) isOpen ?_
          rwa [split]

end Shape

/-! ## Nulls beside a new member

The dropped nulls are the same with the new member and without, and they all belong elsewhere.
So it makes no difference whether they are put back before or after it is added. -/

section Nulls

variable {name : String} {value before after kept keptAfter : Json} {path : List String}

/-- A null inside a new member is not lost, and elsewhere nothing changes. -/
theorem lost_added_iff (added : Added name value path before after)
    (keptAdded : Added name value path kept keptAfter) (place : List String) :
    Lost after keptAfter place ↔ Lost before kept place := by
  by_cases inside : ∃ below, place = path ++ name :: below
  · rcases inside with ⟨below, rfl⟩
    rw [Lost, Lost, (added.nodeAt?_inside below).1, (added.nodeAt?_inside below).2,
      (keptAdded.nodeAt?_inside below).2]
    constructor
    · rintro ⟨null, free⟩
      rw [null] at free
      cases free
    · rintro ⟨null, -⟩
      cases null
  · have outside := not_exists.1 inside
    rw [Lost, Lost, added.nodeAt?_outside outside, keptAdded.nodeAt?_outside outside]

theorem droppedNulls_added (wellFormed : before.WellFormed) (valueWellFormed : value.WellFormed)
    (prunes : Prunes before kept) (prunesAfter : Prunes after keptAfter)
    (added : Added name value path before after)
    (keptAdded : Added name value path kept keptAfter) :
    droppedNulls after keptAfter = droppedNulls before kept := by
  have afterWellFormed := added.wellFormed valueWellFormed wellFormed
  refine (ascending_droppedNulls afterWellFormed).eq_of_mem_iff
    (ascending_droppedNulls wellFormed) fun pointer => ?_
  rw [mem_droppedNulls afterWellFormed prunesAfter, mem_droppedNulls wellFormed prunes,
    lost_added_iff added keptAdded]

namespace Added

/-- A null of another name goes to the end of an object, with a new member or without. -/
theorem putNew_here {other : String} {front back : Members Json}
    (fresh : name ∉ Members.names (front ++ back)) (different : other ≠ name) :
    Added name value [] (.object (Members.putNew other .null (front ++ back)))
      (.object (Members.putNew other .null (front ++ (name, value) :: back))) := by
  rw [Members.putNew, Members.putNew, lookup_middle_of_ne value different]
  split
  · exact .here fresh
  · rw [List.append_assoc, List.append_assoc, List.cons_append]
    refine .here fun here => ?_
    rw [← List.append_assoc, Members.names, List.map_append] at here
    rcases List.mem_append.1 here with before | last
    · exact fresh before
    · exact different (List.mem_singleton.1 last).symm

theorem putNew_member {token other : String} {child grown : Json} {front back : Members Json}
    (first : token ∉ Members.names front) (below : Added name value path child grown) :
    Added name value (token :: path)
      (.object (Members.putNew other .null (front ++ (token, child) :: back)))
      (.object (Members.putNew other .null (front ++ (token, grown) :: back))) := by
  have same : (List.lookup other (front ++ (token, grown) :: back)).isSome =
      (List.lookup other (front ++ (token, child) :: back)).isSome := by
    by_cases isToken : other = token
    · rw [isToken, lookup_middle_self _ first, lookup_middle_self _ first]
      rfl
    · rw [lookup_middle_of_ne _ isToken, lookup_middle_of_ne _ isToken]
  rw [Members.putNew, Members.putNew, same]
  split
  · exact .member first below
  · rw [List.append_assoc, List.append_assoc, List.cons_append, List.cons_append]
    exact .member first below

/-- Another member than the new one can be changed before or after it is added. -/
theorem modify_here {token : String} (change : Json → Json) {front back : Members Json}
    (fresh : name ∉ Members.names (front ++ back)) (different : token ≠ name) :
    Added name value [] (.object (modifyMember token change (front ++ back)))
      (.object (modifyMember token change (front ++ (name, value) :: back))) := by
  have names : name ∉ Members.names (modifyMember token change (front ++ back)) := by
    rw [Members.names, names_modifyMember]
    exact fresh
  by_cases inFront : token ∈ Members.names front
  · rw [modifyMember_append_of_mem inFront] at names ⊢
    rw [modifyMember_append_of_mem inFront]
    exact .here names
  · rw [modifyMember_append_of_notMem inFront] at names ⊢
    rw [modifyMember_append_of_notMem inFront, modifyMember, if_neg (Ne.symm different)]
    exact .here names

theorem modify_member {token asked : String} (change : Json → Json) {child grown : Json}
    {front back : Members Json} (first : token ∉ Members.names front)
    (below : Added name value path child grown)
    (changed : asked = token → Added name value path (change child) (change grown)) :
    Added name value (token :: path)
      (.object (modifyMember asked change (front ++ (token, child) :: back)))
      (.object (modifyMember asked change (front ++ (token, grown) :: back))) := by
  by_cases inFront : asked ∈ Members.names front
  · rw [modifyMember_append_of_mem inFront, modifyMember_append_of_mem inFront]
    refine .member ?_ below
    rw [Members.names, names_modifyMember]
    exact first
  · rw [modifyMember_append_of_notMem inFront, modifyMember_append_of_notMem inFront,
      modifyMember, modifyMember]
    by_cases same : token = asked
    · rw [if_pos same, if_pos same]
      exact .member first (changed same.symm)
    · rw [if_neg same, if_neg same]
      exact .member first below

theorem modify_item {index : Nat} (change : Json → Json) {child grown : Json}
    {front back : List Json} (below : Added name value path child grown)
    (changed : index = front.length → Added name value path (change child) (change grown)) :
    Added name value (toString front.length :: path)
      (.array ((front ++ child :: back).modify index change))
      (.array ((front ++ grown :: back).modify index change)) := by
  rcases Nat.lt_trichotomy index front.length with less | rfl | greater
  · have sameLength : (front.modify index change).length = front.length := List.length_modify ..
    rw [modify_append_of_lt less, modify_append_of_lt less, ← sameLength]
    exact .item below
  · have here (item : Json) : (front ++ item :: back).modify front.length change =
        front ++ change item :: back := List.modifyTailIdx_add _ 0 front (item :: back)
    rw [here, here]
    exact .item (changed rfl)
  · obtain ⟨offset, rfl⟩ : ∃ offset, index = front.length + (offset + 1) :=
      ⟨index - front.length - 1, by omega⟩
    have later (item : Json) : (front ++ item :: back).modify (front.length + (offset + 1)) change =
        front ++ item :: back.modify offset change :=
      List.modifyTailIdx_add _ (offset + 1) front (item :: back)
    rw [later, later]
    exact .item below

/-- A null that belongs elsewhere can be put back before or after the member is added. -/
theorem restoreNull (added : Added name value path before after) {place : List String}
    (outside : ∀ below, place ≠ path ++ name :: below) :
    Added name value path (restoreNull place before) (Json.restoreNull place after) := by
  induction added generalizing place with
  | @here front back fresh =>
      match place, outside with
      | [], _ => exact .here fresh
      | [other], outside =>
          exact putNew_here fresh fun same => outside [] (by rw [same, List.nil_append])
      | token :: next :: rest, outside =>
          exact modify_here _ fresh fun same =>
            outside (next :: rest) (by rw [same, List.nil_append])
  | @member token path child grown front back first below inductionHypothesis =>
      match place, outside with
      | [], _ => exact .member first below
      | [other], _ => exact putNew_member first below
      | asked :: next :: rest, outside =>
          refine modify_member _ first below fun same => inductionHypothesis fun inside equal => ?_
          exact outside inside (by rw [same, equal, List.cons_append])
  | @item path child grown front back below inductionHypothesis =>
      match place, outside with
      | [], _ => exact .item below
      | [other], _ => exact .item below
      | asked :: next :: rest, outside =>
          rw [Json.restoreNull, Json.restoreNull]
          cases named : Pointer.index? asked with
          | none => exact .item below
          | some index =>
              refine modify_item _ below fun same => inductionHypothesis fun inside equal => ?_
              refine outside inside ?_
              rw [Pointer.eq_toString_of_index? named, same, equal, List.cons_append]

theorem restoreNulls (added : Added name value path before after) {pointers : List Pointer}
    (outside : ∀ pointer ∈ pointers, ∀ below, pointer.tokens ≠ path ++ name :: below) :
    Added name value path (restoreNulls pointers before) (Json.restoreNulls pointers after) := by
  induction pointers generalizing before after with
  | nil => exact added
  | cons pointer rest inductionHypothesis =>
      have parts := List.forall_mem_cons.1 outside
      exact inductionHypothesis (added.restoreNull parts.1) parts.2

end Added

end Nulls

end Json
end ContainerBuild
