import ContainerBuild.Proofs.Json.Extension
import ContainerBuild.Proofs.Json.Fields

namespace ContainerBuild
namespace Json

/-!
# Where typed forms take unknown members

An `Opening` is a place of a typed form at which a member of a name it does not know can be
added, with the typed counterpart of adding it.  The rest of a structure is one, and so is every
opening of a part of it: of a field, or of an item of a list.
-/

/-! ## Writing a structure with one more member -/

section Writing

variable {σ : Type} {fields : List (Field σ)} {rest : σ → Dict String Json} {x y : σ}
  {name : String} {value : Json} {path : List String}

/-- What is written for the rest has the new member in its order. -/
theorem added_writeFields_rest (unknown : name ∉ fields.map Field.name)
    (fresh : (rest x).get? name = none)
    (written : ∀ field ∈ fields, field.written y = field.written x)
    (inserted : rest y = (rest x).insert name value) :
    Added name value [] (.object (writeFields fields rest x))
      (.object (writeFields fields rest y)) := by
  have sameFields : fields.flatMap (fun field => Members.optional field.name (field.written y)) =
      fields.flatMap fun field => Members.optional field.name (field.written x) :=
    List.flatMap_congr fun field here => by rw [written field here]
  have notMember : name ∉ Members.names (writeFields fields rest x) := by
    rw [← Members.lookup_eq_none_iff_notMem, lookup_writeFields_of_notMem unknown, fresh]
  rcases Dict.exists_insert_split value fresh with ⟨front, back, split, entries⟩
  rw [writeFields, split, ← List.append_assoc] at notMember
  rw [writeFields, writeFields, sameFields, inserted, entries, split, ← List.append_assoc,
    ← List.append_assoc]
  exact .here notMember

/-- What is written for a field has the new member where its value has it. -/
theorem added_writeFields_field {field : Field σ} {child grown : Json}
    (distinct : (fields.map Field.name).Nodup) (here : field ∈ fields)
    (childWritten : field.written x = some child) (grownWritten : field.written y = some grown)
    (others : ∀ other ∈ fields, other.name ≠ field.name → other.written y = other.written x)
    (sameRest : rest y = rest x) (below : Added name value path child grown) :
    Added name value (field.name :: path) (.object (writeFields fields rest x))
      (.object (writeFields fields rest y)) := by
  rcases List.append_of_mem here with ⟨front, back, rfl⟩
  rw [List.map_append, List.map_cons, List.nodup_middle, List.nodup_cons, ← List.map_append]
    at distinct
  have apart : ∀ other ∈ front ++ back, other.name ≠ field.name := fun other inside same =>
    distinct.1 (List.mem_map.2 ⟨other, inside, same⟩)
  have same : ∀ other ∈ front ++ back, other.written y = other.written x := fun other inside =>
    others other (by grind) (apart other inside)
  have sameFront : front.flatMap (fun field => Members.optional field.name (field.written y)) =
      front.flatMap fun field => Members.optional field.name (field.written x) :=
    List.flatMap_congr fun other inside => by rw [same other (List.mem_append_left _ inside)]
  have sameBack : back.flatMap (fun field => Members.optional field.name (field.written y)) =
      back.flatMap fun field => Members.optional field.name (field.written x) :=
    List.flatMap_congr fun other inside => by rw [same other (List.mem_append_right _ inside)]
  have single (written : Json) : Members.optional field.name (some written) =
      [(field.name, written)] := rfl
  rw [writeFields, writeFields, List.flatMap_append, List.flatMap_append, List.flatMap_cons,
    List.flatMap_cons, sameFront, sameBack, sameRest, childWritten, grownWritten, single, single,
    List.append_assoc, List.append_assoc, List.append_assoc, List.append_assoc]
  refine .member (fun named => ?_) below
  rcases List.mem_map.1 named with ⟨member, inside, isField⟩
  rcases mem_flatMap_optional inside with ⟨other, otherHere, otherName, -⟩
  exact apart other (List.mem_append_left _ otherHere) (otherName.symm.trans isField)

end Writing

theorem IsRest.insert {names : List String} {rest : Dict String Json} (isRest : IsRest names rest)
    {name : String} {value : Json} (unknown : name ∉ names) (wellFormed : value.WellFormed) :
    IsRest names (rest.insert name value) := by
  intro entry here
  rcases Dict.mem_insertEntry here with rfl | before
  · exact ⟨unknown, wellFormed⟩
  · exact isRest entry before

/-! ## Openings -/

/-- A field holds a part that has a typed form of its own, if the part is there. -/
structure Field.Holds {σ α : Type} (field : Field σ) (codec : Codec α) (get : σ → Option α) :
    Prop where
  shape_eq : field.shape = codec.shape
  written_eq : ∀ x, field.written x = (get x).map codec.write
  sound_iff : ∀ x, field.Sound x ↔
    ∀ y ∈ get x, codec.Sound y ∧ (field.lenient = true → codec.write y ≠ .null)

theorem Field.required_holds {σ α : Type} (name : String) (codec : Codec α) (get : σ → α) :
    (Field.required name codec get).Holds codec fun x => some (get x) where
  shape_eq := rfl
  written_eq := fun _ => rfl
  sound_iff := by simp

theorem Field.optional_holds {σ α : Type} (name : String) (codec : Codec α)
    (get : σ → Option α) : (Field.optional name codec get).Holds codec get where
  shape_eq := rfl
  written_eq := fun _ => rfl
  sound_iff := by simp

/-- A place of a typed form that takes members of all names but the known ones.  A member is
added to what is written just as it is added to the typed form, and nothing of the typed form
changes but the members of unknown names, which `bare` leaves out. -/
structure Opening {σ : Type} (codec : Codec σ) (bare : σ → σ) (path known : List String) where
  add : String → Json → σ → σ
  bare_add : ∀ name value x, bare (add name value x) = bare x
  opens : ∀ {name : String}, name ∉ known → codec.shape.Open name path
  added : ∀ {name : String} {value : Json} {x : σ}, name ∉ known → value.WellFormed →
    codec.Sound x → (codec.write x).Vacant (path ++ [name]) →
      codec.Sound (add name value x) ∧
        Added name value path (codec.write x) (codec.write (add name value x))

namespace Opening

section Record

variable {σ : Type} {fields : List (Field σ)} {rest : σ → Dict String Json} {Closed : σ → Prop}
  {read : Json → Except Fault σ} {write : σ → Json} {distinct : (fields.map Field.name).Nodup}
  {read_iff : ∀ value x, read value = .ok x ↔ ∃ members, value = .object members ∧
    (∀ field ∈ fields, field.Asked members x) ∧
      Members.unknownDict members (fields.map Field.name) = .found (rest x) ∧ Closed x}
  {write_eq : ∀ x, write x = .object (writeFields fields rest x)} {bare : σ → σ}

/-- The rest of a structure. -/
def ofRest (setRest : σ → Dict String Json → σ)
    (bare_setRest : ∀ x dict, bare (setRest x dict) = bare x)
    (rest_setRest : ∀ x dict, rest (setRest x dict) = dict := by simp)
    (fields_setRest : ∀ x dict, ∀ field ∈ fields,
      field.written (setRest x dict) = field.written x ∧
        (field.Sound x → field.Sound (setRest x dict)) := by simp)
    (closed_setRest : ∀ x dict, Closed x → Closed (setRest x dict) := by simp) :
    Opening (.record fields rest Closed read write distinct read_iff write_eq) bare []
      (fields.map Field.name) where
  add := fun name value x => setRest x ((rest x).insert name value)
  bare_add := fun name value x => bare_setRest x _
  opens := by
    intro name unknown
    rw [Codec.record_shape, Shape.Open, List.map_map]
    exact unknown
  added := by
    intro name value x unknown wellFormed sound vacant
    have fresh : (rest x).get? name = none := by
      rcases vacant_single_iff.1 vacant with ⟨members, written, free⟩
      rw [Codec.record_write, write_eq, Json.object.injEq] at written
      rw [← lookup_writeFields_of_notMem unknown, written, free]
    have inserted := rest_setRest x ((rest x).insert name value)
    have same := fields_setRest x ((rest x).insert name value)
    rw [Codec.record_write, write_eq, write_eq]
    refine ⟨⟨fun field here => (same field here).2 (sound.1 field here), ?_,
      closed_setRest x _ sound.2.2⟩, ?_⟩
    · rw [inserted]
      exact sound.2.1.insert unknown wellFormed
    · exact added_writeFields_rest unknown fresh (fun field here => (same field here).1) inserted

/-- An opening of the part that a field holds. -/
def ofField {α : Type} {field : Field σ} {codec : Codec α} {get : σ → Option α}
    {bareOfPart : α → α} {path known : List String} (holds : field.Holds codec get)
    (change : (α → α) → σ → σ)
    (bare_change : ∀ f, (∀ y, bareOfPart (f y) = bareOfPart y) → ∀ x, bare (change f x) = bare x)
    (opening : Opening codec bareOfPart path known) (here : field ∈ fields := by simp)
    (get_change : ∀ f x, get (change f x) = (get x).map f := by simp)
    (others_change : ∀ f x, ∀ other ∈ fields, other.name ≠ field.name →
      other.written (change f x) = other.written x ∧
        (other.Sound x → other.Sound (change f x)) := by simp)
    (rest_change : ∀ f x, rest (change f x) = rest x := by simp)
    (closed_change : ∀ f x, Closed x → Closed (change f x) := by simp) :
    Opening (.record fields rest Closed read write distinct read_iff write_eq) bare
      (field.name :: path) known where
  add := fun name value => change (opening.add name value)
  bare_add := fun name value => bare_change _ (opening.bare_add name value)
  opens := by
    intro name unknown
    rw [Codec.record_shape]
    refine ⟨field.lenient, field.shape, List.mem_map.2 ⟨field, here, rfl⟩, ?_⟩
    rw [holds.shape_eq]
    exact opening.opens unknown
  added := by
    intro name value x unknown wellFormed sound vacant
    rcases vacant_cons_concat_iff.1 vacant with ⟨child, found, below⟩
    have written : field.written x = some child := by
      rw [← lookup_writeFields_of_mem distinct sound.2.1 here, ← found, Codec.record_write,
        write_eq, child?]
    rw [holds.written_eq] at written
    rcases Option.map_eq_some_iff.1 written with ⟨y, got, rfl⟩
    have partSound := ((holds.sound_iff x).1 (sound.1 field here) y got).1
    rcases opening.added unknown wellFormed partSound below with ⟨grownSound, added⟩
    have gotGrown : get (change (opening.add name value) x) = some (opening.add name value y) := by
      rw [get_change, got, Option.map_some]
    have others := others_change (opening.add name value) x
    have sameRest := rest_change (opening.add name value) x
    refine ⟨⟨fun other otherHere => ?_, ?_, closed_change _ x sound.2.2⟩, ?_⟩
    · by_cases same : other.name = field.name
      · rw [List.inj_on_of_nodup_map distinct otherHere here same, holds.sound_iff, gotGrown]
        intro grown isGrown
        rw [← Option.some.inj isGrown]
        exact ⟨grownSound, fun _ => added.ne_null⟩
      · exact (others other otherHere same).2 (sound.1 other otherHere)
    · rw [sameRest]
      exact sound.2.1
    · rw [Codec.record_write, write_eq, write_eq]
      refine added_writeFields_field distinct here ?_ ?_
        (fun other otherHere apart => (others other otherHere apart).1) sameRest added
      · rw [holds.written_eq, got, Option.map_some]
      · rw [holds.written_eq, gotGrown, Option.map_some]

end Record

section Items

variable {α : Type} {codec : Codec α} {bare : α → α} {path known : List String}

theorem map_modify_of_same {β : Type} {f : α → α} {g : α → β} (same : ∀ x, g (f x) = g x)
    (index : Nat) (xs : List α) : (xs.modify index f).map g = xs.map g := by
  induction xs generalizing index with
  | nil => rw [List.modify_nil]
  | cons x rest inductionHypothesis =>
      cases index with
      | zero => rw [List.modify_zero_cons, List.map_cons, List.map_cons, same]
      | succ index =>
          rw [List.modify_succ_cons, List.map_cons, List.map_cons, inductionHypothesis]

/-- An opening of one item of a list. -/
def ofItem (index : Nat) (opening : Opening codec bare path known) :
    Opening codec.list (List.map bare) (toString index :: path) known where
  add := fun name value xs => xs.modify index (opening.add name value)
  bare_add := fun name value xs => map_modify_of_same (opening.bare_add name value) index xs
  opens := fun unknown => opening.opens unknown
  added := by
    intro name value xs unknown wellFormed sound vacant
    rcases vacant_cons_concat_iff.1 vacant with ⟨child, found, below⟩
    rw [Codec.list_write, child?_item] at found
    rcases List.getElem?_eq_some_iff.1 found with ⟨inside, childIs⟩
    rw [List.length_map] at inside
    rcases List.exists_of_modify (opening.add name value) inside with
      ⟨front, x, back, rfl, rfl, modified⟩
    have isWritten : child = codec.write x := by
      rw [← childIs]
      simp
    rw [isWritten] at below
    have middle : x ∈ front ++ x :: back := List.mem_append_right _ List.mem_cons_self
    rcases opening.added unknown wellFormed (sound x middle) below with ⟨grownSound, added⟩
    rw [modified]
    constructor
    · exact forall_mem_replace sound grownSound
    · have sameLength : (front.map codec.write).length = front.length := List.length_map _
      simp only [Codec.list_write, List.map_append, List.map_cons]
      rw [← sameLength]
      exact .item added

end Items

end Opening

end Json
end ContainerBuild
