import ContainerBuild.Json.Answer
import ContainerBuild.Json.OfData
import ContainerBuild.Proofs.Json.Shape

namespace ContainerBuild
namespace Json

/-!
# Typed forms of values

A `Codec` is a way to read values into a type and to write them back, together with its laws.
The main law says when a value is read as something: just when what is written for it is what
the shape keeps of the value.  Codecs of structured types are put together from codecs of their
fields (`Codec.record`), and so are their laws.
-/

/-- A reader and a writer that belong together. -/
structure Codec (α : Type) where
  shape : Shape
  read : Json → Except Fault α
  write : α → Json
  /-- What can be read at all. -/
  Sound : α → Prop
  read_iff : ∀ {value : Json} {x : α}, value.WellFormed →
    (read value = .ok x ↔ Sound x ∧ shape.Keeps value (write x))
  wellFormed : ∀ {x : α}, Sound x → (write x).WellFormed
  self : ∀ {x : α}, Sound x → shape.Keeps (write x) (write x)
  distinct : shape.Distinct

namespace Codec

variable {α : Type}

/-- What is sound is read back. -/
theorem read_write (codec : Codec α) {x : α} (sound : codec.Sound x) :
    codec.read (codec.write x) = .ok x :=
  (codec.read_iff (codec.wellFormed sound)).2 ⟨sound, codec.self sound⟩

/-! ## Values that are kept as they are -/

/-- A typed form that keeps values as they are. -/
@[simps -fullyApplied]
def plain (read : Json → Except Fault α) (write : α → Json) (Sound : α → Prop)
    (read_iff : ∀ value x, value.WellFormed → (read value = .ok x ↔ Sound x ∧ value = write x))
    (wellFormed : ∀ x, Sound x → (write x).WellFormed) : Codec α where
  shape := .any
  read := read
  write := write
  Sound := Sound
  read_iff := by
    intro value x valueWellFormed
    rw [Shape.Keeps]
    exact read_iff value x valueWellFormed
  wellFormed := fun sound => wellFormed _ sound
  self := fun _ => by rw [Shape.Keeps]
  distinct := Shape.distinct_any

theorem asString_iff {value : Json} {text : String} :
    value.asString = .ok text ↔ value = .string text := by
  cases value <;> simp [asString]

theorem asNat_iff {limit : Nat} {value : Json} {number : Nat} :
    value.asNat limit = .ok number ↔ number < limit ∧ value = .ofNat number := by
  constructor
  · intro read
    rw [asNat.eq_def] at read
    split at read
    next integer =>
      split at read
      next bounds =>
        have same := Except.ok.inj read
        rw [ofNat]
        refine ⟨by omega, ?_⟩
        congr 2
        omega
      next => cases read
    next => cases read
  · rintro ⟨bound, rfl⟩
    rw [ofNat, asNat, if_pos ⟨Int.natCast_nonneg number, by omega⟩]
    rfl

/-- Strings. -/
@[simps! -fullyApplied]
def text : Codec String :=
  plain asString .string (fun _ => True)
    (fun value x _ => by rw [asString_iff, true_and]) fun _ _ => trivial

/-- Truth values. -/
@[simps! -fullyApplied]
def truth : Codec Bool :=
  plain asBool .bool (fun _ => True)
    (fun value x _ => by cases value <;> simp [asBool]) fun _ _ => trivial

/-- Unsigned integers of 64 bits. -/
@[simps! -fullyApplied]
def word : Codec UInt64 :=
  plain asUInt64 (fun x => .ofNat x.toNat) (fun _ => True)
    (fun value x _ => by
      rw [asUInt64, true_and]
      constructor
      · intro read
        cases found : value.asNat UInt64.size with
        | error => rw [found] at read; cases read
        | ok number =>
            rw [found] at read
            rcases asNat_iff.1 found with ⟨bound, rfl⟩
            rw [← Except.ok.inj read, UInt64.toNat_ofNat_of_lt' bound]
      · rintro rfl
        rw [asNat_iff.2 ⟨x.toNat_lt, rfl⟩, Except.map, UInt64.ofNat_toNat])
    fun x _ => by
      have bound := x.toNat_lt
      exact ⟨by omega, by omega⟩

/-- Values of any kind. -/
@[simps! -fullyApplied]
def any : Codec Json :=
  plain asAny id WellFormed
    (fun value x wellFormed => by
      rw [asAny, Except.ok.injEq]
      exact ⟨fun same => ⟨same ▸ wellFormed, same⟩, fun both => both.2⟩)
    fun _ sound => sound

/-- Arrays of any values. -/
@[simps! -fullyApplied]
def items : Codec (List Json) :=
  plain asArray .array WellFormedItems
    (fun value x wellFormed => by
      cases value with
      | array items =>
          rw [asArray, Except.ok.injEq, Json.array.injEq]
          exact ⟨fun same => ⟨same ▸ wellFormed, same⟩, fun both => both.2⟩
      | _ => simp [asArray])
    fun _ sound => sound

/-- Objects of any members, in their order. -/
@[simps! -fullyApplied]
def members : Codec (Members Json) :=
  plain asObject .object (fun members => (Json.object members).WellFormed)
    (fun value x wellFormed => by
      cases value with
      | object members =>
          rw [asObject, Except.ok.injEq, Json.object.injEq]
          exact ⟨fun same => ⟨same ▸ wellFormed, same⟩, fun both => both.2⟩
      | _ => simp [asObject])
    fun _ sound => sound

/-! ## Several values -/

theorem mapM_ok_iff {β γ : Type} {read : β → Except Fault γ} {values : List β} {xs : List γ} :
    values.mapM read = .ok xs ↔ List.Forall₂ (fun value x => read value = .ok x) values xs := by
  induction values generalizing xs with
  | nil =>
      rw [List.mapM_nil, List.forall₂_nil_left_iff]
      exact ⟨fun same => (Except.ok.inj same).symm, fun none => by rw [none]; rfl⟩
  | cons value rest inductionHypothesis =>
      rw [List.mapM_cons, List.forall₂_cons_left_iff]
      constructor
      · intro all
        cases head : read value with
        | error fault => rw [head] at all; cases all
        | ok x =>
            rw [head] at all
            cases tail : rest.mapM read with
            | error fault =>
                rw [tail] at all
                cases all
            | ok others =>
                rw [tail] at all
                exact ⟨x, others, rfl, inductionHypothesis.1 tail, (Except.ok.inj all).symm⟩
      · rintro ⟨x, others, head, tail, rfl⟩
        rw [head, inductionHypothesis.2 tail]
        rfl

theorem forall₂_read_iff (codec : Codec α) {values : List Json} {xs : List α}
    (wellFormed : ∀ value ∈ values, value.WellFormed) :
    List.Forall₂ (fun value x => codec.read value = .ok x) values xs ↔
      (∀ x ∈ xs, codec.Sound x) ∧
        List.Forall₂ (fun value x => codec.shape.Keeps value (codec.write x)) values xs := by
  induction values generalizing xs with
  | nil =>
      rw [List.forall₂_nil_left_iff, List.forall₂_nil_left_iff]
      exact ⟨fun none => ⟨by simp [none], none⟩, fun both => both.2⟩
  | cons value rest inductionHypothesis =>
      have parts := List.forall_mem_cons.1 wellFormed
      cases xs with
      | nil => exact ⟨fun each => (by cases each), fun both => (by cases both.2)⟩
      | cons x others =>
          rw [List.forall₂_cons, List.forall₂_cons, List.forall_mem_cons,
            codec.read_iff parts.1, inductionHypothesis parts.2]
          exact and_and_and_comm

/-- Arrays item by item. -/
@[simps -fullyApplied]
def list (codec : Codec α) : Codec (List α) where
  shape := .list codec.shape
  read := asList codec.read
  write := fun xs => .array (xs.map codec.write)
  Sound := fun xs => ∀ x ∈ xs, codec.Sound x
  read_iff := by
    intro value xs wellFormed
    cases value with
    | array items =>
        change items.mapM codec.read = .ok xs ↔ _
        rw [mapM_ok_iff, forall₂_read_iff codec (wellFormedItems_iff.1 wellFormed), Shape.Keeps,
          List.forall₂_map_right_iff]
    | _ =>
        refine ⟨fun read => (by cases read), fun both => ?_⟩
        rw [Shape.Keeps] at both
        · exact both.2.elim
        all_goals simp
  wellFormed := by
    intro xs sound
    refine wellFormedItems_iff.2 fun item here => ?_
    rcases List.mem_map.1 here with ⟨x, member, rfl⟩
    exact codec.wellFormed (sound x member)
  self := by
    intro xs sound
    rw [Shape.Keeps, List.forall₂_map_left_iff, List.forall₂_map_right_iff, List.forall₂_same]
    exact fun x member => codec.self (sound x member)
  distinct := by
    rw [Shape.Distinct]
    exact codec.distinct

/-- Members whose values are strings. -/
theorem mapM_strings_iff {members : Members Json} {entries : Members String} :
    members.mapM (fun (name, value) => do Except.ok (name, ← value.asString)) = .ok entries ↔
      members = entries.map fun entry => (entry.1, Json.string entry.2) := by
  rw [mapM_ok_iff]
  induction members generalizing entries with
  | nil =>
      rw [List.forall₂_nil_left_iff]
      exact ⟨fun none => by rw [none]; rfl, fun none => List.map_eq_nil_iff.1 none.symm⟩
  | cons member rest inductionHypothesis =>
      cases entries with
      | nil => exact ⟨fun each => (by cases each), fun same => (by cases same)⟩
      | cons entry others =>
          rcases member with ⟨name, value⟩
          rw [List.forall₂_cons, inductionHypothesis, List.map_cons, List.cons.injEq]
          refine and_congr_left fun _ => ?_
          cases value with
          | string text =>
              change Except.ok (name, text) = Except.ok entry ↔ _
              rw [Except.ok.injEq, Prod.mk.injEq, Prod.mk.injEq, Json.string.injEq]
          | _ => exact ⟨fun read => (by cases read), fun same => (by cases (Prod.mk.inj same).2)⟩

theorem asDict_object_iff {members : Members Json} {dict : Dict String String} :
    asDict asString (.object members) = .ok dict ↔
      ∃ entries, members = entries.map (fun entry => (entry.1, Json.string entry.2)) ∧
        Dict.ofList entries = dict := by
  change (members.mapM (fun (name, value) => do Except.ok (name, ← value.asString)) >>=
    fun entries => Except.ok (Dict.ofList entries)) = .ok dict ↔ _
  constructor
  · intro read
    cases found : members.mapM (fun (name, value) => do Except.ok (name, ← value.asString)) with
    | error fault =>
        rw [found] at read
        cases read
    | ok entries =>
        rw [found] at read
        exact ⟨entries, mapM_strings_iff.1 found, Except.ok.inj read⟩
  · rintro ⟨entries, strings, same⟩
    rw [mapM_strings_iff.2 strings, ← same]
    rfl

theorem names_map_string (entries : Members String) :
    Members.names (entries.map fun entry => (entry.1, Json.string entry.2)) = entries.names := by
  rw [Members.names, List.map_map]
  rfl

theorem exists_strings {members : Members Json}
    (strings : ∀ member ∈ members, ∃ text, member.2 = .string text) :
    ∃ entries : Members String,
      members = entries.map fun entry => (entry.1, Json.string entry.2) := by
  induction members with
  | nil => exact ⟨[], rfl⟩
  | cons member rest inductionHypothesis =>
      have parts := List.forall_mem_cons.1 strings
      rcases inductionHypothesis parts.2 with ⟨entries, others⟩
      rcases parts.1 with ⟨text, value⟩
      exact ⟨(member.1, text) :: entries, by rw [List.map_cons, ← others, ← value]⟩

/-- Objects of strings, by name. -/
@[simps! -fullyApplied]
def texts : Codec (Dict String String) where
  shape := .object []
  read := asDict asString
  write := ofTexts
  Sound := fun _ => True
  read_iff := by
    intro value dict wellFormed
    cases value with
    | object members =>
        have distinct : (Members.names members).Nodup := wellFormed.1
        rw [ofTexts, Shape.Keeps, Shape.KeepsFields, true_and, true_and]
        simp only [List.map_nil, List.not_mem_nil, not_false_eq_true, forall_const,
          Members.lookup_map Json.string, Dict.lookup_entries]
        constructor
        · intro read name
          rcases asDict_object_iff.1 read with ⟨entries, rfl, rfl⟩
          rw [names_map_string] at distinct
          rw [Members.lookup_map Json.string, Dict.get?_ofList distinct]
        · intro same
          have strings : ∀ member ∈ members, ∃ text, member.2 = .string text := by
            intro member here
            have found := (Members.lookup_eq_some_iff_mem distinct).2 here
            rw [same] at found
            rcases Option.map_eq_some_iff.1 found with ⟨text, -, equal⟩
            exact ⟨text, equal.symm⟩
          rcases exists_strings strings with ⟨entries, rfl⟩
          refine asDict_object_iff.2 ⟨entries, rfl, Dict.ext_get? fun name => ?_⟩
          rw [names_map_string] at distinct
          have found := same name
          rw [Members.lookup_map Json.string] at found
          rw [Dict.get?_ofList distinct]
          exact Option.map_injective (fun _ _ => Json.string.inj) found
    | _ =>
        refine ⟨fun read => (by cases read), fun both => ?_⟩
        rw [ofTexts, Shape.Keeps] at both
        · exact both.2.elim
        all_goals simp
  wellFormed := by
    intro dict _
    refine ⟨?_, wellFormedMembers_iff.2 fun member here => ?_⟩
    · have names := names_map_string dict.entries
      rw [Members.names] at names
      rw [names]
      exact dict.nodup_names_entries
    · rcases List.mem_map.1 here with ⟨entry, -, rfl⟩
      trivial
  self := by
    intro dict _
    rw [ofTexts, Shape.Keeps]
    exact ⟨trivial, fun _ _ => rfl⟩
  distinct := by
    rw [Shape.Distinct]
    exact ⟨List.nodup_nil, trivial⟩

end Codec

end Json
end ContainerBuild
