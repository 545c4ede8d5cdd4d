import ContainerBuild.Proofs.Json.Codec

namespace ContainerBuild
namespace Json

/-!
# Typed forms field by field

A structured type is read by asking an object for its fields, and written field by field, with
the members it does not know at the end.  `Field` is one such field with its laws, and
`Codec.record` makes the codec of the structure out of its fields.  What is left to say for each
structure is that it asks for these fields and writes them.
-/

/-! ## Answers that were found -/

namespace Answer

variable {α β : Type}

@[simp]
theorem map_found_iff {f : α → β} {answer : Answer α} {y : β} :
    f <$> answer = .found y ↔ ∃ x, answer = .found x ∧ f x = y := by
  cases answer <;> simp [Functor.map, map]

@[simp]
theorem seq_found_iff {f : Answer (α → β)} {answer : Answer α} {y : β} :
    f <*> answer = .found y ↔ ∃ g x, f = .found g ∧ answer = .found x ∧ g x = y := by
  change combine f answer = .found y ↔ _
  cases f <;> cases answer <;> simp [combine]
  split <;> simp

theorem settle_ok_iff {answer : Answer α} {x : α} :
    answer.settle = .ok x ↔ answer = .found x := by
  cases answer <;> simp [settle]

theorem ofRead_found_iff {place : Nat} {read : Except Fault α} {x : α} :
    ofRead place read = .found x ↔ read = .ok x := by
  cases read <;> simp [ofRead]

end Answer

@[simp]
theorem askObject_ok_iff {σ : Type} {ask : Members Json → Answer σ} {value : Json} {x : σ} :
    askObject ask value = .ok x ↔ ∃ members, value = .object members ∧ ask members = .found x := by
  cases value with
  | object members =>
      change (ask members).settle = .ok x ↔ _
      rw [Answer.settle_ok_iff]
      exact ⟨fun found => ⟨members, rfl, found⟩, fun ⟨_, same, found⟩ => by
        rwa [Json.object.inj same]⟩
  | _ =>
      refine ⟨fun read => (by cases read), ?_⟩
      rintro ⟨_, same, -⟩
      cases same

theorem locate_eq_lookup {α : Type} (name : String) (members : Members α) :
    (locate name members).map Prod.snd = members.lookup name := by
  induction members with
  | nil => rfl
  | cons head rest inductionHypothesis =>
      rcases head with ⟨other, value⟩
      rw [locate, List.lookup_cons]
      by_cases same : other = name
      · rw [if_pos same, same, beq_self_eq_true]
        rfl
      · rw [if_neg same, beq_false_of_ne (Ne.symm same), Option.map_map]
        exact inductionHypothesis

section Questions

variable {α : Type} {members : Members Json} {name : String} {read : Json → Except Fault α}

theorem required_found_iff {x : α} : members.required name read = .found x ↔
    ∃ value, members.lookup name = some value ∧ read value = .ok x := by
  rw [Members.required, ← locate_eq_lookup]
  cases locate name members with
  | none => simp
  | some located => simp [Answer.ofRead_found_iff]

theorem defaulted_found_iff {default x : α} :
    members.defaulted name read default = .found x ↔
      (members.lookup name = none ∧ default = x) ∨
        ∃ value, members.lookup name = some value ∧ read value = .ok x := by
  rw [Members.defaulted, ← locate_eq_lookup]
  cases locate name members with
  | none => simp
  | some located => simp [Answer.ofRead_found_iff]

theorem orNull_ok_iff {value : Json} {x? : Option α} : Members.orNull read value = .ok x? ↔
    (value = .null ∧ x? = none) ∨ (value ≠ .null ∧ ∃ x, read value = .ok x ∧ x? = some x) := by
  rw [Members.orNull]
  by_cases null : value = .null
  · simp [null, isNull, eq_comm]
  · have notNull : value.isNull = false := by cases value <;> first | rfl | exact absurd rfl null
    rw [notNull, if_neg (by decide)]
    cases read value <;> simp [null, Except.map, eq_comm]

end Questions

/-! ## Fields -/

/-- A field of a structure, how it is asked for and what is written for it. -/
structure Field (σ : Type) where
  name : String
  lenient : Bool
  shape : Shape
  /-- Asking members for the field gives what the structure has in it. -/
  Asked : Members Json → σ → Prop
  written : σ → Option Json
  Sound : σ → Prop
  asked_iff : ∀ {members : Members Json} {x : σ},
    (∀ value ∈ members.lookup name, value.WellFormed) →
    (Asked members x ↔
      Sound x ∧ Shape.FieldKept lenient shape.Keeps (members.lookup name) (written x))
  wellFormed : ∀ {x : σ}, Sound x → ∀ value ∈ written x, value.WellFormed
  self : ∀ {x : σ}, Sound x → Shape.FieldKept lenient shape.Keeps (written x) (written x)
  distinct : shape.Distinct

namespace Field

variable {σ α : Type}

/-- A field that has to be there. -/
@[simps -fullyApplied]
def required (name : String) (codec : Codec α) (get : σ → α) : Field σ where
  name := name
  lenient := false
  shape := codec.shape
  Asked := fun members x => members.required name codec.read = .found (get x)
  written := fun x => some (codec.write (get x))
  Sound := fun x => codec.Sound (get x)
  asked_iff := by
    intro members x wellFormed
    rw [required_found_iff]
    cases found : members.lookup name with
    | none => simp [Shape.FieldKept]
    | some value => simp [Shape.FieldKept, codec.read_iff (wellFormed value found)]
  wellFormed := by
    intro x sound value here
    rw [← Option.some.inj here]
    exact codec.wellFormed sound
  self := fun sound => ⟨codec.self sound, fun lenient => by cases lenient⟩
  distinct := codec.distinct

/-- A value that is kept for null is null. -/
theorem eq_null_of_keeps_null {shape : Shape} {value : Json} (keeps : shape.Keeps value .null) :
    value = .null := by
  cases shape with
  | any =>
      rw [Shape.Keeps] at keeps
      exact keeps
  | list item => cases value <;> simp [Shape.Keeps] at keeps
  | object fields => cases value <;> simp [Shape.Keeps] at keeps

/-- A field that may be missing or null. -/
@[simps -fullyApplied]
def optional (name : String) (codec : Codec α) (get : σ → Option α) : Field σ where
  name := name
  lenient := true
  shape := codec.shape
  Asked := fun members x => members.optionalField name codec.read = .found (get x)
  written := fun x => (get x).map codec.write
  Sound := fun x => ∀ y ∈ get x, codec.Sound y ∧ codec.write y ≠ .null
  asked_iff := by
    intro members x wellFormed
    rw [Members.optionalField, defaulted_found_iff]
    cases found : members.lookup name with
    | none => cases get x <;> simp [Shape.FieldKept]
    | some value =>
        cases get x with
        | none => simp [Shape.FieldKept, orNull_ok_iff]
        | some y =>
            have law : codec.read value = .ok y ↔ _ := codec.read_iff (wellFormed value found)
            simp only [reduceCtorEq, false_or, Option.some.injEq, exists_eq_left',
              orNull_ok_iff, and_false, Option.map_some, Option.mem_some_iff, forall_eq',
              Shape.FieldKept, exists_eq_right', forall_const, law]
            constructor
            · rintro ⟨notNull, sound, keeps⟩
              exact ⟨⟨sound, fun null => notNull (eq_null_of_keeps_null (null ▸ keeps))⟩,
                keeps, notNull⟩
            · rintro ⟨⟨sound, -⟩, keeps, notNull⟩
              exact ⟨notNull, sound, keeps⟩
  wellFormed := by
    intro x sound value here
    rcases Option.map_eq_some_iff.1 here with ⟨y, found, rfl⟩
    exact codec.wellFormed (sound y found).1
  self := by
    intro x sound
    cases found : get x with
    | none => trivial
    | some y => exact ⟨codec.self (sound y found).1, fun _ => (sound y found).2⟩
  distinct := codec.distinct

/-- A field whose absence and whose being null are told apart. -/
def nullable (name : String) (codec : Codec α) (plain : codec.shape = .any)
    (get : σ → Option (Option α)) : Field σ where
  name := name
  lenient := false
  shape := .any
  Asked := fun members x => members.nullableField name codec.read = .found (get x)
  written := fun x => (get x).map (ofOption codec.write)
  Sound := fun x => ∀ y? ∈ get x, ∀ y ∈ y?, codec.Sound y ∧ codec.write y ≠ .null
  asked_iff := by
    intro members x wellFormed
    rw [Members.nullableField, defaulted_found_iff]
    cases found : members.lookup name with
    | none => cases get x <;> simp [Shape.FieldKept]
    | some value =>
        have law {y : α} : codec.read value = .ok y ↔ codec.Sound y ∧ value = codec.write y := by
          rw [codec.read_iff (wellFormed value found), plain, Shape.Keeps]
        have map_ok {z : Option (Option α)} : (Members.orNull codec.read value).map some = .ok z ↔
            ∃ y?, Members.orNull codec.read value = .ok y? ∧ some y? = z := by
          generalize Members.orNull codec.read value = outcome
          cases outcome <;> simp [Except.map]
        cases get x with
        | none => simp [Shape.FieldKept, map_ok]
        | some y? =>
            simp only [reduceCtorEq, false_or, Option.some.injEq, exists_eq_left', and_false,
              map_ok, orNull_ok_iff, Option.map_some, Option.mem_some_iff, forall_eq',
              Shape.FieldKept, Shape.Keeps, law]
            cases y? with
            | none => simp [ofOption]
            | some y =>
                simp only [exists_eq_right, reduceCtorEq, and_false, false_or, Option.some.injEq,
                  exists_eq_right', Option.mem_some_iff, forall_eq']
                constructor
                · rintro ⟨notNull, sound, same⟩
                  exact ⟨⟨sound, same ▸ notNull⟩, same, False.elim⟩
                · rintro ⟨⟨sound, notNull⟩, same, -⟩
                  change value = codec.write y at same
                  exact ⟨same ▸ notNull, sound, same⟩
  wellFormed := by
    intro x sound value here
    rcases Option.map_eq_some_iff.1 here with ⟨y?, found, rfl⟩
    cases y? with
    | none => trivial
    | some y => exact codec.wellFormed (sound _ found y rfl).1
  self := by
    intro x sound
    refine Shape.fieldKept_self fun value _ => ?_
    rw [Shape.Keeps]
  distinct := Shape.distinct_any

end Field

/-! ## Structures -/

section Record

variable {σ : Type}

/-- Members that no field is named after, with well-formed values. -/
def IsRest (names : List String) (rest : Dict String Json) : Prop :=
  ∀ entry ∈ rest.entries, entry.1 ∉ names ∧ entry.2.WellFormed

theorem IsRest.get?_eq_none {names : List String} {rest : Dict String Json}
    (isRest : IsRest names rest) {name : String} (known : name ∈ names) :
    rest.get? name = none := by
  cases found : rest.get? name with
  | none => rfl
  | some value => exact absurd known (isRest (name, value) ((rest.mem_entries_iff _ _).2 found)).1

theorem unknownDict_found_iff {members : Members Json}
    (wellFormed : (Json.object members).WellFormed) {names : List String}
    {rest : Dict String Json} :
    members.unknownDict names = .found rest ↔
      IsRest names rest ∧ ∀ name ∉ names, members.lookup name = rest.get? name := by
  have unknownDistinct : (Members.names (members.unknown names)).Nodup :=
    List.Nodup.sublist (List.filter_sublist.map Prod.fst) wellFormed.1
  have answers (name : String) : (Dict.ofList (members.unknown names)).get? name =
      if name ∈ names then none else members.lookup name := by
    rw [Dict.get?_ofList unknownDistinct, Members.lookup_unknown]
  rw [Members.unknownDict, Answer.found.injEq]
  constructor
  · rintro rfl
    constructor
    · rintro ⟨name, value⟩ here
      have found := (Dict.mem_entries_iff _ name value).1 here
      rw [answers] at found
      split at found
      · cases found
      next unknown =>
        exact ⟨unknown, wellFormedMembers_iff.1 wellFormed.2 _
          (Members.mem_of_lookup_eq_some found)⟩
    · intro name unknown
      rw [answers, if_neg unknown]
  · rintro ⟨isRest, same⟩
    refine Dict.ext_get? fun name => ?_
    rw [answers]
    split
    next known => exact (isRest.get?_eq_none known).symm
    next unknown => exact same name unknown

/-- What is written for the fields of a structure and its rest. -/
def writeFields (fields : List (Field σ)) (rest : σ → Dict String Json) (x : σ) : Members Json :=
  fields.flatMap (fun field => Members.optional field.name (field.written x)) ++ (rest x).entries

theorem lookup_flatMap_optional_of_notMem {fields : List (Field σ)} {x : σ} {name : String}
    (unknown : name ∉ fields.map Field.name) :
    List.lookup name
      (fields.flatMap fun field => Members.optional field.name (field.written x)) = none := by
  induction fields with
  | nil => rfl
  | cons field others inductionHypothesis =>
      have parts := not_or.1 (mt List.mem_cons.2 unknown)
      rw [List.flatMap_cons, List.lookup_append, Members.lookup_optional, if_neg parts.1,
        inductionHypothesis parts.2]
      rfl

theorem lookup_flatMap_optional_of_mem {fields : List (Field σ)} {x : σ}
    (distinct : (fields.map Field.name).Nodup) {field : Field σ} (here : field ∈ fields) :
    List.lookup field.name
      (fields.flatMap fun field => Members.optional field.name (field.written x)) =
        field.written x := by
  induction fields with
  | nil => exact absurd here List.not_mem_nil
  | cons first others inductionHypothesis =>
      have parts := List.nodup_cons.1 distinct
      rw [List.flatMap_cons, List.lookup_append, Members.lookup_optional]
      rcases List.mem_cons.1 here with rfl | later
      · rw [if_pos rfl, lookup_flatMap_optional_of_notMem parts.1, Option.or_none]
      · have apart : field.name ≠ first.name :=
          fun same => parts.1 (same ▸ List.mem_map.2 ⟨field, later, rfl⟩)
        rw [if_neg apart, Option.none_or, inductionHypothesis parts.2 later]

variable {fields : List (Field σ)} {rest : σ → Dict String Json} {x : σ}

theorem lookup_writeFields_of_mem (distinct : (fields.map Field.name).Nodup)
    (isRest : IsRest (fields.map Field.name) (rest x)) {field : Field σ} (here : field ∈ fields) :
    (writeFields fields rest x).lookup field.name = field.written x := by
  rw [writeFields, List.lookup_append, lookup_flatMap_optional_of_mem distinct here,
    Dict.lookup_entries, isRest.get?_eq_none (List.mem_map.2 ⟨field, here, rfl⟩), Option.or_none]

theorem lookup_writeFields_of_notMem {name : String} (unknown : name ∉ fields.map Field.name) :
    (writeFields fields rest x).lookup name = (rest x).get? name := by
  rw [writeFields, List.lookup_append, lookup_flatMap_optional_of_notMem unknown,
    Dict.lookup_entries, Option.none_or]

theorem mem_flatMap_optional {member : String × Json}
    (here : member ∈ fields.flatMap fun field => Members.optional field.name (field.written x)) :
    ∃ field ∈ fields, member.1 = field.name ∧ field.written x = some member.2 := by
  rcases List.mem_flatMap.1 here with ⟨field, fieldHere, inField⟩
  refine ⟨field, fieldHere, ?_⟩
  rw [Members.optional] at inField
  rcases List.mem_map.1 inField with ⟨value, written, rfl⟩
  exact ⟨rfl, Option.mem_toList.1 written⟩

theorem nodup_names_flatMap_optional (distinct : (fields.map Field.name).Nodup) :
    (Members.names
      (fields.flatMap fun field => Members.optional field.name (field.written x))).Nodup := by
  induction fields with
  | nil => exact List.nodup_nil
  | cons field others inductionHypothesis =>
      have parts := List.nodup_cons.1 distinct
      have later := inductionHypothesis parts.2
      rw [List.flatMap_cons]
      cases field.written x with
      | none => exact later
      | some value =>
          refine List.nodup_cons.2 ⟨fun here => ?_, later⟩
          rcases List.mem_map.1 here with ⟨member, memberHere, same⟩
          rcases mem_flatMap_optional memberHere with ⟨other, otherHere, named, -⟩
          exact parts.1 (List.mem_map.2 ⟨other, otherHere, named ▸ same⟩)

theorem wellFormed_writeFields (distinct : (fields.map Field.name).Nodup)
    (sound : ∀ field ∈ fields, field.Sound x)
    (isRest : IsRest (fields.map Field.name) (rest x)) :
    (Json.object (writeFields fields rest x)).WellFormed := by
  constructor
  · rw [writeFields, List.map_append]
    refine List.nodup_append.2 ⟨nodup_names_flatMap_optional distinct,
      Dict.nodup_names_entries (rest x), fun name known other inRest same => ?_⟩
    rcases List.mem_map.1 known with ⟨member, memberHere, rfl⟩
    rcases List.mem_map.1 inRest with ⟨entry, entryHere, rfl⟩
    rcases mem_flatMap_optional memberHere with ⟨field, fieldHere, named, -⟩
    exact (isRest entry entryHere).1
      (List.mem_map.2 ⟨field, fieldHere, by rw [← named, same]⟩)
  · refine wellFormedMembers_iff.2 fun member here => ?_
    rcases List.mem_append.1 here with inField | inRest
    · rcases mem_flatMap_optional inField with ⟨field, fieldHere, -, written⟩
      exact field.wellFormed (sound field fieldHere) _ written
    · exact (isRest member inRest).2

/-- What the shape of the fields keeps of an object, field by field. -/
theorem keeps_writeFields_iff (distinct : (fields.map Field.name).Nodup)
    (isRest : IsRest (fields.map Field.name) (rest x)) {members : Members Json} :
    (Shape.object (fields.map fun field => (field.name, field.lenient, field.shape))).Keeps
        (.object members) (.object (writeFields fields rest x)) ↔
      (∀ field ∈ fields, Shape.FieldKept field.lenient field.shape.Keeps
        (members.lookup field.name) (field.written x)) ∧
        ∀ name ∉ fields.map Field.name, members.lookup name = (rest x).get? name := by
  rw [Shape.Keeps, Shape.keepsFields_iff, List.forall_mem_map, List.map_map]
  refine and_congr (forall₂_congr fun field here => ?_) (forall₂_congr fun name unknown => ?_)
  · rw [lookup_writeFields_of_mem distinct isRest here]
  · rw [lookup_writeFields_of_notMem unknown]

end Record

/-- The codec of a structure that is read and written field by field. -/
@[simps -fullyApplied]
def Codec.record {σ : Type} (fields : List (Field σ)) (rest : σ → Dict String Json)
    (Closed : σ → Prop) (read : Json → Except Fault σ) (write : σ → Json)
    (distinct : (fields.map Field.name).Nodup)
    (read_iff : ∀ value x, read value = .ok x ↔ ∃ members, value = .object members ∧
      (∀ field ∈ fields, field.Asked members x) ∧
        Members.unknownDict members (fields.map Field.name) = .found (rest x) ∧ Closed x)
    (write_eq : ∀ x, write x = .object (writeFields fields rest x)) : Codec σ where
  shape := .object (fields.map fun field => (field.name, field.lenient, field.shape))
  read := read
  write := write
  Sound := fun x => (∀ field ∈ fields, field.Sound x) ∧
    IsRest (fields.map Field.name) (rest x) ∧ Closed x
  read_iff := by
    intro value x wellFormed
    rw [read_iff, write_eq]
    cases value with
    | object members =>
        have asked : (∀ field ∈ fields, field.Asked members x) ↔
            (∀ field ∈ fields, field.Sound x) ∧
              ∀ field ∈ fields, Shape.FieldKept field.lenient field.shape.Keeps
                (members.lookup field.name) (field.written x) := by
          rw [← forall₂_and]
          refine forall₂_congr fun field here => field.asked_iff fun value found => ?_
          exact wellFormedMembers_iff.1 wellFormed.2 _ (Members.mem_of_lookup_eq_some found)
        simp only [Json.object.injEq, exists_eq_left', asked, unknownDict_found_iff wellFormed]
        constructor
        · rintro ⟨⟨sound, kept⟩, ⟨isRest, unknown⟩, closed⟩
          exact ⟨⟨sound, isRest, closed⟩, (keeps_writeFields_iff distinct isRest).2 ⟨kept, unknown⟩⟩
        · rintro ⟨⟨sound, isRest, closed⟩, keeps⟩
          rcases (keeps_writeFields_iff distinct isRest).1 keeps with ⟨kept, unknown⟩
          exact ⟨⟨sound, kept⟩, ⟨isRest, unknown⟩, closed⟩
    | _ => simp [Shape.Keeps]
  wellFormed := by
    intro x sound
    rw [write_eq]
    exact wellFormed_writeFields distinct sound.1 sound.2.1
  self := by
    intro x sound
    rw [write_eq, keeps_writeFields_iff distinct sound.2.1]
    constructor
    · intro field here
      rw [lookup_writeFields_of_mem distinct sound.2.1 here]
      exact field.self (sound.1 field here)
    · exact fun name unknown => lookup_writeFields_of_notMem unknown
  distinct := by
    rw [Shape.Distinct, List.map_map]
    refine ⟨distinct, Shape.distinctFields_iff.2 fun field here => ?_⟩
    rcases List.mem_map.1 here with ⟨source, -, rfl⟩
    exact source.distinct

end Json
end ContainerBuild
