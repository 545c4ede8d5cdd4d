import ContainerBuild.Proofs.Json.Fields

namespace ContainerBuild

/-!
# Objects that are asked alike

Two objects that have the same under the names asked for come to the same structure, wherever
the members stand and whatever else is there.  `Json.Answer.Related` says so of answers for any
relation of what is found, and asking for one more field keeps it (`Related.seq`).  Which of
several faults is reported does depend on where the members stand, so faults are left open.

`Json.Rearrangement` is a change of values that at most puts members in another order, and a
reader is `Steady` if it does not notice.
-/

/-- Both succeed and have related results, or both fail for like reasons. -/
inductive Except.Related {ε α β : Type} (relation : α → β → Prop) (alike : ε → ε → Prop) :
    Except ε α → Except ε β → Prop
  | ok {x : α} {y : β} (results : relation x y) : Related relation alike (.ok x) (.ok y)
  | error {first second : ε} (reasons : alike first second) :
      Related relation alike (.error first) (.error second)

namespace Except.Related

variable {ε α β γ δ : Type} {relation : α → β → Prop} {wider : γ → δ → Prop}
  {alike : ε → ε → Prop} {first : Except ε α} {second : Except ε β}

theorem bind {next : α → Except ε γ} {next' : β → Except ε δ}
    (related : Related relation alike first second)
    (each : ∀ x y, relation x y → Related wider alike (next x) (next' y)) :
    Related wider alike (first >>= next) (second >>= next') := by
  cases related with
  | ok results => exact each _ _ results
  | error reasons => exact .error reasons

theorem mono {other : α → β → Prop} (related : Related relation alike first second)
    (each : ∀ x y, relation x y → other x y) : Related other alike first second := by
  cases related with
  | ok results => exact .ok (each _ _ results)
  | error reasons => exact .error reasons

/-- Results that are related are those that were come to. -/
theorem obtained (related : Related relation alike first second) :
    Related (fun x y => first = .ok x ∧ relation x y) alike first second := by
  cases related with
  | ok results => exact .ok ⟨rfl, results⟩
  | error reasons => exact .error reasons

theorem map {change : α → γ} {change' : β → δ} (related : Related relation alike first second)
    (each : ∀ x y, relation x y → wider (change x) (change' y)) :
    Related wider alike (first.map change) (second.map change') := by
  cases related with
  | ok results => exact .ok (each _ _ results)
  | error reasons => exact .error reasons

theorem mapError {ζ : Type} {first : Except ε α} {second : Except ε β} {alike' : ζ → ζ → Prop}
    {change change' : ε → ζ} (related : Related relation alike first second)
    (each : ∀ reason other, alike reason other → alike' (change reason) (change' other)) :
    Related relation alike' (first.mapError change) (second.mapError change') := by
  cases related with
  | ok results => exact .ok results
  | error reasons => exact .error (each _ _ reasons)

/-- An outcome and what a change makes of it. -/
theorem of_map {outcome : Except ε α} (change : α → γ)
    (likeItself : ∀ reason, alike reason reason) :
    Related (fun x y => y = change x) alike outcome (outcome.map change) := by
  cases outcome with
  | ok x => exact .ok rfl
  | error reason => exact .error (likeItself reason)

/-- What succeeds with the same results succeeds with each of them. -/
theorem ok_iff {second : Except ε α} {relation : α → α → Prop}
    (related : Related relation alike first second) (same : ∀ x y, relation x y → y = x) (x : α) :
    second = .ok x ↔ first = .ok x := by
  cases related with
  | ok results => rw [same _ _ results]
  | error => exact ⟨fun done => (by cases done), fun done => (by cases done)⟩

end Except.Related

namespace Json

/-! ## Answers -/

/-- Each answer finds something just when the other does, and what they find is related. -/
structure Answer.Related {α β : Type} (relation : α → β → Prop) (first : Answer α)
    (second : Answer β) : Prop where
  forth : ∀ x, first = .found x → ∃ y, second = .found y ∧ relation x y
  back : ∀ y, second = .found y → ∃ x, first = .found x ∧ relation x y

namespace Answer.Related

variable {α β γ δ : Type} {relation : α → β → Prop} {wider : γ → δ → Prop}

theorem map {f : α → γ} {g : β → δ} {first : Answer α} {second : Answer β}
    (functions : ∀ x y, relation x y → wider (f x) (g y))
    (values : Related relation first second) : Related wider (f <$> first) (g <$> second) where
  forth := by
    intro z found
    rcases map_found_iff.1 found with ⟨x, foundX, rfl⟩
    rcases values.forth x foundX with ⟨y, foundY, related⟩
    exact ⟨g y, map_found_iff.2 ⟨y, foundY, rfl⟩, functions x y related⟩
  back := by
    intro z found
    rcases map_found_iff.1 found with ⟨y, foundY, rfl⟩
    rcases values.back y foundY with ⟨x, foundX, related⟩
    exact ⟨f x, map_found_iff.2 ⟨x, foundX, rfl⟩, functions x y related⟩

/-- Functions that are related give related values for related values. -/
theorem seq {first : Answer (α → γ)} {second : Answer (β → δ)} {value : Answer α}
    {value' : Answer β}
    (functions : Related (fun f g => ∀ x y, relation x y → wider (f x) (g y)) first second)
    (values : Related relation value value') :
    Related wider (first <*> value) (second <*> value') where
  forth := by
    intro z found
    rcases seq_found_iff.1 found with ⟨f, x, foundF, foundX, rfl⟩
    rcases functions.forth f foundF with ⟨g, foundG, alike⟩
    rcases values.forth x foundX with ⟨y, foundY, related⟩
    exact ⟨g y, seq_found_iff.2 ⟨g, y, foundG, foundY, rfl⟩, alike x y related⟩
  back := by
    intro z found
    rcases seq_found_iff.1 found with ⟨g, y, foundG, foundY, rfl⟩
    rcases functions.back g foundG with ⟨f, foundF, alike⟩
    rcases values.back y foundY with ⟨x, foundX, related⟩
    exact ⟨f x, seq_found_iff.2 ⟨f, x, foundF, foundX, rfl⟩, alike x y related⟩

theorem settle {first : Answer α} {second : Answer β} (related : Related relation first second) :
    Except.Related relation (fun _ _ => True) first.settle second.settle := by
  cases first with
  | found x =>
      rcases related.forth x rfl with ⟨y, rfl, results⟩
      exact .ok results
  | absent | faulty =>
      cases second with
      | found y =>
          rcases related.back y rfl with ⟨_, found, -⟩
          cases found
      | absent | faulty => exact .error trivial

end Answer.Related

/-! ## Rearranged values -/

/-- A change of values that at most puts the members of objects in another order, in the items of
an array one by one. -/
structure Rearrangement (change : Json → Json) : Prop where
  reorders : ∀ {value : Json}, value.WellFormed → Reorders value (change value)
  array : ∀ items, change (.array items) = .array (items.map change)

theorem rearrangement_id : Rearrangement id :=
  ⟨fun _ => .same _, fun items => by rw [List.map_id, id]⟩

theorem Reorders.isNull {value other : Json} (reorders : Reorders value other) :
    other.isNull = value.isNull := by
  cases reorders <;> rfl

/-- A reader that does not notice another order of members. -/
class Steady {α : Type} (read : Json → Except Fault α) : Prop where
  read_iff : ∀ {value other : Json}, value.WellFormed → Reorders value other →
    ∀ x, read other = .ok x ↔ read value = .ok x

section Steady

variable {α : Type} {read : Json → Except Fault α}

theorem steady_of_eq (same : ∀ {value other : Json}, Reorders value other →
    read other = read value) : Steady read :=
  ⟨fun _ reorders x => by rw [same reorders]⟩

instance steady_asString : Steady asString :=
  steady_of_eq fun reorders => by cases reorders <;> rfl

instance steady_asBool : Steady asBool :=
  steady_of_eq fun reorders => by cases reorders <;> rfl

instance steady_asUInt64 : Steady asUInt64 :=
  steady_of_eq fun reorders => by cases reorders <;> rfl

instance steady_asUInt32 : Steady asUInt32 :=
  steady_of_eq fun reorders => by cases reorders <;> rfl

instance steady_orNull [Steady read] : Steady (Members.orNull read) where
  read_iff := by
    intro value other wellFormed reorders x?
    have null : other = .null ↔ value = .null := by
      cases reorders <;> simp
    rw [orNull_ok_iff, orNull_ok_iff, ne_eq, ne_eq, null]
    simp only [Steady.read_iff wellFormed reorders]

theorem ReordersItems.forall₂_read_iff [Steady read] {items others : List Json}
    (each : ReordersItems items others) (wellFormed : WellFormedItems items) {xs : List α} :
    List.Forall₂ (fun value x => read value = .ok x) others xs ↔
      List.Forall₂ (fun value x => read value = .ok x) items xs := by
  induction items generalizing others xs with
  | nil =>
      cases each
      rfl
  | cons item rest inductionHypothesis =>
      cases each with
      | cons head tail =>
          rw [List.forall₂_cons_left_iff, List.forall₂_cons_left_iff]
          simp only [Steady.read_iff wellFormed.1 head, inductionHypothesis tail wellFormed.2]

instance steady_asList [Steady read] : Steady (asList read) where
  read_iff := by
    intro value other wellFormed reorders xs
    cases reorders with
    | same => rfl
    | object => exact Iff.rfl
    | @array items others each =>
        change others.mapM read = .ok xs ↔ items.mapM read = .ok xs
        rw [Codec.mapM_ok_iff, Codec.mapM_ok_iff, each.forall₂_read_iff wellFormed]

end Steady

/-! ## Rearranged members -/

theorem ReordersMembers.lookup {members others : Members Json}
    (each : ReordersMembers members others) (name : String) :
    Option.Rel Reorders (members.lookup name) (others.lookup name) := by
  induction members generalizing others with
  | nil =>
      cases each
      exact .none
  | cons member rest inductionHypothesis =>
      cases each with
      | cons other head tail =>
          rw [List.lookup_cons, List.lookup_cons]
          cases name == other with
          | true => exact .some head
          | false => exact inductionHypothesis tail

/-- A name finds what it found, with members in another order at most. -/
theorem lookup_reorders {members others : Members Json}
    (reorders : Reorders (.object members) (.object others))
    (distinct : members.names.Nodup) (name : String) :
    Option.Rel Reorders (members.lookup name) (others.lookup name) := by
  cases reorders with
  | same =>
      cases members.lookup name with
      | none => exact .none
      | some value => exact .some (.same value)
  | object each shuffle =>
      rw [Members.names, ← each.names] at distinct
      rw [← Members.lookup_perm distinct shuffle]
      exact each.lookup name

theorem eq_map_string_iff {value? other? : Option Json}
    (reorders : Option.Rel Reorders value? other?) {text? : Option String} :
    other? = text?.map Json.string ↔ value? = text?.map Json.string := by
  cases reorders with
  | none => rfl
  | some reorders =>
      cases text? with
      | none => simp
      | some text => cases reorders <;> simp

/-- Members that are strings make the dictionary that answers as they do. -/
theorem asDict_ok_iff {members : Members Json} (wellFormed : (Json.object members).WellFormed)
    {dict : Dict String String} : asDict asString (.object members) = .ok dict ↔
      ∀ name, members.lookup name = (dict.get? name).map Json.string := by
  have law : Codec.texts.read (.object members) = .ok dict ↔ _ := Codec.texts.read_iff wellFormed
  rw [Codec.texts_read] at law
  rw [law, Codec.texts_write, Codec.texts_shape, ofTexts, Shape.Keeps, Shape.KeepsFields]
  simp only [Codec.texts_Sound, true_and, List.map_nil, List.not_mem_nil, not_false_eq_true,
    forall_const, Members.lookup_map Json.string, Dict.lookup_entries]

instance steady_asDict : Steady (asDict asString) where
  read_iff := by
    intro value other wellFormed reorders dict
    have reordered := wellFormed_of_reorders reorders wellFormed
    cases value with
    | object members =>
        cases other with
        | object others =>
            rw [asDict_ok_iff wellFormed, asDict_ok_iff reordered]
            exact forall_congr' fun name =>
              eq_map_string_iff (lookup_reorders reorders wellFormed.1 name)
        | _ => cases reorders
    | _ => cases reorders <;> rfl

/-! ## Corresponding members -/

/-- Under some names, other members have what members have, rearranged. -/
structure Corresponds (change : Json → Json) (names : List String)
    (members others : Members Json) : Prop where
  rearrangement : Rearrangement change
  wellFormed : WellFormedMembers members
  lookup : ∀ name ∈ names, others.lookup name = (members.lookup name).map change

namespace Corresponds

variable {change : Json → Json} {names : List String} {members others : Members Json}
  {name : String}

theorem mono (corresponds : Corresponds change names members others) {fewer : List String}
    (subset : fewer ⊆ names) : Corresponds change fewer members others :=
  ⟨corresponds.rearrangement, corresponds.wellFormed,
    fun name here => corresponds.lookup name (subset here)⟩

theorem wellFormed_of_found (corresponds : Corresponds change names members others) {value : Json}
    (found : members.lookup name = some value) : value.WellFormed :=
  wellFormedMembers_iff.1 corresponds.wellFormed _ (Members.mem_of_lookup_eq_some found)

/-- Taking a member out of both leaves members that correspond. -/
theorem takeOut (corresponds : Corresponds change names members others)
    (distinct : members.names.Nodup) (othersDistinct : others.names.Nodup) (name : String) :
    Corresponds change names (Members.takeOut name members) (Members.takeOut name others) where
  rearrangement := corresponds.rearrangement
  wellFormed := wellFormedMembers_iff.2 fun member here =>
    wellFormedMembers_iff.1 corresponds.wellFormed member
      (List.mem_of_mem_filter ((Members.takeOut_perm distinct).mem_iff.1 here))
  lookup := by
    intro other known
    rw [Members.lookup_takeOut othersDistinct, Members.lookup_takeOut distinct,
      corresponds.lookup other known, apply_ite (Option.map change), Option.map_none]

/-- A field that is read by a steady reader. -/
theorem steady (corresponds : Corresponds change names members others) (known : name ∈ names)
    {α : Type} {read : Json → Except Fault α} [Steady read] (default : α) :
    Answer.Related Eq (members.defaulted name read default)
      (others.defaulted name read default) := by
  have found_iff (x : α) : others.defaulted name read default = .found x ↔
      members.defaulted name read default = .found x := by
    rw [defaulted_found_iff, defaulted_found_iff, corresponds.lookup name known]
    cases found : members.lookup name with
    | none => simp
    | some value =>
        have wellFormed := corresponds.wellFormed_of_found found
        simp [Steady.read_iff wellFormed (corresponds.rearrangement.reorders wellFormed)]
  exact ⟨fun x found => ⟨x, (found_iff x).2 found, rfl⟩,
    fun x found => ⟨x, (found_iff x).1 found, rfl⟩⟩

/-- A field that takes generic values as they are. -/
theorem generic (corresponds : Corresponds change names members others) (known : name ∈ names)
    {α : Type} {read : Json → Except Fault α} {convert : α → α}
    (law : ∀ {value : Json}, value.WellFormed →
      read (change value) = (read value).map convert) :
    Answer.Related (fun x y => y = x.map convert) (members.optionalField name read)
      (others.optionalField name read) := by
  have found_iff (y : Option α) : others.optionalField name read = .found y ↔
      ∃ x, members.optionalField name read = .found x ∧ y = x.map convert := by
    rw [Members.optionalField, Members.optionalField]
    simp only [defaulted_found_iff, corresponds.lookup name known]
    cases found : members.lookup name with
    | none => simp [eq_comm]
    | some value =>
        have wellFormed := corresponds.wellFormed_of_found found
        have null := (corresponds.rearrangement.reorders wellFormed).isNull
        simp only [Members.orNull, Option.map_some, Option.some.injEq, exists_eq_left', null,
          law wellFormed, reduceCtorEq, false_and, false_or]
        cases value.isNull <;> cases read value <;> simp [Except.map, eq_comm]
  exact ⟨fun x found => ⟨_, (found_iff _).2 ⟨x, found, rfl⟩, rfl⟩,
    fun y found => (found_iff y).1 found⟩

end Corresponds

theorem Rearrangement.asArray {change : Json → Json} (rearrangement : Rearrangement change)
    {value : Json} (wellFormed : value.WellFormed) :
    (change value).asArray = value.asArray.map (List.map change) := by
  have reorders := rearrangement.reorders wellFormed
  cases value with
  | array items =>
      rw [rearrangement.array]
      rfl
  | _ =>
      revert reorders
      generalize change _ = other
      rintro ⟨⟩ <;> rfl

end Json
end ContainerBuild
