import ContainerBuild.Plugin.Template
import ContainerBuild.Proofs.Json.Repeats
import ContainerBuild.Proofs.Json.Spelling
import ContainerBuild.Proofs.Outcomes

namespace ContainerBuild

/-!
# Templates say what their texts say

Loading a template and writing it again restates its text: the value of the new text is that of
the old one, but that arguments of null are left out and that an entry begins with its name and its
arguments.  This is seen reader by reader: whatever a reader finds is written as the restated value
of the tree that it read (`Json.Tree.Restates`).
-/

namespace Json

/-- An array with its items changed. -/
def mapItems (change : Json → Json) : Json → Json
  | .array items => .array (items.map change)
  | value => value

/-- An object with the values of its members changed. -/
def mapValues (change : Json → Json) : Json → Json
  | .object members => .object (members.map fun member => (member.1, change member.2))
  | value => value

theorem mapValues_id (value : Json) : mapValues id value = value := by
  cases value with
  | object members => exact congrArg Json.object (List.map_id' members)
  | _ => rfl

/-! ## Changes that keep values apart from the order of members -/

theorem reordersMembers_self (members : Members Json) : ReordersMembers members members := by
  induction members with
  | nil => exact .nil
  | cons member rest inductionHypothesis =>
      exact .cons member.1 (.same member.2) inductionHypothesis

section Changes

variable {first second : Json → Json} (each : ∀ value, Reorders (first value) (second value))

include each

theorem reorders_mapItems (value : Json) :
    Reorders (mapItems first value) (mapItems second value) := by
  cases value with
  | array items =>
      refine .array ?_
      induction items with
      | nil => exact .nil
      | cons item rest inductionHypothesis => exact .cons (each item) inductionHypothesis
  | _ => exact .same _

theorem reorders_mapValues (value : Json) :
    Reorders (mapValues first value) (mapValues second value) := by
  cases value with
  | object members =>
      refine .object ?_ (.refl _)
      induction members with
      | nil => exact .nil
      | cons member rest inductionHypothesis =>
          exact .cons member.1 (each member.2) inductionHypothesis
  | _ => exact .same _

end Changes

section Within

variable {change : Json → Json} {levels : Nat}

theorem within_mapItems
    (keeps : ∀ {levels value}, value.Within levels → (change value).Within levels)
    {value : Json} (within : value.Within levels) : (mapItems change value).Within levels := by
  cases value with
  | array items =>
      cases levels with
      | zero => exact absurd within.2 (Nat.not_succ_le_zero _)
      | succ levels =>
          refine within_array fun changed here => ?_
          rcases List.mem_map.1 here with ⟨item, inside, rfl⟩
          exact keeps (within.item item inside)
  | _ => exact within

theorem within_mapValues
    (keeps : ∀ {levels value}, value.Within levels → (change value).Within levels)
    {value : Json} (within : value.Within levels) : (mapValues change value).Within levels := by
  cases value with
  | object members =>
      cases levels with
      | zero => exact absurd within.2 (Nat.not_succ_le_zero _)
      | succ levels =>
          have names : (members.map fun member => (member.1, change member.2)).map Prod.fst =
              members.map Prod.fst := List.map_map
          refine within_object (names ▸ within.1.1) fun changed here => ?_
          rcases List.mem_map.1 here with ⟨member, inside, rfl⟩
          exact keeps (within.member member inside)
  | _ => exact within

theorem within_filter {kept : String × Json → Bool} {members : Members Json}
    (within : (Json.object members).Within levels) :
    (Json.object (members.filter kept)).Within levels := by
  cases levels with
  | zero => exact absurd within.2 (Nat.not_succ_le_zero _)
  | succ levels =>
      refine within_object (within.1.1.sublist (List.filter_sublist.map Prod.fst))
        fun member here => ?_
      exact within.member member (List.mem_of_mem_filter here)

end Within

section Durable

variable {change : Json → Json}

theorem durable_mapItems (keeps : ∀ {value}, value.Durable → (change value).Durable)
    {value : Json} (durable : value.Durable) : (mapItems change value).Durable := by
  cases value with
  | array items =>
      refine durable_array_iff.2 fun changed here => ?_
      rcases List.mem_map.1 here with ⟨item, inside, rfl⟩
      exact keeps (durable_array_iff.1 durable item inside)
  | _ => exact durable

theorem durable_mapValues (keeps : ∀ {value}, value.Durable → (change value).Durable)
    {value : Json} (durable : value.Durable) : (mapValues change value).Durable := by
  cases value with
  | object members =>
      refine durable_object_iff.2 fun changed here => ?_
      rcases List.mem_map.1 here with ⟨member, inside, rfl⟩
      exact keeps (durable_object_iff.1 durable member inside)
  | _ => exact durable

theorem durable_filter {kept : String × Json → Bool} {members : Members Json}
    (durable : (Json.object members).Durable) : (Json.object (members.filter kept)).Durable :=
  durable_object_iff.2 fun member here =>
    durable_object_iff.1 durable member (List.mem_of_mem_filter here)

end Durable

/-! ## Readers that restate -/

namespace Tree

/-- What a reader finds in a tree is written as the value of the tree with a change. -/
def Restates {α : Type} (levels : Nat) (read : Tree → Except Fault α) (write : α → Json)
    (change : Json → Json) : Prop :=
  ∀ tree x, read tree = .ok x → ∃ value, tree.value? levels = some value ∧ write x = change value

section Restates

variable {α : Type} {levels : Nat} {read : Tree → Except Fault α} {write : α → Json}
  {change : Json → Json}

theorem restates_generic (levels : Nat) : Restates levels (generic levels) id id :=
  fun _ value done => ⟨value, generic_ok_iff.1 done, rfl⟩

theorem Restates.list (restates : Restates levels read write change) :
    Restates (levels + 1) (Tree.list read) (fun xs => .array (xs.map write)) (mapItems change) := by
  intro tree xs done
  rcases list_ok_iff.1 done with ⟨items, rfl, each⟩
  have values : ∃ values, List.Forall₂ (fun item value => item.value? levels = some value) items
      values ∧ xs.map write = values.map change := by
    clear done
    induction each with
    | nil => exact ⟨[], .nil, rfl⟩
    | cons head tail inductionHypothesis =>
        rcases restates _ _ head with ⟨value, headValue, headWritten⟩
        rcases inductionHypothesis with ⟨values, tailValues, tailWritten⟩
        refine ⟨value :: values, .cons headValue tailValues, ?_⟩
        rw [List.map_cons, List.map_cons, headWritten, tailWritten]
  rcases values with ⟨values, each, written⟩
  exact ⟨.array values, value?_array_iff.2 ⟨values, rfl, each⟩, congrArg Json.array written⟩

theorem Restates.pairs (restates : Restates levels read write change) :
    Restates (levels + 1) (fun tree => (tree.pairs read).map Members.ofPairs)
      (fun members => .object (members.map fun member => (member.1, write member.2)))
      (mapValues change) := by
  intro tree members done
  rcases map_ok_iff.1 done with ⟨pairs, outcome, rfl⟩
  rcases pairs_ok_iff.1 outcome with ⟨named, rfl, each⟩
  have values : ∃ values, List.Forall₂
      (MemberReads fun tree value => tree.value? levels = some value) named values ∧
        (pairs.map fun member => (member.1, write member.2)) =
          values.map fun member => (member.1, change member.2) := by
    clear done outcome
    induction each with
    | nil => exact ⟨[], .nil, rfl⟩
    | @cons member pair _ _ head tail inductionHypothesis =>
        rcases restates _ _ head.2 with ⟨value, headValue, headWritten⟩
        rcases inductionHypothesis with ⟨values, tailValues, tailWritten⟩
        refine ⟨(member.1, value) :: values, .cons ⟨rfl, headValue⟩ tailValues, ?_⟩
        rw [List.map_cons, List.map_cons, headWritten, tailWritten, head.1]
  rcases values with ⟨values, each, written⟩
  refine ⟨.object (Members.ofPairs values), value?_object_iff.2 ⟨values, rfl, each⟩,
    congrArg Json.object ?_⟩
  calc (Members.ofPairs pairs).map (fun member => (member.1, write member.2))
      = Members.ofPairs (pairs.map fun member => (member.1, write member.2)) :=
        Members.map_ofPairs write pairs
    _ = Members.ofPairs (values.map fun member => (member.1, change member.2)) :=
        congrArg Members.ofPairs written
    _ = (Members.ofPairs values).map fun member => (member.1, change member.2) :=
        (Members.map_ofPairs change values).symm

end Restates

end Tree
end Json

/-! ## Entries -/

namespace Plugin

open Json (Answer Tree MemberReads)
open Json.Tree (underNames)

/-- An entry without arguments that are null. -/
def withoutNullArgs : Json → Json
  | .object members => .object (members.filter (· != ("args", .null)))
  | value => value

/-- An entry with its name first and its arguments next. -/
def fieldsFirst : Json → Json
  | .object members => .object (members.filter (·.1 == "name") ++ members.filter (·.1 == "args") ++
      Members.unknown members fieldNames)
  | value => value

theorem within_withoutNullArgs {levels : Nat} {value : Json} (within : value.Within levels) :
    (withoutNullArgs value).Within levels := by
  cases value with
  | object members => exact Json.within_filter within
  | _ => exact within

theorem durable_withoutNullArgs {value : Json} (durable : value.Durable) :
    (withoutNullArgs value).Durable := by
  cases value with
  | object members => exact Json.durable_filter durable
  | _ => exact durable

theorem reorders_fieldsFirst (value : Json) : Json.Reorders value (fieldsFirst value) := by
  cases value with
  | object members =>
      refine .object (Json.reordersMembers_self members) (List.Perm.symm ?_)
      -- The fields are told from the rest first, and the name from the arguments next.
      have known := List.filter_append_perm (fun member => fieldNames.contains member.1) members
      have fields := List.filter_append_perm (fun member => member.1 == "name")
        (members.filter fun member => fieldNames.contains member.1)
      have name : (members.filter fun member => fieldNames.contains member.1).filter
          (fun member => member.1 == "name") = members.filter (·.1 == "name") := by
        rw [List.filter_filter]
        refine List.filter_congr fun member _ => ?_
        by_cases same : member.1 = "name" <;> simp [same, fieldNames]
      have args : (members.filter fun member => fieldNames.contains member.1).filter
          (fun member => !(member.1 == "name")) = members.filter (·.1 == "args") := by
        rw [List.filter_filter]
        refine List.filter_congr fun member _ => ?_
        by_cases same : member.1 = "args"
        · simp [same, fieldNames]
        · by_cases named : member.1 = "name" <;> simp [same, named, fieldNames]
      rw [name, args] at fields
      exact (fields.append_right _).trans known
  | _ => exact .same _

/-- The members of an entry that are read as a plugin. -/
structure ReadsAs (named : Members Tree) (plugin : Plugin) : Prop where
  name : named.filter (·.1 == "name") = [("name", .string (some plugin.name))]
  args : (named.filter (·.1 == "args") = [] ∧ plugin.args = none) ∨
    ∃ args, named.filter (·.1 == "args") = [("args", args)] ∧
      Tree.orNull readArgs args = .ok plugin.args
  others : ∃ others, List.Forall₂ (MemberReads fun tree value => tree.value? levels = some value)
      (named.filter fun member => !fieldNames.contains member.1) others ∧
    plugin.extra = Members.ofPairs others

/-- An entry is accepted if its name and its arguments stand there once, and all of it means
something. -/
theorem ofTree_ok_iff {tree : Tree} {plugin : Plugin} : ofTree tree = .ok plugin ↔
    ∃ named, tree = .object (underNames named) true ∧ ReadsAs named plugin := by
  rw [ofTree, Tree.askObject_ok_iff]
  simp only [Tree.Fields.required, Tree.Fields.optional, Tree.Fields.defaulted,
    Answer.seq_found_iff, Answer.map_found_iff, Tree.Fields.others_found_iff,
    Tree.generic_ok_iff]
  constructor
  · rintro ⟨_, _, rfl, _, _, ⟨_, _, ⟨_, name, rfl⟩, args, rfl⟩,
      ⟨others, ⟨rfl, named, rfl, each⟩, rfl⟩, rfl⟩
    refine ⟨named, rfl, ?_, ?_, others, each, rfl⟩
    · rcases Tree.Fields.once_found_iff.1 name with ⟨-, absent⟩ | ⟨tree, here, read⟩
      · cases absent
      · rw [here, Tree.scalar_asString_iff.1 read]
    · rcases Tree.Fields.once_found_iff.1 args with ⟨none, absent⟩ | ⟨tree, here, read⟩
      · exact .inl ⟨none, (Answer.found.inj absent).symm⟩
      · exact .inr ⟨tree, here, read⟩
  · rintro ⟨named, rfl, name, args, others, each, same⟩
    have nameFound : (⟨underNames named, true⟩ : Tree.Fields).once "name"
        (Tree.scalar Json.asString) (.absent "name") = .found plugin.name :=
      Tree.Fields.once_found_iff.2 (.inr ⟨_, name, Tree.scalar_asString_iff.2 rfl⟩)
    have argsFound : (⟨underNames named, true⟩ : Tree.Fields).once "args"
        (Tree.orNull readArgs) (.found none) = .found plugin.args :=
      Tree.Fields.once_found_iff.2 (args.imp_left fun none => ⟨none.1, by rw [none.2]⟩)
    refine ⟨_, _, rfl, _, _, ⟨_, _, ⟨_, nameFound, rfl⟩, argsFound, rfl⟩,
      ⟨others, ⟨rfl, named, rfl, each⟩, rfl⟩, ?_⟩
    rw [← same]

/-! ### Restating an entry -/

/-- The members of an entry that is restated: the name, the arguments unless they are null, and the
members of other names in order. -/
theorem fieldsFirst_withoutNullArgs (members : Members Json) :
    fieldsFirst (withoutNullArgs (.object members)) =
      .object (members.filter (·.1 == "name") ++
        (members.filter (·.1 == "args")).filter (· != ("args", .null)) ++
          Members.unknown members fieldNames) := by
  have apart {member : String × Json} (other : member.1 ≠ "args") :
      member ≠ ("args", .null) := fun same => other (congrArg Prod.fst same)
  have name : (members.filter (· != ("args", .null))).filter (·.1 == "name") =
      members.filter (·.1 == "name") := by
    rw [List.filter_filter]
    refine List.filter_congr fun member _ => ?_
    by_cases same : member.1 = "name"
    · have different := apart (same ▸ by decide : member.1 ≠ "args")
      simp [same, different]
    · simp [same]
  have args : (members.filter (· != ("args", .null))).filter (·.1 == "args") =
      (members.filter (·.1 == "args")).filter (· != ("args", .null)) := by
    rw [List.filter_filter, List.filter_filter]
    exact List.filter_congr fun member _ => Bool.and_comm _ _
  have others : Members.unknown (members.filter (· != ("args", .null))) fieldNames =
      Members.unknown members fieldNames := by
    rw [Members.unknown, Members.unknown, List.filter_filter]
    refine List.filter_congr fun member _ => ?_
    by_cases same : member.1 = "args"
    · simp [same, fieldNames]
    · simp [apart same]
  rw [withoutNullArgs, fieldsFirst, name, args, others]

theorem restates_readArgs : Tree.Restates levels readArgs .object id := by
  intro tree args done
  rcases (Json.Tree.restates_generic (levels - 1)).pairs tree args done with
    ⟨value, read, written⟩
  have same : Json.object args = value := by
    rw [Json.mapValues_id] at written
    exact (congrArg Json.object (List.map_id' args)).symm.trans written
  exact ⟨value, read, same⟩

/-- Arguments have a value, which is written unless it is null. -/
theorem exists_value_of_args {tree : Tree} {args : Option (Members Json)}
    (done : Tree.orNull readArgs tree = .ok args) :
    ∃ value, tree.value? levels = some value ∧
      [("args", value)].filter (· != ("args", .null)) =
        Members.optional "args" (args.map .object) := by
  rcases Tree.orNull_ok_iff.1 done with ⟨rfl, rfl⟩ | ⟨-, members, read, rfl⟩
  · exact ⟨.null, rfl, rfl⟩
  · rcases restates_readArgs _ _ read with ⟨value, found, rfl⟩
    exact ⟨.object members, found, rfl⟩

/-- Every member of an entry has a value. -/
theorem ReadsAs.exists_value {named : Members Tree} {plugin : Plugin}
    (reads : ReadsAs named plugin) {member : String × Tree} (here : member ∈ named) :
    ∃ value, member.2.value? levels = some value := by
  by_cases isName : member.1 = "name"
  · have among : member ∈ named.filter (·.1 == "name") :=
      List.mem_filter.2 ⟨here, beq_iff_eq.2 isName⟩
    rw [reads.name, List.mem_singleton] at among
    rw [among]
    exact ⟨.string plugin.name, rfl⟩
  · by_cases isArgs : member.1 = "args"
    · have among : member ∈ named.filter (·.1 == "args") :=
        List.mem_filter.2 ⟨here, beq_iff_eq.2 isArgs⟩
      rcases reads.args with ⟨none, -⟩ | ⟨args, only, read⟩
      · rw [none] at among
        cases among
      · rcases exists_value_of_args read with ⟨value, found, -⟩
        rw [only, List.mem_singleton] at among
        rw [among]
        exact ⟨value, found⟩
    · rcases reads.others with ⟨others, each, -⟩
      have among : member ∈ named.filter fun member => !fieldNames.contains member.1 :=
        List.mem_filter.2 ⟨here, by simp [fieldNames, isName, isArgs]⟩
      rcases Json.exists_of_forall₂ each among with ⟨other, -, found⟩
      exact ⟨other.2, found⟩

/-- An entry is written as it was, without arguments of null and its fields first. -/
theorem restates_ofTree :
    Tree.Restates (levels + 1) ofTree toJson fun value => fieldsFirst (withoutNullArgs value) := by
  intro tree plugin done
  rcases ofTree_ok_iff.1 done with ⟨named, rfl, reads⟩
  have values : ∃ pairs, List.Forall₂
      (MemberReads fun tree value => tree.value? levels = some value) named pairs :=
    Json.exists_reads fun _ => reads.exists_value
  rcases values with ⟨pairs, each⟩
  refine ⟨.object (Members.ofPairs pairs), Tree.value?_object_iff.2 ⟨pairs, rfl, each⟩, ?_⟩
  have unique (tree : Tree) (value other : Json) (first : tree.value? levels = some value)
      (second : tree.value? levels = some other) : value = other :=
    Option.some.inj (first.symm.trans second)
  have name : pairs.filter (·.1 == "name") = [("name", .string plugin.name)] := by
    have chosen := Json.reads_filter (· == "name") each
    rw [reads.name] at chosen
    exact Json.reads_singleton (fun other => unique _ _ other rfl) chosen
  have args : (Members.ofPairs (pairs.filter (·.1 == "args"))).filter (· != ("args", .null)) =
      Members.optional "args" (plugin.args.map .object) := by
    have chosen := Json.reads_filter (· == "args") each
    rcases reads.args with ⟨none, gone⟩ | ⟨args, only, read⟩
    · rw [none] at chosen
      rw [List.forall₂_nil_left_iff.1 chosen, gone]
      rfl
    · rcases exists_value_of_args read with ⟨value, found, written⟩
      rw [only] at chosen
      rw [Json.reads_singleton (fun other => unique _ _ other found) chosen]
      exact written
  have others : Members.ofPairs (pairs.filter fun member => !fieldNames.contains member.1) =
      plugin.extra := by
    rcases reads.others with ⟨others, eachOther, extra⟩
    rw [extra, Json.reads_unique unique
      (Json.reads_filter (fun name => !fieldNames.contains name) each) eachOther]
  change plugin.toJson = fieldsFirst (withoutNullArgs (.object (Members.ofPairs pairs)))
  rw [fieldsFirst_withoutNullArgs, Members.unknown, Members.filter_ofPairs (· == "name"), name,
    Members.filter_ofPairs (· == "args"), args,
    Members.filter_ofPairs (fun name => !fieldNames.contains name), others]
  rfl

end Plugin

/-! ## Templates -/

namespace Template

open Json (Tree)

/-- The value of a template without arguments that are null. -/
def withoutNullArgs : Json → Json := Json.mapValues (Json.mapItems Plugin.withoutNullArgs)

/-- The value of a template as it is written again: without arguments that are null, and the
fields of every entry first. -/
def restated : Json → Json :=
  Json.mapValues (Json.mapItems fun entry => Plugin.fieldsFirst (Plugin.withoutNullArgs entry))

theorem reorders_restated (value : Json) :
    Json.Reorders (withoutNullArgs value) (restated value) :=
  Json.reorders_mapValues (Json.reorders_mapItems fun _ => Plugin.reorders_fieldsFirst _) value

theorem within_restated {levels : Nat} {value : Json} (within : value.Within levels) :
    (restated value).Within levels := by
  have kept : (withoutNullArgs value).Within levels :=
    Json.within_mapValues (Json.within_mapItems Plugin.within_withoutNullArgs) within
  exact ⟨Json.wellFormed_of_reorders (reorders_restated value) kept.1,
    Json.depth_of_reorders (reorders_restated value) ▸ kept.2⟩

theorem durable_restated {value : Json} (durable : value.Durable) : (restated value).Durable :=
  (Json.durable_iff_of_reorders (reorders_restated value)).1
    (Json.durable_mapValues (Json.durable_mapItems Plugin.durable_withoutNullArgs) durable)

theorem restates_readPhases : Tree.Restates Tree.levelLimit
    (fun tree => (readPhases tree).map Phases.ofPairs)
    (fun phases => toJson ⟨phases, .empty⟩) restated := by
  intro tree phases done
  rcases Json.map_ok_iff.1 done with ⟨pairs, read, rfl⟩
  exact Plugin.restates_ofTree.list.pairs tree _ (Json.map_ok_iff.2 ⟨pairs, read, rfl⟩)

theorem parse_ok_iff {text : String} {template : Template} : parse text = .ok template ↔
    ∃ pairs, parsePhases text = .ok pairs ∧ template = ⟨.ofPairs pairs, .empty⟩ :=
  Json.map_ok_iff

theorem toJson_of_parse {text : String} {template : Template}
    (accepted : parse text = .ok template) :
    ∃ value, Json.parse text = .ok value ∧ template.toJson = restated value := by
  rcases parse_ok_iff.1 accepted with ⟨pairs, parsed, rfl⟩
  rcases Json.Document.read_ok_iff.1 parsed with ⟨read, ends⟩
  rcases restates_readPhases _ _ (Json.map_ok_iff.2 ⟨pairs, read, rfl⟩) with
    ⟨value, found, written⟩
  exact ⟨value, Json.parse_ok_iff.2 ⟨found, ends⟩, written⟩

/-- A template that is loaded and written again has the value of its text, in which every name
that is repeated has its first place and its last value, but for arguments that are null; and of
every entry the fields come first.  That value is read back if its numbers last. -/
theorem text_restates {text : String} {template : Template}
    (accepted : parse text = .ok template) :
    ∃ said value, (Json.Document.ofText text).root.said? = some said ∧
      value = said.resolved ∧ Json.parse text = .ok value ∧
        template.text = (restated value).spaced ∧
          Json.Reorders (withoutNullArgs value) (restated value) ∧
            (value.Durable → Json.parse template.text = .ok (restated value)) := by
  rcases toJson_of_parse accepted with ⟨value, parsed, written⟩
  rcases Json.said_of_parse parsed with ⟨said, isSaid, resolved⟩
  have within := within_restated (Json.within_of_parse parsed)
  have text : template.text = (restated value).spaced := congrArg Json.spaced written
  refine ⟨said, value, isSaid, resolved, parsed, text, reorders_restated value,
    fun durable => ?_⟩
  rw [text]
  exact Json.parse_of_spells
    (Json.spells_write Json.legible_spaced within.1 (durable_restated durable)) within.1 within.2

/-- A text that repeats a phase, an argument and an unknown member, and has arguments of null. -/
def repeatingText : String :=
  "\x7b\"exit_plugins\": [], \"prebuild_plugins\": [\x7b\"name\": \"gone\"\x7d], " ++
    "\"exit_plugins\": [\x7b\"required\": 1, \"args\": null, \"name\": \"koji\", " ++
      "\"required\": null\x7d, \x7b\"args\": \x7b\"b\": [1], \"a\": null, " ++
        "\"b\": \x7b\"args\": null\x7d\x7d, \"name\": \"koji\"\x7d], " ++
          "\"prebuild_plugins\": []\x7d"

/-- The template of that text. -/
def repeating : Template where
  listed := .ofPairs
    [("exit_plugins", [⟨"koji", none, [("required", .null)]⟩,
        ⟨"koji", some [("b", .object [("args", .null)]), ("a", .null)], []⟩]),
      ("prebuild_plugins", [])]
  customization := .empty

theorem text_restates_repeating :
    parse repeatingText = .ok repeating ∧
      ∃ said value, (Json.Document.ofText repeatingText).root.said? = some said ∧
        value = said.resolved ∧ Json.parse repeatingText = .ok value ∧
          repeating.text = (restated value).spaced ∧
            Json.Reorders (withoutNullArgs value) (restated value) ∧ value.Durable ∧
              Json.parse repeating.text = .ok (restated value) := by
  have accepted : parse repeatingText = .ok repeating := by decide +kernel
  have evaluated : (Json.parse repeatingText).toOption.all (·.Durable) = true := by decide +kernel
  rcases text_restates accepted with ⟨said, value, isSaid, resolved, parsed, text, reorders, read⟩
  rw [parsed] at evaluated
  have durable : value.Durable := of_decide_eq_true evaluated
  exact ⟨accepted, said, value, isSaid, resolved, parsed, text, reorders, durable, read durable⟩

/-- A text with a number that does not last. -/
def unsteadyText : String :=
  "\x7b\"prebuild_plugins\": [\x7b\"name\": \"koji\", \"args\": \x7b\"x\": 5e32\x7d\x7d]\x7d"

/-- What is read of the template of such a text is not what the text says. -/
theorem text_unsteady : ∃ template value, parse unsteadyText = .ok template ∧
    Json.parse unsteadyText = .ok value ∧ Json.parse template.text ≠ .ok (restated value) := by
  have evaluated : (parse unsteadyText).toOption.any (fun template =>
      (Json.parse unsteadyText).toOption.any fun value =>
        decide (Json.parse template.text ≠ .ok (restated value))) = true := by decide +kernel
  rcases Except.exists_ok_of_any evaluated with ⟨template, accepted, read⟩
  rcases Except.exists_ok_of_any read with ⟨value, parsed, differs⟩
  exact ⟨template, value, accepted, parsed, of_decide_eq_true differs⟩

end Template
end ContainerBuild
