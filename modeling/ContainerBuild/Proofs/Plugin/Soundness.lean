import ContainerBuild.Proofs.Json.ReadingBack
import ContainerBuild.Proofs.Plugin.Restating

namespace ContainerBuild

/-!
# Templates that are read back

A template that is sound can be written without loss: reading its text gives the template again, if
its numbers last (`Template.parse_text`).  Sound means that no entry repeats a name or hides a field
among its unknown members; every template that is read from a text is (`Template.sound_of_parse`).
-/

/-! ## Entries -/

namespace Plugin

open Json (Tree)

/-- An entry that repeats no name, and has no field among its unknown members. -/
structure Sound (plugin : Plugin) : Prop where
  args : ∀ args ∈ plugin.args, (Json.object args).WellFormed
  extra : (Json.object plugin.extra).WellFormed
  unknown : ∀ name ∈ plugin.extra.names, name ∉ fieldNames

/-- The fields of an entry, as members. -/
def fields (plugin : Plugin) : Members Json :=
  ("name", .string plugin.name) :: Members.optional "args" (plugin.args.map .object)

theorem toJson_eq (plugin : Plugin) : plugin.toJson = .object (plugin.fields ++ plugin.extra) := rfl

theorem names_fields_sublist (plugin : Plugin) : plugin.fields.names.Sublist fieldNames := by
  rw [fields]
  cases plugin.args with
  | none => exact .cons_cons _ (.cons _ .slnil)
  | some args => exact .refl _

theorem mem_fields_iff {plugin : Plugin} {member : String × Json} : member ∈ plugin.fields ↔
    member = ("name", .string plugin.name) ∨
      ∃ args, plugin.args = some args ∧ member = ("args", .object args) := by
  rw [fields, List.mem_cons]
  cases plugin.args <;> simp [Members.optional]

section Sound

variable {plugin : Plugin}

theorem Sound.nodup_names (sound : plugin.Sound) : (plugin.fields ++ plugin.extra).names.Nodup := by
  have fieldsDistinct : plugin.fields.names.Nodup :=
    List.Nodup.sublist plugin.names_fields_sublist (by decide)
  rw [Members.names, List.map_append]
  refine List.nodup_append.2 ⟨fieldsDistinct, sound.extra.1, ?_⟩
  rintro name isField _ unknown rfl
  exact sound.unknown name unknown (plugin.names_fields_sublist.subset isField)

theorem Sound.wellFormed_toJson (sound : plugin.Sound) : plugin.toJson.WellFormed := by
  refine ⟨sound.nodup_names, Json.wellFormedMembers_iff.2 fun member here => ?_⟩
  rcases List.mem_append.1 here with field | unknown
  · rcases mem_fields_iff.1 field with rfl | ⟨args, given, rfl⟩
    · trivial
    · exact sound.args args given
  · exact Json.wellFormedMembers_iff.1 sound.extra.2 member unknown

/-- The value of an entry is well formed only if its parts are. -/
theorem sound_of_wellFormed (wellFormed : plugin.toJson.WellFormed)
    (unknown : ∀ name ∈ plugin.extra.names, name ∉ fieldNames) : plugin.Sound where
  args args given := Json.wellFormedMembers_iff.1 wellFormed.2 ("args", .object args)
    (List.mem_append_left _ (mem_fields_iff.2 (.inr ⟨args, given, rfl⟩)))
  extra := by
    have distinct : (plugin.fields ++ plugin.extra).names.Nodup := wellFormed.1
    rw [Members.names, List.map_append] at distinct
    refine ⟨(List.nodup_append.1 distinct).2.1, Json.wellFormedMembers_iff.2 fun member here => ?_⟩
    exact Json.wellFormedMembers_iff.1 wellFormed.2 member (List.mem_append_right _ here)
  unknown := unknown

/-- No field is read as an unknown member. -/
theorem unknown_of_ofTree {tree : Tree} (read : ofTree tree = .ok plugin) :
    ∀ name ∈ plugin.extra.names, name ∉ fieldNames := by
  rcases ofTree_ok_iff.1 read with ⟨named, -, reads⟩
  rcases reads.others with ⟨others, each, extra⟩
  rintro name here isField
  rw [extra, Members.names_ofPairs, List.mem_eraseDups, Json.names_of_reads each] at here
  rcases List.mem_map.1 here with ⟨member, chosen, rfl⟩
  have apart := (List.mem_filter.1 chosen).2
  simp [isField] at apart

end Sound

/-! ### Reading an entry back -/

section ReadingBack

variable {plugin : Plugin}

/-- The members of the fields' names are the fields. -/
theorem Sound.filter_field (sound : plugin.Sound) {name : String} (isField : name ∈ fieldNames) :
    (plugin.fields ++ plugin.extra).filter (fun member => member.1 == name) =
      plugin.fields.filter fun member => member.1 == name := by
  have apart : plugin.extra.filter (fun member => member.1 == name) = [] :=
    List.filter_eq_nil_iff.2 fun member here same => sound.unknown member.1
      (List.mem_map.2 ⟨member, here, rfl⟩) ((beq_iff_eq.1 same).symm ▸ isField)
  rw [List.filter_append, apart, List.append_nil]

/-- The members of other names are the unknown ones. -/
theorem Sound.filter_unknown (sound : plugin.Sound) :
    (plugin.fields ++ plugin.extra).filter (fun member => !fieldNames.contains member.1) =
      plugin.extra := by
  have known : plugin.fields.filter (fun member => !fieldNames.contains member.1) = [] := by
    refine List.filter_eq_nil_iff.2 fun member here => ?_
    have isField := plugin.names_fields_sublist.subset (List.mem_map.2 ⟨member, here, rfl⟩)
    simp [isField]
  have unknown : plugin.extra.filter (fun member => !fieldNames.contains member.1) =
      plugin.extra := by
    refine List.filter_eq_self.2 fun member here => ?_
    have apart := sound.unknown member.1 (List.mem_map.2 ⟨member, here, rfl⟩)
    simp [apart]
  rw [List.filter_append, known, unknown, List.nil_append]

theorem readArgs_toTree {args : Members Json} (within : (Json.object args).Within levels) :
    readArgs (Json.object args).toTree = .ok args := by
  have pairs : (Json.object (args.map fun arg => (arg.1, id arg.2))).toTree.pairs
      (Tree.generic (levels - 1)) = .ok args :=
    Tree.pairs_toTree id fun arg here => Tree.generic_toTree (within.member arg here)
  have same : (args.map fun arg => (arg.1, id arg.2)) = args := List.map_id' args
  rw [same] at pairs
  exact Json.map_ok_iff.2 ⟨args, pairs, (Members.ofPairs_of_nodup within.1.1).symm⟩

/-- An entry that is sound is read from the tree of its value. -/
theorem ofTree_toTree (sound : plugin.Sound) (within : plugin.toJson.Within (levels + 1)) :
    ofTree plugin.toJson.toTree = .ok plugin := by
  have member := Json.Within.member within
  rw [toJson_eq, Json.toTree, Json.treesOfMembers_eq]
  refine ofTree_ok_iff.2 ⟨_, rfl, ?_, ?_, plugin.extra, ?_, ?_⟩
  · rw [List.filter_map]
    refine (congrArg (List.map _) (sound.filter_field (by decide : "name" ∈ fieldNames))).trans ?_
    rw [fields]
    cases plugin.args <;> rfl
  · rw [List.filter_map]
    have chosen := congrArg (List.map fun member : String × Json => (member.1, member.2.toTree))
      (sound.filter_field (by decide : "args" ∈ fieldNames))
    cases given : plugin.args with
    | none =>
        refine .inl ⟨chosen.trans ?_, rfl⟩
        rw [fields, given]
        rfl
    | some args =>
        have inside := member ("args", .object args)
          (List.mem_append_left _ (mem_fields_iff.2 (.inr ⟨args, given, rfl⟩)))
        refine .inr ⟨(Json.object args).toTree, chosen.trans ?_, ?_⟩
        · rw [fields, given]
          rfl
        · refine Tree.orNull_ok_iff.2 (.inr ⟨?_, args, readArgs_toTree inside, rfl⟩)
          rw [Json.toTree]
          exact Tree.noConfusion
  · rw [List.filter_map]
    refine (congrArg (List.map _) sound.filter_unknown) ▸ ?_
    refine List.forall₂_map_left_iff.2 (List.forall₂_same.2 fun other here => ⟨rfl, ?_⟩)
    have within := member other (List.mem_append_right _ here)
    exact Json.value?_toTree within.1 within.2
  · exact (Members.ofPairs_of_nodup sound.extra.1).symm

end ReadingBack

end Plugin

/-! ## Templates -/

namespace Template

open Json (Tree)

/-- A template all of whose entries are sound. -/
def Sound (template : Template) : Prop :=
  ∀ phase ∈ template.phases, ∀ plugin ∈ phase.2, plugin.Sound

variable {template : Template}

theorem Sound.wellFormed_toJson (sound : template.Sound) : template.toJson.WellFormed := by
  refine ⟨?_, Json.wellFormedMembers_iff.2 fun member here => ?_⟩
  · rw [List.map_map]
    exact template.distinct
  · rcases List.mem_map.1 here with ⟨phase, inside, rfl⟩
    refine Json.wellFormedItems_iff.2 fun entry listed => ?_
    rcases List.mem_map.1 listed with ⟨plugin, within, rfl⟩
    exact (sound phase inside plugin within).wellFormed_toJson

/-- Every entry of a template that is read comes from the tree of an entry. -/
theorem exists_tree_of_parse {text : String} (accepted : parse text = .ok template) :
    ∀ phase ∈ template.phases, ∀ plugin ∈ phase.2,
      ∃ entry, Plugin.ofTree entry = .ok plugin := by
  intro phase here plugin inside
  rcases parse_ok_iff.1 accepted with ⟨pairs, parsed, rfl⟩
  rcases Tree.pairs_ok_iff.1 (Json.Document.read_ok_iff.1 parsed).1 with ⟨named, -, each⟩
  rcases Json.exists_of_forall₂ (List.Forall₂.flip each) (Json.mem_of_mem_ofPairs here) with
    ⟨member, -, list⟩
  rcases Tree.list_ok_iff.1 list with ⟨items, -, entries⟩
  exact Json.exists_of_forall₂ (List.Forall₂.flip entries) inside

/-- A template that is read from a text is sound. -/
theorem sound_of_parse {text : String} (accepted : parse text = .ok template) :
    template.Sound := by
  rcases toJson_of_parse accepted with ⟨value, parsed, written⟩
  have wellFormed : template.toJson.WellFormed :=
    written ▸ (within_restated (Json.within_of_parse parsed)).1
  intro phase here plugin inside
  rcases exists_tree_of_parse accepted phase here plugin inside with ⟨entry, read⟩
  refine Plugin.sound_of_wellFormed ?_ (Plugin.unknown_of_ofTree read)
  have listed := Json.wellFormedMembers_iff.1 wellFormed.2 _ (List.mem_map_of_mem here)
  exact Json.wellFormedItems_iff.1 listed _ (List.mem_map_of_mem inside)

/-- The text of a sound template is read as the template without its customization, unless it is
too deep or has numbers that do not last. -/
theorem parse_text (sound : template.Sound) (durable : template.toJson.Durable)
    (shallow : template.toJson.depth ≤ Tree.levelLimit) :
    parse template.text = .ok { template with customization := .empty } := by
  have within : template.toJson.Within Tree.levelLimit := ⟨sound.wellFormed_toJson, shallow⟩
  have read : readPhases template.toJson.toTree = .ok template.phases := by
    refine Tree.pairs_toTree (fun plugins : List Plugin => .array (plugins.map Plugin.toJson))
      fun phase here => ?_
    have inside := within.member _ (List.mem_map_of_mem here)
    refine Tree.list_toTree Plugin.toJson fun plugin listed => ?_
    exact Plugin.ofTree_toTree (sound phase here plugin listed)
      (inside.item _ (List.mem_map_of_mem listed))
  have parsed : parsePhases template.text = .ok template.phases := by
    rw [parsePhases, text, Json.spaced,
      Json.ofText_of_spells (Json.spells_write Json.legible_spaced within.1 durable)]
    exact Json.Document.read_ok_iff.2 ⟨read, rfl⟩
  refine parse_ok_iff.2 ⟨template.phases, parsed, eq_of_phases ?_ rfl⟩
  exact (Members.ofPairs_of_nodup template.distinct).symm

end Template
end ContainerBuild
