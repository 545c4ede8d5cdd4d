import ContainerBuild.Proofs.Params.Reloading
import ContainerBuild.Proofs.Plugin.Directory
import ContainerBuild.Proofs.Plugin.Restating
import ContainerBuild.Proofs.Plugin.Soundness
import ContainerBuild.Proofs.Plugin.Workers

namespace ContainerBuild

/-!
# Rendering once is enough

What rules assign depends on the parameters alone and overrides what was there, so a template that
is filled in stays as it is when it is filled in again (`Template.filledBy_filledBy`).  Filling in
keeps a template sound (`Template.Sound.filledBy`), so its text is read without loss, and rendering
what was rendered gives the same text.
-/

/-! ## Entries -/

namespace Plugin

variable {plugin : Plugin} {args : Members Json}

/-- Arguments that are set take the places of those of their names, or come last. -/
theorem setArgs_eq (distinct : (plugin.args.getD []).names.Nodup) (args : Members Json) :
    plugin.setArgs args = if args = [] then plugin else
      { plugin with args := some (Members.ofPairs (plugin.args.getD [] ++ args)) } := by
  -- By induction from the end: the last argument is put among what the others came to.
  induction args using List.reverseRecOn with
  | nil => rfl
  | append_singleton args last inductionHypothesis =>
      rw [setArgs_append, inductionHypothesis, if_neg (List.append_ne_nil_of_right_ne_nil _
        (List.cons_ne_nil _ _)), ← List.append_assoc, Members.ofPairs_concat]
      split
      next none =>
        rw [none, List.append_nil, Members.ofPairs_of_nodup distinct]
        rfl
      next => rfl

/-- Arguments that are set once more change nothing. -/
theorem setArgs_setArgs (distinct : (plugin.args.getD []).names.Nodup) (args : Members Json) :
    (plugin.setArgs args).setArgs args = plugin.setArgs args := by
  rw [setArgs_eq distinct]
  split
  next none =>
    rw [none]
    rfl
  next nonempty =>
    refine (setArgs_eq ?_ args).trans ?_
    · exact Members.nodup_names_ofPairs _
    · rw [if_neg nonempty, Option.getD_some, Members.ofPairs_ofPairs_append,
        Members.ofPairs_append_append]

theorem Sound.nodup_names_args (sound : plugin.Sound) : (plugin.args.getD []).names.Nodup := by
  cases given : plugin.args with
  | none => exact List.nodup_nil
  | some args => exact (sound.args args given).1

/-- An entry stays sound if arguments are set to values that are well formed. -/
theorem Sound.setArgs (sound : plugin.Sound) (wellFormed : ∀ arg ∈ args, arg.2.WellFormed) :
    (plugin.setArgs args).Sound := by
  have old : ∀ arg ∈ plugin.args.getD [], arg.2.WellFormed := by
    cases given : plugin.args with
    | none => exact List.forall_mem_nil _
    | some args => exact Json.wellFormedMembers_iff.1 (sound.args args given).2
  rw [setArgs_eq sound.nodup_names_args]
  split
  · exact sound
  · refine ⟨?_, sound.extra, sound.unknown⟩
    rintro _ ⟨⟩
    refine ⟨Members.nodup_names_ofPairs _, Json.wellFormedMembers_iff.2 fun arg here => ?_⟩
    rcases List.mem_append.1 (Json.mem_of_mem_ofPairs here) with before | assigned
    · exact old arg before
    · exact wellFormed arg assigned

theorem mem_mapFirst {change : Plugin → Plugin} {seen : List String} {plugins : List Plugin}
    (here : plugin ∈ mapFirst change seen plugins) :
    plugin ∈ plugins ∨ ∃ old ∈ plugins, plugin = change old := by
  rcases List.mem_iff_getElem?.1 here with ⟨place, found⟩
  rw [getElem?_mapFirst, Option.map_eq_some_iff] at found
  rcases found with ⟨old, before, same⟩
  split at same
  · exact .inl (same ▸ List.mem_of_getElem? before)
  · exact .inr ⟨old, List.mem_of_getElem? before, same.symm⟩

end Plugin

/-! ## Templates -/

theorem Rule.mem_assigned {rules : List Rule} {phase name : String} {arg : String × Json}
    (here : arg ∈ assigned rules phase name) : ∃ rule ∈ rules, arg ∈ rule.args := by
  rcases List.mem_flatMap.1 here with ⟨rule, chosen, inside⟩
  exact ⟨rule, List.mem_of_mem_filter chosen, inside⟩

namespace Template

variable {template : Template} {rules : List Rule}

/-- A template that is filled in stays as it is when it is filled in again. -/
theorem filledBy_filledBy (sound : template.Sound) (rules : List Rule) :
    (template.filledBy rules).filledBy rules = template.filledBy rules := by
  rw [filledBy, mapFirst_mapFirst fun _ _ => Plugin.name_setArgs _ _]
  refine mapFirst_congr fun phase here plugin inside => ?_
  rw [Function.comp_apply, Plugin.name_setArgs]
  exact Plugin.setArgs_setArgs (sound phase here plugin inside).nodup_names_args _

/-- A template stays sound if what is assigned is well formed. -/
theorem Sound.filledBy (sound : template.Sound)
    (wellFormed : ∀ rule ∈ rules, ∀ arg ∈ rule.args, arg.2.WellFormed) :
    (template.filledBy rules).Sound := by
  intro phase here plugin inside
  rcases List.mem_map.1 here with ⟨before, listed, rfl⟩
  rcases Plugin.mem_mapFirst inside with unchanged | ⟨old, was, rfl⟩
  · exact sound before listed plugin unchanged
  · refine (sound before listed old was).setArgs fun arg assigned => ?_
    rcases Rule.mem_assigned assigned with ⟨rule, among, given⟩
    exact wellFormed rule among arg given

end Template

/-! ## What builds assign -/

section WellFormed

variable {α : Type} {write : α → Json}

theorem wellFormed_optional {key : String} {value? : Option Json}
    (each : ∀ value ∈ value?, value.WellFormed) :
    ∀ arg ∈ Members.optional key value?, arg.2.WellFormed := by
  intro arg here
  rcases List.mem_map.1 here with ⟨value, present, rfl⟩
  exact each value (Option.mem_toList.1 present)

theorem wellFormed_optional_map (each : ∀ x, (write x).WellFormed) (key : String)
    (x? : Option α) : ∀ arg ∈ Members.optional key (x?.map write), arg.2.WellFormed := by
  refine wellFormed_optional fun value here => ?_
  rcases Option.mem_map.1 here with ⟨x, -, rfl⟩
  exact each x

theorem wellFormed_ofStrings (texts : List String) : (Json.ofStrings texts).WellFormed :=
  (within_texts texts : (Json.ofStrings texts).Within (0 + 1)).1

theorem wellFormed_word (number : UInt64) : (Json.ofNat number.toNat).WellFormed :=
  (within_word number : (Json.ofNat number.toNat).Within 0).1

theorem wellFormed_words (numbers : List UInt64) :
    (Json.array (numbers.map (Json.ofNat ·.toNat))).WellFormed :=
  (within_words numbers : (Json.array (numbers.map (Json.ofNat ·.toNat))).Within (0 + 1)).1

end WellFormed

namespace Rule

theorem wellFormed_textArg : ∀ (key : String) (value : Option String),
    ∀ arg ∈ textArg key value, arg.2.WellFormed :=
  wellFormed_optional_map fun _ => trivial

theorem wellFormed_textsArg : ∀ (key : String) (value : Option (List String)),
    ∀ arg ∈ textsArg key value, arg.2.WellFormed :=
  wellFormed_optional_map wellFormed_ofStrings

theorem wellFormed_numberArg : ∀ (key : String) (value : Option UInt64),
    ∀ arg ∈ numberArg key value, arg.2.WellFormed :=
  wellFormed_optional_map wellFormed_word

end Rule

namespace ImageParams

variable {params : ImageParams} (generic : ∀ value ∈ params.generic, value.WellFormed)

include generic

theorem wellFormed_toMembers : ∀ member ∈ params.toMembers, member.2.WellFormed := by
  -- The generic values lie within some number of levels, and which one makes no difference here.
  have within : ∀ value ∈ params.generic,
      value.Within (Json.depthOfItems params.generic + 1) := fun value here =>
    ⟨generic value here, Nat.le_succ_of_le (Json.depthOfItems_le_iff.1 le_rfl value here)⟩
  exact fun member here => (within_toMembers within member here).1

theorem wellFormed_passedOn : ∀ member ∈ params.passedOn, member.2.WellFormed := by
  intro member here
  rcases List.mem_filterMap.1 here with ⟨name, -, passed⟩
  rcases Option.map_eq_some_iff.1 passed with ⟨value, said, rfl⟩
  exact wellFormed_toMembers generic _
    (Members.mem_of_lookup_eq_some (Option.filter_eq_some_iff.1 said).1)

theorem wellFormed_workerParams : (Json.object params.workerParams).WellFormed := by
  have passed := wellFormed_passedOn generic
  have target : ((params.passedOn.lookup "koji_target").getD .null).WellFormed := by
    cases found : params.passedOn.lookup "koji_target" with
    | none => trivial
    | some value => exact passed _ (Members.mem_of_lookup_eq_some found)
  refine ⟨params.nodup_names_workerParams, Json.wellFormedMembers_iff.2 ?_⟩
  rw [workerParams]
  simp only [List.forall_mem_append, List.forall_mem_singleton]
  refine ⟨⟨fun member here => ?_, target⟩, ?_⟩
  · exact passed member (List.mem_of_mem_filter
      ((Members.takeOut_perm params.nodup_names_passedOn).mem_iff.1 here))
  · split
    · exact List.forall_mem_singleton.2 trivial
    · exact List.forall_mem_nil _

omit generic in
theorem wellFormed_workerConfig (params : ImageParams) :
    (Json.object params.workerConfig).WellFormed := by
  refine ⟨?_, Json.wellFormedMembers_iff.2 ?_⟩
  · change params.workerConfig.names.Nodup
    rw [names_workerConfig]
    split
    · exact List.nodup_singleton _
    · exact List.nodup_nil
  · rw [workerConfig]
    split
    · exact List.forall_mem_nil _
    · exact Rule.wellFormed_textArg _ _

omit generic in
theorem wellFormed_tagSuffixes (params : ImageParams) : params.tagSuffixes.WellFormed := by
  have names : ["unique", "primary", "floating"].Nodup := by decide
  exact ⟨names, wellFormed_ofStrings _, wellFormed_ofStrings _, wellFormed_ofStrings _, trivial⟩

/-- What an image build assigns is well formed. -/
theorem wellFormed_rules : ∀ rule ∈ params.rules, ∀ arg ∈ rule.args, arg.2.WellFormed := by
  have text := Rule.wellFormed_textArg
  have texts := Rule.wellFormed_textsArg
  have number := Rule.wellFormed_numberArg
  have orNull (value : Option String) : (Json.ofOption .string value).WellFormed := by
    cases value <;> trivial
  have release : ∀ text : String, (Json.object [("release", .string text)]).WellFormed :=
    fun _ => ⟨List.nodup_singleton _, trivial, trivial⟩
  have pullspecs : ∀ specs : Dict String String, (Json.ofTexts specs).WellFormed :=
    fun _ => Json.Codec.texts.wellFormed trivial
  have composes := wellFormed_optional_map wellFormed_words "compose_ids" params.composeIds
  have flatpak : ∀ arg ∈ if params.flatpak then [("append", Json.bool true)] else [],
      arg.2.WellFormed := by
    split
    · exact List.forall_mem_singleton.2 trivial
    · exact List.forall_mem_nil _
  have digests : ∀ value ∈ params.parentImagesDigests.filter Json.isTruthy, value.WellFormed :=
    fun value here => generic value (List.mem_append_left _ (List.mem_append_right _
      (Option.mem_toList.2 (Option.mem_filter_iff.1 here).1)))
  have sources : ∀ value ∈ params.remoteSources.map Json.array, value.WellFormed :=
    fun value here => generic value (List.mem_append_right _ (Option.mem_toList.2 here))
  have remoteSources : ((params.remoteSources.map Json.array).getD .null).WellFormed := by
    cases given : params.remoteSources.map Json.array with
    | none => trivial
    | some value => exact sources value given
  have none := List.forall_mem_nil fun arg : String × Json => arg.2.WellFormed
  simp only [rules, List.forall_mem_cons, List.forall_mem_append]
  exact ⟨⟨⟨⟨texts _ _, number _ _⟩, text _ _⟩, text _ _⟩,
    wellFormed_optional_map release _ _, texts _ _, flatpak, text _ _, ⟨trivial, none⟩, composes,
    ⟨orNull _, none⟩, text _ _, text _ _, text _ _, ⟨orNull _, orNull _, trivial, none⟩,
    ⟨wellFormed_optional_map pullspecs _ _, text _ _⟩, ⟨⟨orNull _, none⟩, text _ _⟩,
    ⟨texts _ _, wellFormed_workerParams generic, wellFormed_workerConfig params, none⟩,
    wellFormed_optional digests, ⟨⟨⟨composes, text _ _⟩, text _ _⟩, texts _ _⟩,
    ⟨wellFormed_tagSuffixes params, none⟩, number _ _, ⟨remoteSources, none⟩, texts _ _,
    wellFormed_optional sources, List.forall_mem_nil _⟩

end ImageParams

/-- What a source container build assigns is well formed. -/
theorem SourcesParams.wellFormed_rules (params : SourcesParams) :
    ∀ rule ∈ params.rules, ∀ arg ∈ rule.args, arg.2.WellFormed := by
  have text := Rule.wellFormed_textArg
  simp only [rules, List.forall_mem_cons, List.forall_mem_append]
  exact ⟨⟨⟨text _ _, Rule.wellFormed_numberArg _ _⟩, text _ _⟩, text _ _, text _ _, text _ _,
    List.forall_mem_nil _⟩

/-! ## Loading what was rendered -/

namespace Template

variable {template : Template}

/-- A template is loaded from its text, and with it the customization if one is named. -/
theorem load_of_text {files : Files} {directory file text : String}
    {customization : Option String} (found : files (Files.join directory file) = .ok text)
    (parsed : parse text = .ok template)
    (plain : ∀ file ∈ customization,
      (loadCustomization (Files.join directory file)).run.run files = .ok .empty) :
    (load directory file customization).run.run files = .ok template := by
  have uncustomized : template.customization = .empty := by
    rcases parse_ok_iff.1 parsed with ⟨_, -, rfl⟩
    rfl
  have read : (liftM (Script.readFile (Files.join directory file)) :
      ExceptT PluginError Script (Except FileError String)).run.run files = .ok (.ok text) :=
    congrArg Except.ok found
  have readable : (liftM ((Except.ok text).mapError
      (PluginError.unreadable (Files.join directory file))) :
        ExceptT PluginError Script String).run.run files = .ok text := rfl
  have valid : (liftM ((parse text).mapError
      (PluginError.invalid (Files.join directory file))) :
        ExceptT PluginError Script Template).run.run files = .ok template := by
    rw [parsed]
    rfl
  rw [load, Script.run_bind_of_ok read, Script.run_bind_of_ok readable, Script.run_bind_of_ok valid]
  cases customization with
  | none => rfl
  | some file =>
      refine (Script.run_bind_of_ok (plain file rfl)).trans ?_
      rw [← uncustomized]
      rfl

theorem customized_of_empty (plain : template.customization = .empty) :
    template.customized = template := by
  rw [customized, plain]
  rfl

end Template

namespace Params

variable {params : Params} {template filled : Template}

/-- What a build assigns is well formed if its generic values are. -/
theorem wellFormed_rules (generic : ∀ value ∈ params.generic, value.WellFormed) :
    ∀ rule ∈ params.rules, ∀ arg ∈ rule.args, arg.2.WellFormed := by
  cases params with
  | image params => exact ImageParams.wellFormed_rules generic
  | sources params => exact SourcesParams.wellFormed_rules params

/-- A template that is filled in is filled in as it is. -/
theorem fill_filled (sound : template.Sound) (plain : template.customization = .empty)
    (done : params.fill template = .ok filled) : params.fill filled = .ok filled := by
  rcases fill_ok_iff.1 done with ⟨complete, applicable, rfl⟩
  rw [Template.customized_of_empty plain] at applicable ⊢
  have stillPlain : (template.filledBy params.rules).customized = template.filledBy params.rules :=
    Template.customized_of_empty plain
  refine fill_ok_iff.2 ⟨complete, fun rule here must given => ?_, ?_⟩
  · rw [stillPlain, Template.filledBy,
      Template.has_mapFirst fun _ _ => Plugin.name_setArgs _ _]
    exact applicable rule here must given
  · rw [stillPlain, Template.filledBy_filledBy sound]

theorem render_of_fill (done : params.fill template = .ok filled) :
    params.render template = .ok filled.text := by
  rw [render, done]
  rfl

/-- What comes of a text that is rendered with the parameters that it was rendered with. -/
structure RendersAgain (params : Params) (text : String) : Prop where
  /-- The text is that of a template, which is rendered as the text. -/
  read : ∃ template, Template.parse text = .ok template ∧ params.render template = .ok text
  /-- The same comes of it in every directory that has it in place of the template, where nothing
  is customized. -/
  loaded : ∀ files given directory, params.templateDirectory given = .ok directory →
    files (Files.join directory params.templateFile) = .ok text →
      (∀ file ∈ params.customizationFile,
        (Template.loadCustomization (Files.join directory file)).run.run files = .ok .empty) →
        (params.configure given).run.run files = .ok text

/-- What is rendered without a customization is rendered again as it is, unless it is too deep to
be read or has numbers that do not last.  Every template that is read from a text is sound
(`Template.sound_of_parse`), and every generic value that is loaded is well formed
(`Obtained.room`). -/
theorem render_again (sound : template.Sound) (plain : template.customization = .empty)
    (generic : ∀ value ∈ params.generic, value.WellFormed)
    (done : params.fill template = .ok filled) (durable : filled.toJson.Durable)
    (shallow : filled.toJson.depth ≤ Json.Tree.levelLimit) :
    params.render template = .ok filled.text ∧ params.RendersAgain filled.text := by
  rcases fill_ok_iff.1 done with ⟨complete, -, same⟩
  rw [Template.customized_of_empty plain] at same
  have soundFilled : filled.Sound := same ▸ sound.filledBy (wellFormed_rules generic)
  have asIs : { filled with customization := .empty } = filled := by
    rw [same, ← plain]
    rfl
  have parsed : Template.parse filled.text = .ok filled :=
    (Template.parse_text soundFilled durable shallow).trans (congrArg Except.ok asIs)
  have again : params.render filled = .ok filled.text :=
    render_of_fill (fill_filled sound plain done)
  refine ⟨render_of_fill done, ⟨filled, parsed, again⟩, ?_⟩
  intro files given directory chosen found uncustomized
  rw [configure, complete, chosen]
  refine (Script.run_bind_of_ok (Template.load_of_text found parsed uncustomized)).trans ?_
  rw [again]
  rfl

end Params

/-- A template in which the plugin that asks about the target has two entries, one of them with a
target of its own. -/
def Template.ownTarget : Template where
  listed := .ofPairs
    [("prebuild_plugins",
        [⟨"koji", some [("target", .string "old"), ("hub", .null)], [("required", .null)]⟩,
          ⟨"koji", none, []⟩]),
      ("buildstep_plugins", [⟨"orchestrate_build", none, []⟩])]
  customization := .empty

/-- A text of that template. -/
def Template.ownTargetText : String :=
  "\x7b\"prebuild_plugins\": [\x7b\"required\": null, \"name\": \"koji\", " ++
    "\"args\": \x7b\"target\": \"old\", \"hub\": null\x7d\x7d, \x7b\"name\": \"koji\"\x7d], " ++
      "\"buildstep_plugins\": [\x7b\"name\": \"orchestrate_build\"\x7d]\x7d"

theorem Params.render_again_ownTarget :
    Template.parse Template.ownTargetText = .ok Template.ownTarget ∧
      Template.ownTarget.customization = .empty ∧
      (∀ value ∈ (Params.image directing).generic, value.WellFormed) ∧
      ∃ filled, (Params.image directing).fill Template.ownTarget = .ok filled ∧
        filled.toJson.Durable ∧ filled.toJson.depth ≤ Json.Tree.levelLimit ∧
        filled ≠ Template.ownTarget ∧
        (Params.image directing).render Template.ownTarget = .ok filled.text ∧
        (Params.image directing).RendersAgain filled.text := by
  have accepted : Template.parse Template.ownTargetText = .ok Template.ownTarget := by
    decide +kernel
  have sound : Template.ownTarget.Sound := Template.sound_of_parse accepted
  have generic : ∀ value ∈ (Params.image directing).generic, value.WellFormed :=
    List.forall_mem_singleton.2 ⟨by decide, wellFormed_word 1, trivial, trivial⟩
  have evaluated : ((Params.image directing).fill Template.ownTarget).toOption.any (fun filled =>
      filled.toJson.Durable ∧ filled.toJson.depth ≤ Json.Tree.levelLimit ∧
        filled ≠ Template.ownTarget) = true := by
    decide +kernel
  rcases Except.exists_ok_of_any evaluated with ⟨filled, done, known⟩
  have facts := of_decide_eq_true known
  have again := render_again sound rfl generic done facts.1 facts.2.1
  exact ⟨accepted, rfl, generic, filled, done, facts.1, facts.2.1, facts.2.2, again⟩

/-- What is rendered with a number that does not last is rendered again as something else. -/
theorem Params.render_unsteady :
    ∃ template filled, Template.parse Template.unsteadyText = .ok template ∧
      template.customization = .empty ∧ (Params.image directing).fill template = .ok filled ∧
      filled.toJson.depth ≤ Json.Tree.levelLimit ∧
      ¬ (Params.image directing).RendersAgain filled.text := by
  have evaluated : (Template.parse Template.unsteadyText).toOption.any (fun template =>
      ((Params.image directing).fill template).toOption.any fun filled =>
        decide (template.customization = .empty ∧
          filled.toJson.depth ≤ Json.Tree.levelLimit ∧
          ((Template.parse filled.text).toOption.all fun reread =>
            decide ((Params.image directing).render reread ≠ .ok filled.text)) = true)) = true := by
    decide +kernel
  rcases Except.exists_ok_of_any evaluated with ⟨template, accepted, rendered⟩
  rcases Except.exists_ok_of_any rendered with ⟨filled, done, known⟩
  rcases of_decide_eq_true known with ⟨plain, shallow, differs⟩
  refine ⟨template, filled, accepted, plain, done, shallow, fun again => ?_⟩
  rcases again.read with ⟨reread, read, same⟩
  rw [read] at differs
  exact of_decide_eq_true differs same

end ContainerBuild
