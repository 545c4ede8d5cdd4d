import ContainerBuild.Proofs.Plugin.Directory
import ContainerBuild.Proofs.Plugin.Frame

namespace ContainerBuild

/-!
# Why a template is refused

A rule fails only if it is mandatory, has an argument to set and misses its plugin, and then as
looking the plugin up fails (`Rule.Refuses`).  Earlier rules neither add nor drop plugins,
so of a list of rules the first that fails on the template as it was decides
(`Rule.foldlM_apply_error_iff`).  An image build has one mandatory rule and a source container
build none; apart from that only parameters that are not complete are refused, whatever the
template is (`Params.render_error_iff`).
-/

/-! ## Looking plugins up -/

namespace Template

variable {template : Template} {phase name : String} {error : PluginError}

/-- Looking a plugin up fails for want of its phase or for want of the plugin. -/
theorem get_error_iff : template.get phase name = .error error ↔
    (template.phase? phase = none ∧ error = .missingPhase phase) ∨
      ∃ plugins, template.phase? phase = some plugins ∧ name ∉ plugins.map Plugin.name ∧
        error = .missingPlugin name := by
  cases found : template.phase? phase with
  | none => simp [get_of_no_phase found, eq_comm]
  | some plugins =>
      have named : (Plugin.find? name plugins).isSome ↔ name ∈ plugins.map Plugin.name :=
        Plugin.find?_isSome_iff
      simp only [get_of_phase? found, ← named, reduceCtorEq, false_and, false_or, Option.some.injEq,
        exists_eq_left']
      cases Plugin.find? name plugins <;> simp [eq_comm]

theorem not_has_of_get_error (failed : template.get phase name = .error error) :
    ¬ template.has phase name = true := by
  rw [has, failed]
  exact Bool.false_ne_true

theorem exists_get_error (misses : ¬ template.has phase name = true) :
    ∃ error, template.get phase name = .error error := by
  rw [has] at misses
  cases outcome : template.get phase name with
  | ok plugin =>
      rw [outcome] at misses
      exact absurd rfl misses
  | error error => exact ⟨error, rfl⟩

/-- An argument cannot be set just when its plugin cannot be looked up. -/
theorem setArg_error_iff {key : String} {value : Json} :
    template.setArg phase name key value = .error error ↔
      template.get phase name = .error error := by
  rw [get_error_iff]
  cases found : template.phase? phase with
  | none =>
      have outcome : template.setArg phase name key value = .error (.missingPhase phase) := by
        rw [setArg, Template.phase, found]
        rfl
      simp [outcome, eq_comm]
  | some plugins =>
      have outcome : template.setArg phase name key value =
          (Plugin.modifyFirst? name (fun plugin => plugin.setArg key value) plugins).elim
            (.error (.missingPlugin name)) fun plugins =>
              .ok (template.withPhase phase plugins) := by
        simp only [setArg, Template.phase, found, bind, Except.bind]
        cases Plugin.modifyFirst? name (fun plugin => plugin.setArg key value) plugins <;> rfl
      rw [outcome, Plugin.modifyFirst?_eq (List.not_mem_nil : name ∉ [])]
      simp only [reduceCtorEq, false_and, false_or, Option.some.injEq, exists_eq_left']
      by_cases here : name ∈ plugins.map Plugin.name
      · rw [if_pos here]
        exact iff_of_false (fun failed => by cases failed) fun both => both.1 here
      · rw [if_neg here, Option.elim_none, and_iff_right here, Except.error.injEq, eq_comm]

/-- Looking a plugin up fails alike before and after a change that keeps the names. -/
theorem get_mapFirst_error_iff {change : String → Plugin → Plugin}
    (keeps : ∀ phase plugin, (change phase plugin).name = plugin.name) :
    (template.mapFirst change).get phase name = .error error ↔
      template.get phase name = .error error := by
  rw [get_error_iff, get_error_iff, phase?_mapFirst]
  cases template.phase? phase with
  | none => exact Iff.rfl
  | some plugins => simp only [Option.map_some, Option.some.injEq, reduceCtorEq, false_and,
      exists_eq_left', Plugin.map_name_mapFirst (keeps phase)]

end Template

/-! ## Rules -/

namespace Rule

variable {template : Template} {error : PluginError}

/-- How a rule refuses a template: as looking its plugin up fails. -/
structure Refuses (rule : Rule) (template : Template) (error : PluginError) : Prop where
  mandatory : rule.mandatory = true
  assigns : rule.args ≠ []
  lookup : template.get rule.phase rule.plugin = .error error

theorem refuses_mapFirst_iff {rule : Rule} {change : String → Plugin → Plugin}
    (keeps : ∀ phase plugin, (change phase plugin).name = plugin.name) :
    rule.Refuses (template.mapFirst change) error ↔ rule.Refuses template error := by
  constructor
  · exact fun refuses => ⟨refuses.mandatory, refuses.assigns,
      (Template.get_mapFirst_error_iff keeps).1 refuses.lookup⟩
  · exact fun refuses => ⟨refuses.mandatory, refuses.assigns,
      (Template.get_mapFirst_error_iff keeps).2 refuses.lookup⟩

theorem Refuses.not_applicable {rule : Rule} (refuses : rule.Refuses template error) :
    ¬ rule.Applicable template := fun applicable =>
  Template.not_has_of_get_error refuses.lookup (applicable refuses.mandatory refuses.assigns)

/-- A rule that cannot be applied refuses the template. -/
theorem exists_refuses {rule : Rule} (blocked : ¬ rule.Applicable template) :
    ∃ error, rule.Refuses template error := by
  rw [Applicable, Classical.not_imp, Classical.not_imp] at blocked
  rcases blocked with ⟨mandatory, assigns, misses⟩
  rcases Template.exists_get_error misses with ⟨error, failed⟩
  exact ⟨error, mandatory, assigns, failed⟩

theorem apply_of_refuses {rule : Rule} (refuses : rule.Refuses template error) :
    Rule.apply template rule = .error error := by
  rcases rule with ⟨phase, plugin, args, mandatory⟩
  rcases refuses with ⟨must, assigns, failed⟩
  cases args with
  | nil => exact absurd rfl assigns
  | cons arg rest =>
      rcases arg with ⟨key, value⟩
      have first : template.setArg phase plugin key value = .error error :=
        Template.setArg_error_iff.2 failed
      have must : mandatory = true := must
      rw [apply, must, Bool.true_or, if_pos rfl, assign, List.foldlM_cons]
      simp only [first, bind, Except.bind]

/-- Rules fail as the first of them that refuses the template, after others that can be
applied. -/
theorem foldlM_apply_error_iff {rules : List Rule} :
    rules.foldlM Rule.apply template = .error error ↔
      ∃ before rule after, rules = before ++ rule :: after ∧
        (∀ earlier ∈ before, earlier.Applicable template) ∧ rule.Refuses template error := by
  induction rules generalizing template with
  | nil => simp [pure, Except.pure]
  | cons rule rest inductionHypothesis =>
      rw [List.foldlM_cons]
      by_cases applicable : rule.Applicable template
      · rw [apply_ok_iff.2 ⟨applicable, rfl⟩]
        refine inductionHypothesis.trans ?_
        simp only [refuses_mapFirst_iff rule.name_change, Applicable,
          Template.has_mapFirst rule.name_change]
        constructor
        · rintro ⟨before, later, after, rfl, earlier, refuses⟩
          exact ⟨rule :: before, later, after, rfl,
            List.forall_mem_cons.2 ⟨applicable, earlier⟩, refuses⟩
        · rintro ⟨before, later, after, same, earlier, refuses⟩
          cases before with
          | nil =>
              rw [(List.cons.inj same).1] at applicable
              exact absurd applicable refuses.not_applicable
          | cons first before =>
              exact ⟨before, later, after, (List.cons.inj same).2,
                (List.forall_mem_cons.1 earlier).2, refuses⟩
      · rcases exists_refuses applicable with ⟨cause, refuses⟩
        rw [apply_of_refuses refuses]
        constructor
        · intro failed
          rw [← Except.error.inj failed]
          exact ⟨[], rule, rest, rfl, List.forall_mem_nil _, refuses⟩
        · rintro ⟨before, later, after, same, earlier, others⟩
          cases before with
          | nil =>
              rw [← (List.cons.inj same).1] at others
              exact congrArg Except.error
                (Except.error.inj (refuses.lookup.symm.trans others.lookup))
          | cons first before =>
              rw [← (List.cons.inj same).1] at earlier
              exact absurd (earlier rule List.mem_cons_self) applicable

/-- If no two of some rules are mandatory, they fail as the mandatory one. -/
theorem foldlM_apply_error_iff_of_unique {rules : List Rule}
    (unique : ∀ rule ∈ rules, ∀ other ∈ rules,
      rule.mandatory = true → other.mandatory = true → rule = other) :
    rules.foldlM Rule.apply template = .error error ↔
      ∃ rule ∈ rules, rule.Refuses template error := by
  rw [foldlM_apply_error_iff]
  constructor
  · rintro ⟨before, rule, after, rfl, -, refuses⟩
    exact ⟨rule, List.mem_append_right before List.mem_cons_self, refuses⟩
  · rintro ⟨rule, here, refuses⟩
    rcases List.eq_append_cons_of_mem here with ⟨before, after, rfl, first⟩
    refine ⟨before, rule, after, rfl, fun earlier member must => ?_, refuses⟩
    have same := unique earlier (List.mem_append_left _ member) rule here must refuses.mandatory
    exact absurd (same ▸ member) first

end Rule

/-! ## Parameters that are missing -/

namespace Params

/-- The parameters that a build cannot do without, sorted. -/
def required : Params → List String
  | .image _ => ["build_json_dir", "build_type", "git_ref", "git_uri", "user"]
  | .sources _ => ["build_json_dir", "user"]

theorem isNull_ofOption {α : Type} {write : α → Json} (speaks : ∀ x, write x ≠ .null)
    (value : Option α) : (some (Json.ofOption write value) == some Json.null) = value.isNone := by
  cases value with
  | none => rfl
  | some x => simpa [Json.ofOption] using speaks x

/-- Missing are those of the required parameters that are null. -/
theorem missing_eq (params : Params) : params.missing =
    params.required.filter fun name => params.toMembers.lookup name == some .null := by
  have text (value : String) : Json.string value ≠ .null := by simp
  have type (value : BuildType) : value.toJson ≠ .null := by simp [BuildType.toJson]
  cases params with
  | image params =>
      have directory : (Params.image params).toMembers.lookup "build_json_dir" =
          some (Json.ofOption .string params.shared.buildJsonDir) := rfl
      have buildType : (Params.image params).toMembers.lookup "build_type" =
          some (Json.ofOption BuildType.toJson params.buildType) := rfl
      have ref : (Params.image params).toMembers.lookup "git_ref" =
          some (Json.ofOption .string params.gitRef) := rfl
      have uri : (Params.image params).toMembers.lookup "git_uri" =
          some (Json.ofOption .string params.gitUri) := rfl
      have user : (Params.image params).toMembers.lookup "user" =
          some (Json.ofOption .string params.shared.user) := rfl
      simp only [missing, ImageParams.missing, SharedParams.missing, required, List.filter_cons,
        directory, buildType, ref, uri, user, isNull_ofOption text, isNull_ofOption type,
        List.filter_nil]
      -- What is left is about which of the five have no value.
      generalize params.shared.buildJsonDir.isNone = noDirectory
      generalize params.shared.user.isNone = noUser
      generalize params.buildType.isNone = noType
      generalize params.gitRef.isNone = noRef
      generalize params.gitUri.isNone = noUri
      revert noDirectory noUser noType noRef noUri
      decide +kernel
  | sources params =>
      have directory : (Params.sources params).toMembers.lookup "build_json_dir" =
          some (Json.ofOption .string params.shared.buildJsonDir) := rfl
      have user : (Params.sources params).toMembers.lookup "user" =
          some (Json.ofOption .string params.shared.user) := rfl
      simp only [missing, SharedParams.missing, required, List.filter_cons, directory, user,
        isNull_ofOption text, List.filter_nil]
      generalize params.shared.buildJsonDir.isNone = noDirectory
      generalize params.shared.user.isNone = noUser
      revert noDirectory noUser
      decide +kernel

theorem ensureComplete_eq (params : Params) : params.ensureComplete =
    if params.missing = [] then .ok () else .error (.params (.missing params.missing)) := by
  split
  next complete => exact ensureComplete_of_missing_eq_nil complete
  next incomplete => exact ensureComplete_of_missing_ne_nil incomplete

end Params

/-! ## Builds -/

/-- The rule that the images a build starts from are pulled by their digests, if those are given. -/
def ImageParams.digestRule (params : ImageParams) : Rule where
  phase := "prebuild_plugins"
  plugin := "pull_base_image"
  args := Members.optional "parent_images_digests"
    (params.parentImagesDigests.filter Json.isTruthy)
  mandatory := true

/-- Of the rules of an image build one is mandatory. -/
theorem ImageParams.mandatory_iff {params : ImageParams} {rule : Rule} :
    (rule ∈ params.rules ∧ rule.mandatory = true) ↔ rule = params.digestRule := by
  constructor
  · rintro ⟨here, must⟩
    simp only [rules, List.mem_cons, List.not_mem_nil, or_false] at here
    rcases here with rfl | rfl | rfl | rfl | rfl | rfl | rfl | rfl | rfl | rfl | rfl | rfl | rfl |
      rfl | rfl | rfl | rfl | rfl | rfl | rfl | rfl | rfl
    all_goals first | rfl | cases must
  · rintro rfl
    exact ⟨by simp [rules, digestRule, Rule.prebuild], rfl⟩

theorem SourcesParams.not_mandatory {params : SourcesParams} :
    ∀ rule ∈ params.rules, ¬ rule.mandatory = true := by
  simp [rules, Rule.target, Rule.tagTarget]

namespace Params

variable {params : Params} {template : Template} {error : PluginError}

theorem mandatory_unique : ∀ rule ∈ params.rules, ∀ other ∈ params.rules,
    rule.mandatory = true → other.mandatory = true → rule = other := by
  cases params with
  | image params =>
      intro rule here other there must mustToo
      rw [ImageParams.mandatory_iff.1 ⟨here, must⟩, ImageParams.mandatory_iff.1 ⟨there, mustToo⟩]
  | sources params =>
      exact fun rule here _ _ must _ => absurd must (SourcesParams.not_mandatory rule here)

/-- Filling in fails for parameters that are not complete, and else as a rule that refuses the
customized template. -/
theorem fill_error_iff : params.fill template = .error error ↔
    (params.missing ≠ [] ∧ error = .params (.missing params.missing)) ∨
      params.missing = [] ∧ ∃ rule ∈ params.rules, rule.Refuses template.customized error := by
  rw [fill, ensureComplete_eq]
  by_cases complete : params.missing = []
  · rw [if_pos complete, ← Rule.foldlM_apply_error_iff_of_unique mandatory_unique]
    simp only [ne_eq, complete, not_true, false_and, true_and, false_or]
    rfl
  · rw [if_neg complete]
    simp only [ne_eq, complete, not_false_eq_true, true_and, false_and, or_false]
    exact ⟨fun failed => (Except.error.inj failed).symm, congrArg Except.error ∘ Eq.symm⟩

/-- Some rule refuses a template just when the build is of an image, digests of the images that it
starts from are given, and there is no plugin to pull them. -/
theorem exists_refuses_iff : (∃ rule ∈ params.rules, rule.Refuses template error) ↔
    ∃ image digests, params = .image image ∧ image.parentImagesDigests = some digests ∧
      digests.isTruthy = true ∧
      template.get "prebuild_plugins" "pull_base_image" = .error error := by
  constructor
  · rintro ⟨rule, here, refuses⟩
    cases params with
    | image image =>
        have same : rule = image.digestRule := ImageParams.mandatory_iff.1 ⟨here, refuses.mandatory⟩
        rw [same] at refuses
        cases given : image.parentImagesDigests with
        | none =>
            exact absurd (by rw [ImageParams.digestRule, given]; rfl) refuses.assigns
        | some digests =>
            cases truthy : digests.isTruthy with
            | false =>
                refine absurd ?_ refuses.assigns
                rw [ImageParams.digestRule, given, Option.filter_some_neg (by simp [truthy])]
                rfl
            | true => exact ⟨image, digests, rfl, given, truthy, refuses.lookup⟩
    | sources sources =>
        exact absurd refuses.mandatory (SourcesParams.not_mandatory rule here)
  · rintro ⟨image, digests, rfl, given, truthy, lookup⟩
    refine ⟨image.digestRule, (ImageParams.mandatory_iff.2 rfl).1, rfl, ?_, lookup⟩
    rw [ImageParams.digestRule, given, Option.filter_some_pos truthy]
    exact List.cons_ne_nil _ _

/-- Rendering fails for parameters that are not complete, which are named, whatever the template
is; and else only where an image build has digests of the images that it starts from, and the
customized template has no plugin to pull them. -/
theorem render_error_iff :
    (params.render template = .error error ↔
      (params.missing ≠ [] ∧ error = .params (.missing params.missing)) ∨
        params.missing = [] ∧ ∃ image digests, params = .image image ∧
          image.parentImagesDigests = some digests ∧ digests.isTruthy = true ∧
          ((template.customized.phase? "prebuild_plugins" = none ∧
              error = .missingPhase "prebuild_plugins") ∨
            ∃ plugins, template.customized.phase? "prebuild_plugins" = some plugins ∧
              "pull_base_image" ∉ plugins.map Plugin.name ∧
              error = .missingPlugin "pull_base_image")) ∧
    params.missing =
      params.required.filter fun name => params.toMembers.lookup name == some .null := by
  refine ⟨?_, params.missing_eq⟩
  simp only [← Template.get_error_iff, ← exists_refuses_iff, ← fill_error_iff]
  rw [render]
  cases params.fill template with
  | ok filled => exact iff_of_false (fun failed => by cases failed) fun failed => by cases failed
  | error cause => rw [Except.map, Except.error.injEq, Except.error.injEq]

/-- A complete image build that starts from images of known digests. -/
def pinned : Params :=
  .image { ImageParams.default with
    shared := { SharedParams.default with buildJsonDir := some "inputs", user := some "builder" }
    buildType := some .worker
    gitUri := some "rpms/python.git"
    parentImagesDigests := some (.object [("fedora:30", .string "sha256:abc")]) }

/-- A template with the plugin that pulls images, which the site takes out. -/
def withoutPulling : Template where
  listed := .ofPairs [("prebuild_plugins", [⟨"koji", none, []⟩, ⟨"pull_base_image", none, []⟩])]
  customization := ⟨[.array [.string "prebuild_plugins", .string "pull_base_image"]], []⟩

theorem render_error_iff_withoutPulling :
    pinned.render withoutPulling = .error (.missingPlugin "pull_base_image") :=
  render_error_iff.1.2 (.inr ⟨by decide +kernel, _, _, rfl, rfl, rfl,
    .inr ⟨[⟨"koji", none, []⟩], by decide +kernel, by decide, rfl⟩⟩)

end Params
end ContainerBuild
