import ContainerBuild.Proofs.Outcomes
import ContainerBuild.Proofs.Plugin.Filling
import Mathlib.Data.List.Perm.Basic

namespace ContainerBuild

/-!
# What filling in leaves alone

The rendered document has the phases and entries of the customized template (`Filled.same`), says
something else only in arguments that a rule sets, and only in the first entry of a name
(`Filled.changed`, `Filled.unassigned`).  What becomes of the entries of a name is a function of
those entries and the parameters (`Filled.entries`), so it makes no difference what else a template
has (`Filled.elsewhere`), nor in which order the rules come (`Filled.anyOrder`).
-/

/-! ## The order of rules -/

namespace Rule

/-- The plugin that a rule speaks of. -/
def place (rule : Rule) : String × String := (rule.phase, rule.plugin)

/-- Rules about different plugins assign the same in every order. -/
theorem assigned_perm {rules order : List Rule} (distinct : (rules.map place).Nodup)
    (permuted : order.Perm rules) (phase name : String) :
    assigned order phase name = assigned rules phase name := by
  rw [assigned, assigned]
  have few : (rules.filter fun rule => rule.phase = phase ∧ rule.plugin = name).length ≤ 1 := by
    have once := List.nodup_iff_count_le_one.1 distinct (phase, name)
    rw [List.count, List.countP_map, List.countP_eq_length_filter] at once
    have chosen : rules.filter (fun rule => rule.phase = phase ∧ rule.plugin = name) =
        rules.filter ((· == (phase, name)) ∘ place) := List.filter_congr fun rule _ => by
      rw [Bool.eq_iff_iff, decide_eq_true_iff, Function.comp_apply, beq_iff_eq, place,
        Prod.mk.injEq]
    rwa [chosen]
  have same := permuted.filter fun rule => decide (rule.phase = phase ∧ rule.plugin = name)
  generalize rules.filter _ = chosen at few same
  rcases Nat.le_one_iff_eq_zero_or_eq_one.1 few with none | one
  · rw [List.length_eq_zero_iff.1 none] at same ⊢
    rw [same.eq_nil]
  · rcases List.length_eq_one_iff.1 one with ⟨rule, rfl⟩
    rw [List.perm_singleton.1 same]

end Rule

/-- A build has one rule for every plugin that it speaks of. -/
theorem Params.nodup_places (params : Params) : (params.rules.map Rule.place).Nodup := by
  cases params with
  | image params => simp [Params.rules, ImageParams.rules, Rule.place, Rule.target, Rule.tagTarget,
      Rule.prebuild, Rule.postbuild, Rule.buildStep, Rule.exit]
  | sources params => simp [Params.rules, SourcesParams.rules, Rule.place, Rule.target,
      Rule.tagTarget, Rule.prebuild, Rule.postbuild, Rule.exit]

/-! ## Entries -/

namespace Plugin

/-- The text of an entry. -/
def text (plugin : Plugin) : String := plugin.toJson.spaced

/-- Setting arguments leaves the other arguments alone, their order included. -/
theorem filter_setArgs (kept : String → Bool) {args : Members Json}
    (dropped : ∀ name ∈ args.names, kept name = false) (plugin : Plugin) :
    ((plugin.setArgs args).args.getD []).filter (fun arg => kept arg.1) =
      (plugin.args.getD []).filter fun arg => kept arg.1 := by
  induction args generalizing plugin with
  | nil => rfl
  | cons arg rest inductionHypothesis =>
      have parts := List.forall_mem_cons.1 dropped
      exact (inductionHypothesis parts.2 (plugin.setArg arg.1 arg.2)).trans
        (Members.filter_put parts.1)

/-- Change the first of some entries. -/
def changeHead (change : Plugin → Plugin) : List Plugin → List Plugin
  | [] => []
  | plugin :: rest => change plugin :: rest

theorem mapFirst_of_same_name {change : Plugin → Plugin} {name : String} {plugins : List Plugin}
    (named : ∀ plugin ∈ plugins, plugin.name = name) :
    mapFirst change [] plugins = changeHead change plugins := by
  cases plugins with
  | nil => rfl
  | cons plugin rest =>
      have parts := List.forall_mem_cons.1 named
      have others : mapFirst change [plugin.name] rest = rest :=
        mapFirst_of_forall fun later here fresh => absurd
          (List.mem_singleton.2 ((parts.2 later here).trans parts.1.symm)) fresh
      rw [mapFirst, if_neg List.not_mem_nil, others, changeHead]

end Plugin

namespace Template

/-- The entry at a place of a phase. -/
def entryAt? (template : Template) (phase : String) (place : Nat) : Option Plugin :=
  (template.phase? phase).bind fun plugins => plugins[place]?

/-- The entries of a name in a phase, in order. -/
def entries (template : Template) (phase name : String) : List Plugin :=
  ((template.phase? phase).getD []).filter fun plugin => plugin.name == name

/-- No earlier entry of the phase has a name. -/
def NoneBefore (template : Template) (phase : String) (place : Nat) (name : String) : Prop :=
  ∀ earlier < place, ∀ plugin, template.entryAt? phase earlier = some plugin → plugin.name ≠ name

end Template

/-! ## The frame -/

/-- What a build makes of a customized template. -/
structure Params.Filled (params : Params) (before after : Template) : Prop where
  /-- The phases are the same, in the same order. -/
  phases : after.phases.names = before.phases.names
  /-- Each phase has as many entries as before, and at each place the entry has the name that was
  there, and the members that are not modelled. -/
  same : ∀ phase, (after.phase? phase).map (List.map fun plugin => (plugin.name, plugin.extra)) =
    (before.phase? phase).map (List.map fun plugin => (plugin.name, plugin.extra))
  /-- Arguments are only changed in the first entry of a name that has a rule. -/
  changed : ∀ phase place old new, before.entryAt? phase place = some old →
    after.entryAt? phase place = some new → new.args ≠ old.args →
      before.NoneBefore phase place old.name ∧
        ∃ rule ∈ params.rules, rule.phase = phase ∧ rule.plugin = old.name
  /-- Arguments that no rule sets keep their values and their order. -/
  unassigned : ∀ phase place old new, before.entryAt? phase place = some old →
    after.entryAt? phase place = some new →
      (new.args.getD []).filter
          (fun arg => arg.1 ∉ (Rule.assigned params.rules phase old.name).names) =
        (old.args.getD []).filter
          fun arg => arg.1 ∉ (Rule.assigned params.rules phase old.name).names
  /-- What becomes of the entries of a name is a function of them and the parameters. -/
  entries : ∀ phase name, after.entries phase name =
    Plugin.changeHead (Plugin.setArgs (Rule.assigned params.rules phase name))
      (before.entries phase name)
  /-- The same entries become of them in every other template that can be filled in. -/
  elsewhere : ∀ other otherFilled, params.fill other = .ok otherFilled → ∀ phase name,
    other.customized.entries phase name = before.entries phase name →
      otherFilled.entries phase name = after.entries phase name
  /-- The rules come to the same in every order. -/
  anyOrder : ∀ order : List Rule, order.Perm params.rules →
    order.foldlM Rule.apply before = .ok after

namespace Template

variable {template : Template} {rules : List Rule}

theorem phase?_filledBy (phase : String) : (template.filledBy rules).phase? phase =
    (template.phase? phase).map
      (Plugin.mapFirst (fun plugin => plugin.setArgs (Rule.assigned rules phase plugin.name)) []) :=
  phase?_mapFirst phase

theorem same_filledBy (phase : String) :
    ((template.filledBy rules).phase? phase).map
        (List.map fun plugin => (plugin.name, plugin.extra)) =
      (template.phase? phase).map (List.map fun plugin => (plugin.name, plugin.extra)) := by
  rw [phase?_filledBy, Option.map_map]
  refine congrArg (Option.map · _) (funext fun plugins => List.ext_getElem? fun place => ?_)
  rw [Function.comp_apply, List.getElem?_map, List.getElem?_map, Plugin.getElem?_mapFirst,
    Option.map_map]
  refine congrArg (Option.map · _) (funext fun plugin => ?_)
  rw [Function.comp_apply]
  split
  · rfl
  · rw [Plugin.name_setArgs, Plugin.extra_setArgs]

/-- An entry that is filled in is as it was, or it is the first of its name and has what the rules
assign. -/
theorem entryAt?_filledBy {phase : String} {place : Nat} {old new : Plugin}
    (before : template.entryAt? phase place = some old)
    (after : (template.filledBy rules).entryAt? phase place = some new) :
    new = old ∨ template.NoneBefore phase place old.name ∧
      new = old.setArgs (Rule.assigned rules phase old.name) := by
  rw [entryAt?] at before
  rw [entryAt?, phase?_filledBy] at after
  cases found : template.phase? phase with
  | none => simp [found] at before
  | some plugins =>
      rw [found, Option.bind_some] at before
      rw [found, Option.map_some, Option.bind_some, Plugin.getElem?_mapFirst, before,
        Option.map_some, Option.some.injEq] at after
      split at after
      · exact .inl after.symm
      next first =>
        refine .inr ⟨fun earlier less plugin here same => first (.inr ?_), after.symm⟩
        rw [entryAt?, found, Option.bind_some] at here
        refine List.mem_map.2 ⟨plugin, ?_, same⟩
        exact List.mem_of_getElem? ((List.getElem?_take_of_lt less).trans here)

theorem entries_filledBy (phase name : String) : (template.filledBy rules).entries phase name =
    Plugin.changeHead (Plugin.setArgs (Rule.assigned rules phase name))
      (template.entries phase name) := by
  rw [entries, phase?_filledBy, entries]
  cases template.phase? phase with
  | none => rfl
  | some plugins =>
      have named : ∀ plugin ∈ plugins.filter (fun plugin => plugin.name == name),
          plugin.name = name := fun plugin here => beq_iff_eq.1 (List.mem_filter.1 here).2
      have alike : Plugin.mapFirst
          (fun plugin => plugin.setArgs (Rule.assigned rules phase plugin.name)) []
            (plugins.filter fun plugin => plugin.name == name) =
          Plugin.mapFirst (Plugin.setArgs (Rule.assigned rules phase name)) []
            (plugins.filter fun plugin => plugin.name == name) :=
        Plugin.mapFirst_congr fun plugin here _ => by rw [named plugin here]
      rw [Option.map_some, Option.getD_some, Option.getD_some,
        Plugin.filter_mapFirst (fun plugin => Plugin.name_setArgs _ plugin) Iff.rfl, alike,
        Plugin.mapFirst_of_same_name named]

theorem get_of_phase? {phase name : String} {plugins : List Plugin}
    (found : template.phase? phase = some plugins) : template.get phase name =
      (Plugin.find? name plugins).elim (.error (.missingPlugin name)) .ok := by
  simp only [get, Template.phase, found, bind, Except.bind]
  cases Plugin.find? name plugins <;> rfl

theorem get_of_no_phase {phase : String} (missing : template.phase? phase = none) (name : String) :
    template.get phase name = .error (.missingPhase phase) := by
  rw [get, Template.phase, missing]
  rfl

theorem get_ok_iff {phase name : String} {plugin : Plugin} :
    template.get phase name = .ok plugin ↔
      (template.entries phase name).head? = some plugin := by
  rw [entries]
  cases found : template.phase? phase with
  | none => simp [get_of_no_phase found]
  | some plugins =>
      rw [get_of_phase? found, Option.getD_some, List.head?_filter, ← Plugin.find?]
      cases Plugin.find? name plugins <;> simp

/-- The first entry of a name is filled in with what the rules assign to it. -/
theorem get_filledBy {phase name : String} {plugin : Plugin}
    (found : template.get phase name = .ok plugin) :
    (template.filledBy rules).get phase name =
      .ok (plugin.setArgs (Rule.assigned rules phase name)) := by
  rw [get_ok_iff, entries_filledBy]
  have first := get_ok_iff.1 found
  cases entries : template.entries phase name with
  | nil => simp [entries] at first
  | cons entry rest =>
      rw [entries, List.head?_cons, Option.some.injEq] at first
      rw [first]
      rfl

end Template

namespace Params

variable {params : Params} {template filled : Template}

theorem fill_ok_iff : params.fill template = .ok filled ↔ params.ensureComplete = .ok () ∧
    (∀ rule ∈ params.rules, rule.Applicable template.customized) ∧
      filled = template.customized.filledBy params.rules := by
  rw [fill]
  cases params.ensureComplete with
  | error error => simp [bind, Except.bind]
  | ok complete =>
      rw [and_iff_right rfl, ← Rule.foldlM_apply_ok_iff]
      rfl

theorem filled_of_fill (done : params.fill template = .ok filled) :
    params.Filled template.customized filled := by
  rcases fill_ok_iff.1 done with ⟨-, applicable, rfl⟩
  constructor
  case phases => exact Template.names_mapPhases
  case same => exact Template.same_filledBy
  case changed =>
    intro phase place old new before after differ
    rcases Template.entryAt?_filledBy before after with equal | ⟨first, equal⟩
    · exact absurd (congrArg Plugin.args equal) differ
    · refine ⟨first, ?_⟩
      by_contra none
      have nothing : Rule.assigned params.rules phase old.name = [] := by
        rw [Rule.assigned, List.filter_eq_nil_iff.2 fun rule here chosen =>
          none ⟨rule, here, of_decide_eq_true chosen⟩, List.flatMap_nil]
      rw [equal, nothing] at differ
      exact differ rfl
  case unassigned =>
    intro phase place old new before after
    rcases Template.entryAt?_filledBy before after with equal | ⟨-, equal⟩
    · rw [equal]
    · rw [equal]
      exact Plugin.filter_setArgs
        (fun name => decide (name ∉ (Rule.assigned params.rules phase old.name).names))
        (fun name here => decide_eq_false fun absent => absent here) old
  case entries => exact Template.entries_filledBy
  case elsewhere =>
    intro other otherFilled otherDone phase name same
    rw [(fill_ok_iff.1 otherDone).2.2, Template.entries_filledBy,
      Template.entries_filledBy, same]
  case anyOrder =>
    intro order permuted
    refine Rule.foldlM_apply_ok_iff.2 ⟨fun rule here =>
      applicable rule (permuted.mem_iff.1 here), ?_⟩
    simp only [Template.filledBy, Rule.assigned_perm params.nodup_places permuted]

end Params

/-! ## The document -/

namespace Json

theorem writeItems_eq_intercalate (style : Style) (items : List Json) :
    writeItems style items = style.comma.intercalate (items.map (write style)) := by
  induction items with
  | nil => rfl
  | cons item rest inductionHypothesis =>
      cases rest with
      | nil => rw [writeItems, List.map_singleton, List.intercalate_singleton]
      | cons next rest =>
          rw [writeItems, inductionHypothesis]
          · exact List.intercalate_cons_cons.symm
          · exact List.cons_ne_nil _ _

/-- The text of a member. -/
def writeMember (style : Style) (member : String × Json) : List Char :=
  Quoted.write style.ascii member.1 ++ style.colon ++ member.2.write style

theorem writeMembers_eq_intercalate (style : Style) (members : Members Json) :
    writeMembers style members = style.comma.intercalate (members.map (writeMember style)) := by
  induction members with
  | nil => rfl
  | cons member rest inductionHypothesis =>
      rcases member with ⟨name, value⟩
      cases rest with
      | nil => rw [writeMembers, List.map_singleton, List.intercalate_singleton, writeMember]
      | cons next rest =>
          rw [writeMembers, inductionHypothesis]
          · exact List.intercalate_cons_cons.symm
          · exact List.cons_ne_nil _ _

end Json

namespace Template

/-- The text of a phase: its name and the texts of its entries. -/
def phaseText (phase : String × List Plugin) : String :=
  (Json.string phase.1).spaced ++ ": [" ++ ", ".intercalate (phase.2.map Plugin.text) ++ "]"

/-- The text of phases, one after another. -/
def document (phases : Members (List Plugin)) : String :=
  "\x7b" ++ ", ".intercalate (phases.map phaseText) ++ "\x7d"

theorem toList_phaseText (phase : String × List Plugin) : (phaseText phase).toList =
    Json.writeMember .spaced (phase.1, .array (phase.2.map Plugin.toJson)) := by
  have entries : (phase.2.map Plugin.text).map String.toList =
      (phase.2.map Plugin.toJson).map (Json.write .spaced) := by
    rw [List.map_map, List.map_map]
    exact List.map_congr_left fun plugin _ => String.toList_ofList
  rw [phaseText, Json.spaced, String.toList_append, String.toList_append, String.toList_append,
    String.toList_intercalate, String.toList_ofList, entries, Json.writeMember, Json.write,
    Json.write, Json.writeItems_eq_intercalate]
  simp only [List.append_assoc]
  rfl

/-- The text of a template is made of the texts of its entries, phase by phase. -/
theorem text_eq (template : Template) : template.text = document template.phases := by
  have phases : (template.phases.map phaseText).map String.toList =
      (template.phases.map fun phase => (phase.1, Json.array (phase.2.map Plugin.toJson))).map
        (Json.writeMember .spaced) := by
    rw [List.map_map, List.map_map]
    exact List.map_congr_left fun phase _ => toList_phaseText phase
  rw [← String.toList_inj, document, String.toList_append, String.toList_append,
    String.toList_intercalate, phases, text, toJson, Json.spaced, String.toList_ofList, Json.write,
    Json.writeMembers_eq_intercalate]
  rfl

end Template

/-- What is rendered is the document of the customized template with its entries filled in one by
one. -/
theorem Params.render_entrywise {params : Params} {template : Template} {text : String}
    (rendered : params.render template = .ok text) :
    ∃ filled, params.fill template = .ok filled ∧ text = Template.document filled.phases ∧
      params.Filled template.customized filled := by
  rw [render] at rendered
  cases done : params.fill template with
  | error error => simp [done, Except.map] at rendered
  | ok filled =>
      rw [done] at rendered
      refine ⟨filled, rfl, ?_, filled_of_fill done⟩
      rw [← Except.ok.inj rendered, Template.text_eq]

/-- A build with a target. -/
def Params.targeted : Params :=
  .sources ⟨{ SharedParams.default with
    buildJsonDir := some "inputs", user := some "builder", kojiTarget := some "f40" }, none, none⟩

/-- A template with two entries for the plugin that asks about the target, where the site takes
another plugin out. -/
def Template.twoOfAName : Template where
  listed := .ofPairs
    [("postbuild_plugins", [⟨"koji", none, []⟩]),
      ("prebuild_plugins", [⟨"reactor_config", none, []⟩,
        ⟨"koji", some [("target", .string "old"), ("hub", .null)], [("required", .bool false)]⟩,
        ⟨"koji", none, []⟩])]
  customization := ⟨[.array [.string "prebuild_plugins", .string "reactor_config"]], []⟩

theorem Params.render_entrywise_twoOfAName :
    let before := Template.twoOfAName.customized
    ∃ text filled, targeted.render Template.twoOfAName = .ok text ∧
      text = Template.document filled.phases ∧ targeted.Filled before filled ∧
      before.entries "prebuild_plugins" "koji" =
        [⟨"koji", some [("target", .string "old"), ("hub", .null)], [("required", .bool false)]⟩,
          ⟨"koji", none, []⟩] ∧
      filled.entries "prebuild_plugins" "koji" =
        [⟨"koji", some [("target", .string "f40"), ("hub", .null)], [("required", .bool false)]⟩,
          ⟨"koji", none, []⟩] := by
  have evaluated : (targeted.render Template.twoOfAName).toBool = true := by decide +kernel
  rcases Except.exists_ok_of_toBool evaluated with ⟨text, rendered⟩
  rcases render_entrywise rendered with ⟨filled, -, written, entrywise⟩
  refine ⟨text, filled, rendered, written, entrywise, by decide +kernel, ?_⟩
  rw [entrywise.entries]
  decide +kernel

end ContainerBuild
