import ContainerBuild.Proofs.Plugin.Frame
import Mathlib.Data.List.Induction

namespace ContainerBuild

/-!
# What a customization comes to

A customization is applied one entry after another, and entries about one plugin build on each
other.  What they come to is said at once by `Customization.applied`: of every name the first
plugins are taken out, as many as there are entries for it; those that stay get the arguments of
the last entry for them; and one plugin is added for every other name that is put in.  Each phase
is changed by itself (`Template.customized_eq_mapPhases`), and entries that cannot be understood
or speak of a phase that is not there count for nothing (`Template.customized_closed`).
-/

/-! ## Taking plugins out -/

namespace Plugin

/-- A list without the first plugins of every name, as many as the name is among those to be taken
out.  So a plugin stays if as many of its name were seen before it. -/
def withoutFirst (taken : List String) : List String → List Plugin → List Plugin
  | _, [] => []
  | seen, plugin :: rest =>
      let later := withoutFirst taken (plugin.name :: seen) rest
      if taken.count plugin.name ≤ seen.count plugin.name then plugin :: later else later

section WithoutFirst

variable {taken seen : List String} {plugins : List Plugin}

/-- Only how often a name is to be taken out matters, and that only as far as it was not seen. -/
theorem withoutFirst_congr {other : List String} (same : ∀ name count, seen.count name ≤ count →
    (taken.count name ≤ count ↔ other.count name ≤ count)) :
    withoutFirst taken seen plugins = withoutFirst other seen plugins := by
  induction plugins generalizing seen with
  | nil => rfl
  | cons plugin rest inductionHypothesis =>
      have later : withoutFirst taken (plugin.name :: seen) rest =
          withoutFirst other (plugin.name :: seen) rest :=
        inductionHypothesis fun name count more =>
          same name count (Nat.le_trans List.count_le_count_cons more)
      rw [withoutFirst, withoutFirst, later]
      simp only [same plugin.name _ (Nat.le_refl _)]

theorem withoutFirst_perm {other : List String} (permuted : taken.Perm other) :
    withoutFirst taken seen plugins = withoutFirst other seen plugins :=
  withoutFirst_congr fun name _ _ => by rw [permuted.count_eq name]

theorem withoutFirst_nil : withoutFirst [] seen plugins = plugins := by
  induction plugins generalizing seen with
  | nil => rfl
  | cons plugin rest inductionHypothesis =>
      rw [withoutFirst, inductionHypothesis, List.count_nil, if_pos (Nat.zero_le _)]

theorem withoutFirst_sublist : (withoutFirst taken seen plugins).Sublist plugins := by
  induction plugins generalizing seen with
  | nil => exact List.Sublist.refl _
  | cons plugin rest inductionHypothesis =>
      rw [withoutFirst]
      split
      · exact inductionHypothesis.cons_cons plugin
      · exact inductionHypothesis.cons plugin

/-- Of the plugins of a name the first are missing, as many as are taken out. -/
theorem filter_withoutFirst (name : String) :
    (withoutFirst taken seen plugins).filter (fun plugin => plugin.name == name) =
      (plugins.filter fun plugin => plugin.name == name).drop
        (taken.count name - seen.count name) := by
  induction plugins generalizing seen with
  | nil => exact List.drop_nil.symm
  | cons plugin rest inductionHypothesis =>
      have later := @inductionHypothesis (plugin.name :: seen)
      rw [withoutFirst]
      by_cases same : plugin.name = name
      · subst same
        rw [List.count_cons_self] at later
        rw [List.filter_cons_of_pos (by simp)]
        split
        next enough =>
          rw [List.filter_cons_of_pos (by simp), later, Nat.sub_eq_zero_of_le enough,
            Nat.sub_eq_zero_of_le (Nat.le_succ_of_le enough), List.drop_zero, List.drop_zero]
        next few =>
          have more : taken.count plugin.name - seen.count plugin.name =
              taken.count plugin.name - (seen.count plugin.name + 1) + 1 := by omega
          rw [later, more, List.drop_succ_cons]
      · rw [List.count_cons_of_ne same] at later
        rw [List.filter_cons_of_neg (by simpa using same), ← later]
        split
        · exact List.filter_cons_of_neg (by simpa using same)
        · rfl

/-- Taking out one more is taking out the first that stayed. -/
theorem removeFirst_withoutFirst {name : String} (few : seen.count name ≤ taken.count name) :
    removeFirst name (withoutFirst taken seen plugins) =
      withoutFirst (taken ++ [name]) seen plugins := by
  induction plugins generalizing seen with
  | nil => rfl
  | cons plugin rest inductionHypothesis =>
      rw [withoutFirst, withoutFirst, List.count_append]
      by_cases same : plugin.name = name
      · subst same
        rw [List.count_singleton_self]
        have gone : ¬ taken.count plugin.name + 1 ≤ seen.count plugin.name := by omega
        rw [if_neg gone]
        split
        next enough =>
          -- From here on plugins of the name stay in both lists.
          rw [removeFirst, List.eraseP_cons_of_pos (by simp)]
          refine withoutFirst_congr fun other count more => ?_
          rw [List.count_append]
          by_cases again : other = plugin.name
          · subst again
            rw [List.count_cons_self] at more
            rw [List.count_singleton_self]
            omega
          · rw [List.count_singleton, beq_false_of_ne (Ne.symm again)]
            rfl
        next fewer =>
          exact inductionHypothesis (by rw [List.count_cons_self]; omega)
      · have later := @inductionHypothesis (plugin.name :: seen)
          (by rwa [List.count_cons_of_ne same])
        rw [List.count_singleton, beq_false_of_ne (Ne.symm same), ← later]
        simp only [Bool.false_eq_true, if_false, Nat.add_zero]
        split
        · exact List.eraseP_cons_of_neg (by simpa using same)
        · rfl

end WithoutFirst

theorem foldl_removeFirst (taken : List String) (plugins : List Plugin) :
    taken.foldl (fun plugins name => removeFirst name plugins) plugins =
      withoutFirst taken [] plugins := by
  induction taken using List.reverseRecOn with
  | nil => exact withoutFirst_nil.symm
  | append_singleton taken name inductionHypothesis =>
      rw [List.foldl_concat, inductionHypothesis,
        removeFirst_withoutFirst (Nat.zero_le _)]

end Plugin

/-! ## Putting plugins in -/

/-- The arguments that the last of some entries for a name says. -/
def Enabling.argsFor? (enablings : List Enabling) (name : String) : Option (Members Json) :=
  (enablings.filter fun enabling => enabling.name == name).getLast?.map Enabling.args

theorem Enabling.argsFor?_concat (enablings : List Enabling) (last : Enabling) (name : String) :
    argsFor? (enablings ++ [last]) name =
      if last.name = name then some last.args else argsFor? enablings name := by
  rw [argsFor?, List.filter_append]
  by_cases same : last.name = name
  · rw [List.filter_cons_of_pos (by simpa using same), List.filter_nil, List.getLast?_concat,
      if_pos same]
    rfl
  · rw [List.filter_cons_of_neg (by simpa using same), List.filter_nil, List.append_nil,
      if_neg same]
    rfl

namespace Plugin

/-- A plugin with the arguments that the last entry for it says, if there is one. -/
def overridden (enablings : List Enabling) (plugin : Plugin) : Plugin :=
  { plugin with args := (Enabling.argsFor? enablings plugin.name).or plugin.args }

/-- The names that are put in where there is no such plugin, in the order of their first entry. -/
def newNames (enablings : List Enabling) (plugins : List Plugin) : List String :=
  (enablings.map Enabling.name).eraseDups.filter fun name => name ∉ plugins.map Plugin.name

/-- A list into which plugins are put: those that are there get the arguments of the last entry
for them, and one of every other name is added. -/
def withEnabled (enablings : List Enabling) (plugins : List Plugin) : List Plugin :=
  plugins.map (overridden enablings) ++
    (newNames enablings plugins).map fun name => ⟨name, Enabling.argsFor? enablings name, []⟩

section WithEnabled

variable {enablings : List Enabling} {plugins : List Plugin}

theorem withEnabled_nil : withEnabled [] plugins = plugins := by
  have same : overridden [] = id := rfl
  rw [withEnabled, same, List.map_id]
  exact List.append_nil plugins

theorem mem_newNames_iff {name : String} : name ∈ newNames enablings plugins ↔
    name ∈ enablings.map Enabling.name ∧ name ∉ plugins.map Plugin.name := by
  rw [newNames, List.mem_filter, List.mem_eraseDups, decide_eq_true_iff]

theorem mem_names_withEnabled_iff {name : String} :
    name ∈ (withEnabled enablings plugins).map Plugin.name ↔
      name ∈ plugins.map Plugin.name ∨ name ∈ newNames enablings plugins := by
  rw [withEnabled, List.map_append, List.mem_append, List.map_map, List.map_map]
  exact or_congr Iff.rfl (by rw [Function.comp_def, List.map_id'])

/-- Of an entry only a name that is missing so far is new. -/
theorem newNames_concat (last : Enabling) : newNames (enablings ++ [last]) plugins =
    newNames enablings plugins ++
      if last.name ∈ (withEnabled enablings plugins).map Plugin.name then [] else [last.name] := by
  rw [newNames, List.map_append, List.map_singleton, List.eraseDups_append, List.filter_append]
  refine congrArg (newNames enablings plugins ++ ·) ?_
  simp only [mem_names_withEnabled_iff, mem_newNames_iff]
  generalize enablings.map Enabling.name = earlier
  generalize plugins.map Plugin.name = present
  by_cases again : last.name ∈ earlier
  · simp [List.removeAll, again, Decidable.em]
  · by_cases there : last.name ∈ present <;>
      simp [List.removeAll, List.eraseDups_cons, again, there]

/-- What an entry does to a plugin. -/
theorem changeNamed_overridden (last : Enabling) (plugin : Plugin) :
    changeNamed last.name (fun plugin => { plugin with args := some last.args })
      (overridden enablings plugin) = overridden (enablings ++ [last]) plugin := by
  rw [changeNamed, overridden, overridden, Enabling.argsFor?_concat]
  by_cases same : last.name = plugin.name
  · rw [if_pos same, if_pos same.symm]
    rfl
  · rw [if_neg same, if_neg (Ne.symm same)]

/-- One more entry is put in on top of those before it. -/
theorem configure_withEnabled (last : Enabling) :
    configure last.name last.args (withEnabled enablings plugins) =
      withEnabled (enablings ++ [last]) plugins := by
  -- What the entry comes to if it adds nothing.
  have changed : (withEnabled enablings plugins).map
      (changeNamed last.name fun plugin => { plugin with args := some last.args }) =
        plugins.map (overridden (enablings ++ [last])) ++ (newNames enablings plugins).map
          fun name => ⟨name, Enabling.argsFor? (enablings ++ [last]) name, []⟩ := by
    rw [withEnabled, List.map_append, List.map_map, List.map_map]
    refine congrArg₂ (· ++ ·) (List.map_congr_left fun plugin _ => ?_)
      (List.map_congr_left fun name _ => ?_)
    · exact changeNamed_overridden last plugin
    · rw [Function.comp_apply, changeNamed, Enabling.argsFor?_concat]
      by_cases same : last.name = name
      · rw [if_pos same, if_pos same.symm]
      · rw [if_neg same, if_neg (Ne.symm same)]
  have there : ((withEnabled enablings plugins).any fun plugin => plugin.name == last.name) = true ↔
      last.name ∈ (withEnabled enablings plugins).map Plugin.name := by
    rw [List.any_eq_true, List.mem_map]
    simp only [beq_iff_eq]
  have added : withEnabled (enablings ++ [last]) plugins = (withEnabled enablings plugins).map
      (changeNamed last.name fun plugin => { plugin with args := some last.args }) ++
        (if last.name ∈ (withEnabled enablings plugins).map Plugin.name then []
          else [last.name]).map
            fun name => ⟨name, Enabling.argsFor? (enablings ++ [last]) name, []⟩ := by
    rw [changed, List.append_assoc, ← List.map_append, ← newNames_concat, withEnabled]
  rw [configure, added]
  by_cases named : last.name ∈ (withEnabled enablings plugins).map Plugin.name
  · rw [if_pos (there.2 named), if_pos named, List.map_nil, List.append_nil]
    rfl
  · have untouched : (withEnabled enablings plugins).map
        (changeNamed last.name fun plugin => { plugin with args := some last.args }) =
          withEnabled enablings plugins := by
      refine (List.map_congr_left fun plugin here => if_neg fun same => ?_).trans
        (List.map_id' _)
      exact named (List.mem_map.2 ⟨plugin, here, same⟩)
    rw [if_neg (mt there.1 named), if_neg named, untouched, List.map_singleton,
      Enabling.argsFor?_concat, if_pos rfl]
    rfl

end WithEnabled

theorem foldl_configure (enablings : List Enabling) (plugins : List Plugin) :
    enablings.foldl (fun plugins enabling => configure enabling.name enabling.args plugins)
      plugins = withEnabled enablings plugins := by
  induction enablings using List.reverseRecOn with
  | nil => exact withEnabled_nil.symm
  | append_singleton enablings last inductionHypothesis =>
      rw [List.foldl_concat, inductionHypothesis, configure_withEnabled]

end Plugin

/-! ## Entries

Entries of both lists are applied alike: one that can be read changes the phase that it names, if
the template has it.
-/

namespace Template

section Entries

variable {α : Type} (read : Json → Option α) (phaseOf : α → String)
  (edit : α → List Plugin → List Plugin)

/-- Apply an entry, if it can be understood and there is such a phase. -/
def change (template : Template) (entry : Json) : Template :=
  match read entry with
  | some plugin => template.orUnchanged (do
      let plugins ← template.phase (phaseOf plugin)
      .ok (template.withPhase (phaseOf plugin) (edit plugin plugins)))
  | none => template

/-- What an entry that was read does to the plugins of a phase. -/
def editOf (plugin : α) (phase : String) : List Plugin → List Plugin :=
  if phaseOf plugin == phase then edit plugin else id

variable {read phaseOf edit}

theorem change_of_none {template : Template} {entry : Json} (unread : read entry = none) :
    change read phaseOf edit template entry = template := by
  rw [change, unread]

theorem change_of_some {template : Template} {entry : Json} {plugin : α}
    (done : read entry = some plugin) : change read phaseOf edit template entry =
      template.mapPhases (editOf phaseOf edit plugin) := by
  simp only [change, done, Template.phase]
  cases found : template.phase? (phaseOf plugin) with
  | none =>
      have absent : phaseOf plugin ∉ template.phases.names :=
        Members.lookup_eq_none_iff_notMem.1 found
      refine mapPhases_id.symm.trans (mapPhases_congr fun other here => ?_)
      have different : phaseOf plugin ≠ other.1 :=
        fun same => absent (same ▸ List.mem_map_of_mem here)
      rw [editOf, beq_false_of_ne different]
      rfl
  | some plugins =>
      refine (withPhase_eq_mapPhases found (edit plugin)).trans
        (mapPhases_congr fun other _ => ?_)
      rw [editOf]
      by_cases same : other.1 = phaseOf plugin
      · rw [if_pos same, same, beq_self_eq_true, if_pos rfl]
      · rw [if_neg same, beq_false_of_ne (Ne.symm same)]
        rfl

/-- Entries applied one after another change each phase by itself, through those of them that can
be read and name it. -/
theorem foldl_change {template : Template} (entries : List Json) :
    entries.foldl (change read phaseOf edit) template =
      template.mapPhases fun phase plugins =>
        ((entries.filterMap read).filter fun plugin => phaseOf plugin == phase).foldl
          (fun plugins plugin => edit plugin plugins) plugins := by
  induction entries generalizing template with
  | nil => exact mapPhases_id.symm
  | cons entry rest inductionHypothesis =>
      rw [List.foldl_cons]
      cases done : read entry with
      | none =>
          rw [change_of_none done, List.filterMap_cons_none done]
          exact inductionHypothesis
      | some plugin =>
          rw [change_of_some done, List.filterMap_cons_some done, inductionHypothesis,
            mapPhases_mapPhases]
          refine mapPhases_congr fun phase _ => ?_
          rw [Function.comp_apply, editOf, List.filter_cons]
          split <;> rfl

variable (read phaseOf)

/-- Whether an entry can be understood and names one of the phases of a template. -/
def concerns (template : Template) (entry : Json) : Bool :=
  (read entry).any fun plugin => phaseOf plugin ∈ template.phases.names

variable {read phaseOf}

/-- The entries for a phase of the template are among those that concern the template. -/
theorem filter_filterMap_concerns {template : Template} {phase : String}
    (here : phase ∈ template.phases.names) (entries : List Json) :
    ((entries.filter (concerns read phaseOf template)).filterMap read).filter
        (fun plugin => phaseOf plugin == phase) =
      (entries.filterMap read).filter fun plugin => phaseOf plugin == phase := by
  induction entries with
  | nil => rfl
  | cons entry rest inductionHypothesis =>
      rw [List.filter_cons, concerns]
      cases done : read entry with
      | none =>
          rw [List.filterMap_cons_none done]
          exact inductionHypothesis
      | some plugin =>
          rw [List.filterMap_cons_some done, Option.any_some]
          by_cases known : phaseOf plugin ∈ template.phases.names
          · rw [if_pos (decide_eq_true known), List.filterMap_cons_some done, List.filter_cons,
              inductionHypothesis, List.filter_cons]
          · have different : phaseOf plugin ≠ phase := fun same => known (by rwa [same])
            rw [if_neg (mt of_decide_eq_true known), inductionHypothesis,
              List.filter_cons_of_neg (by simpa using different)]

end Entries

end Template

namespace Customization

/-- The names of the plugins that are taken out of a phase, one for each entry that can be
understood. -/
def taken (customization : Customization) (phase : String) : List String :=
  ((customization.disabled.filterMap Disabling.ofJson?).filter
    fun plugin => plugin.phase == phase).map Disabling.name

/-- The plugins that are put into a phase, one for each entry that can be understood. -/
def enablings (customization : Customization) (phase : String) : List Enabling :=
  (customization.enabled.filterMap Enabling.ofJson?).filter fun plugin => plugin.phase == phase

/-- What becomes of the plugins of a phase: the first of each name that is taken out go, those that
stay have the arguments that they are put in with, and what is missing is added. -/
def applied (customization : Customization) (phase : String) (plugins : List Plugin) :
    List Plugin :=
  Plugin.withEnabled (customization.enablings phase)
    (Plugin.withoutFirst (customization.taken phase) [] plugins)

/-- How often a name is taken out is how many entries say so. -/
theorem count_taken (customization : Customization) (phase name : String) :
    (customization.taken phase).count name =
      customization.disabled.countP fun entry => Disabling.ofJson? entry = some ⟨phase, name⟩ := by
  rw [taken, List.count, List.countP_map, List.countP_filter, List.countP_filterMap]
  refine List.countP_congr fun entry _ => ?_
  cases Disabling.ofJson? entry with
  | none => simp
  | some plugin =>
      rcases plugin with ⟨otherPhase, otherName⟩
      simp [and_comm]

end Customization

namespace Template

theorem disable_eq_change : disable =
    change Disabling.ofJson? Disabling.phase fun plugin => Plugin.removeFirst plugin.name := by
  funext template entry
  rw [disable, change]
  cases Disabling.ofJson? entry <;> rfl

theorem enable_eq_change : enable = change Enabling.ofJson? Enabling.phase
    fun plugin => Plugin.configure plugin.name plugin.args := by
  funext template entry
  rw [enable, change]
  cases Enabling.ofJson? entry <;> rfl

/-- Customizing changes each phase by itself. -/
theorem customized_eq_mapPhases {template : Template} :
    template.customized = template.mapPhases template.customization.applied := by
  rw [customized, disable_eq_change, enable_eq_change, foldl_change, foldl_change,
    mapPhases_mapPhases]
  refine mapPhases_congr fun phase _ => ?_
  rw [Function.comp_apply, Plugin.foldl_configure, Customization.applied, Customization.taken,
    ← Plugin.foldl_removeFirst, List.foldl_map]
  rfl

/-- Only the entries that concern a template count, and of those that take plugins out not even
the order. -/
theorem phases_customized_of_perm {template : Template} {other : Customization}
    (disabled : (other.disabled.filter (concerns Disabling.ofJson? Disabling.phase template)).Perm
      (template.customization.disabled.filter
        (concerns Disabling.ofJson? Disabling.phase template)))
    (enabled : other.enabled.filter (concerns Enabling.ofJson? Enabling.phase template) =
      template.customization.enabled.filter (concerns Enabling.ofJson? Enabling.phase template)) :
    ({ template with customization := other } : Template).customized.phases =
      template.customized.phases := by
  rw [customized_eq_mapPhases, customized_eq_mapPhases, phases_mapPhases, phases_mapPhases]
  refine List.map_congr_left fun phase member => ?_
  have here : phase.1 ∈ template.phases.names := List.mem_map_of_mem member
  have taken : (other.taken phase.1).Perm (template.customization.taken phase.1) := by
    rw [Customization.taken, Customization.taken, ← filter_filterMap_concerns here,
      ← filter_filterMap_concerns here template.customization.disabled]
    exact ((disabled.filterMap _).filter _).map _
  have enablings : other.enablings phase.1 = template.customization.enablings phase.1 := by
    rw [Customization.enablings, Customization.enablings, ← filter_filterMap_concerns here,
      enabled, filter_filterMap_concerns here]
  rw [Customization.applied, Customization.applied, enablings, Plugin.withoutFirst_perm taken]

/-- What customizing comes to, phase by phase; which plugins of a name go; and that all other
entries, and the order of those that take plugins out, make no difference. -/
theorem customized_closed (template : Template) :
    template.customized.phases = (template.phases.map fun phase =>
        (phase.1, template.customization.applied phase.1 phase.2)) ∧
    template.customized.customization = template.customization ∧
    (∀ phase plugins,
      (Plugin.withoutFirst (template.customization.taken phase) [] plugins).Sublist plugins ∧
      ∀ name, (Plugin.withoutFirst (template.customization.taken phase) [] plugins).filter
          (fun plugin => plugin.name == name) =
        (plugins.filter fun plugin => plugin.name == name).drop
          (template.customization.disabled.countP fun entry =>
            Disabling.ofJson? entry = some ⟨phase, name⟩)) ∧
    ∀ other : Customization,
      (other.disabled.filter (concerns Disabling.ofJson? Disabling.phase template)).Perm
        (template.customization.disabled.filter
          (concerns Disabling.ofJson? Disabling.phase template)) →
      other.enabled.filter (concerns Enabling.ofJson? Enabling.phase template) =
        template.customization.enabled.filter
          (concerns Enabling.ofJson? Enabling.phase template) →
      ({ template with customization := other } : Template).customized.phases =
        template.customized.phases := by
  refine ⟨congrArg Template.phases customized_eq_mapPhases, ?_, fun phase plugins =>
    ⟨Plugin.withoutFirst_sublist, fun name => ?_⟩, fun other => phases_customized_of_perm⟩
  · rw [customized_eq_mapPhases]
    rfl
  · rw [Plugin.filter_withoutFirst, Customization.count_taken, List.count_nil, Nat.sub_zero]

/-- A template of which a site takes out two plugins of one name and puts one of it in again, with
entries between that cannot be understood or name no phase. -/
def interacting : Template where
  listed := .ofPairs
    [("prebuild_plugins", [⟨"koji", none, []⟩, ⟨"reactor_config", none, []⟩,
        ⟨"koji", some [("hub", .null)], []⟩, ⟨"koji", none, [("required", .bool false)]⟩]),
      ("exit_plugins", [])]
  customization :=
    { disabled :=
        [.array [.string "prebuild_plugins", .string "koji"],
          .object [("plugin_type", .string "prebuild_plugins")],
          .array [.string "buildstep_plugins", .string "koji"],
          .object [("plugin_name", .string "koji"), ("plugin_type", .string "prebuild_plugins")]]
      enabled :=
        [.array [.string "exit_plugins", .string "sendmail", .object [("to", .string "me")]],
          .array [.string "prebuild_plugins", .string "koji", .object [("hub", .string "old")]],
          .array [.string "exit_plugins", .string "import_image", .object []],
          .array [.string "exit_plugins", .string "sendmail", .object []],
          .array [.string "exit_plugins", .string "sendmail"],
          .array [.string "prebuild_plugins", .string "koji", .object [("hub", .string "new")]]] }

theorem customized_closed_interacting :
    let reordered : Customization :=
      { disabled := interacting.customization.disabled.reverse
        enabled := .null :: interacting.customization.enabled }
    interacting.customized.phases =
        [("prebuild_plugins", [⟨"reactor_config", none, []⟩,
            ⟨"koji", some [("hub", .string "new")], [("required", .bool false)]⟩]),
          ("exit_plugins", [⟨"sendmail", some [], []⟩, ⟨"import_image", some [], []⟩])] ∧
      ({ interacting with customization := reordered } : Template).customized.phases =
        interacting.customized.phases := by
  intro reordered
  have closed := customized_closed interacting
  refine ⟨?_, closed.2.2.2 reordered ((List.reverse_perm _).filter _) rfl⟩
  rw [closed.1]
  decide +kernel

end Template
end ContainerBuild
