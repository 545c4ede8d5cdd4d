import ContainerBuild.Plugin.Render
import ContainerBuild.Proofs.Json.Members

namespace ContainerBuild

/-!
# Rules fill in each entry by itself

Rules change a template one after another, each through the first entry of a name.  What they
come to is one pass over the template in which every entry that is the first of its name gets the
arguments that are assigned to its phase and name (`Template.filledBy`), and every other entry
stays.  Rules succeed just when no mandatory one misses its plugin, and then that pass is their
outcome (`Rule.foldlM_apply_ok_iff`).
-/

/-! ## Entries -/

namespace Plugin

/-- Set arguments one after another. -/
def setArgs (args : Members Json) (plugin : Plugin) : Plugin :=
  args.foldl (fun plugin arg => plugin.setArg arg.1 arg.2) plugin

theorem setArgs_append (args more : Members Json) (plugin : Plugin) :
    plugin.setArgs (args ++ more) = (plugin.setArgs args).setArgs more :=
  List.foldl_append

theorem name_setArgs (args : Members Json) (plugin : Plugin) :
    (plugin.setArgs args).name = plugin.name := by
  induction args generalizing plugin with
  | nil => rfl
  | cons arg rest inductionHypothesis => exact inductionHypothesis (plugin.setArg arg.1 arg.2)

theorem extra_setArgs (args : Members Json) (plugin : Plugin) :
    (plugin.setArgs args).extra = plugin.extra := by
  induction args generalizing plugin with
  | nil => rfl
  | cons arg rest inductionHypothesis => exact inductionHypothesis (plugin.setArg arg.1 arg.2)

theorem arg?_setArg (plugin : Plugin) (key : String) (value : Json) (other : String) :
    (plugin.setArg key value).arg? other =
      if other = key then some value else plugin.arg? other := by
  have before : plugin.arg? other = (plugin.args.getD []).lookup other := by
    rw [arg?]
    cases plugin.args <;> rfl
  rw [before]
  change (Members.put key value (plugin.args.getD [])).lookup other = _
  by_cases same : other = key
  · rw [same, Members.lookup_put_self, if_pos rfl]
  · rw [Members.lookup_put_of_ne _ _ same, if_neg same]

/-- Arguments of distinct keys are all there once they are set, beside those that were. -/
theorem arg?_setArgs {args : Members Json} (distinct : args.names.Nodup) (plugin : Plugin)
    (key : String) : (plugin.setArgs args).arg? key = (args.lookup key).or (plugin.arg? key) := by
  induction args generalizing plugin with
  | nil => rfl
  | cons arg rest inductionHypothesis =>
      rcases arg with ⟨first, value⟩
      have parts := List.nodup_cons.1 distinct
      refine (inductionHypothesis parts.2 (plugin.setArg first value)).trans ?_
      rw [arg?_setArg, List.lookup_cons]
      by_cases same : key = first
      · rw [same, beq_self_eq_true, if_pos rfl, Members.lookup_eq_none_iff_notMem.2 parts.1]
        rfl
      · rw [beq_false_of_ne same, if_neg same]

/-- A list in which every plugin is changed that is the first of its name and not of a name that
was seen before. -/
def mapFirst (change : Plugin → Plugin) : List String → List Plugin → List Plugin
  | _, [] => []
  | seen, plugin :: rest =>
      (if plugin.name ∈ seen then plugin else change plugin) ::
        mapFirst change (plugin.name :: seen) rest

/-- A change that is made to the plugins of one name. -/
def changeNamed (name : String) (change : Plugin → Plugin) (plugin : Plugin) : Plugin :=
  if plugin.name = name then change plugin else plugin

theorem name_changeNamed {name : String} {change : Plugin → Plugin}
    (keeps : ∀ plugin, (change plugin).name = plugin.name) (plugin : Plugin) :
    (changeNamed name change plugin).name = plugin.name := by
  rw [changeNamed]
  split
  · exact keeps plugin
  · rfl

theorem changeNamed_comp {name : String} {change : Plugin → Plugin}
    (keeps : ∀ plugin, (change plugin).name = plugin.name) (next : Plugin → Plugin) :
    changeNamed name next ∘ changeNamed name change = changeNamed name (next ∘ change) := by
  funext plugin
  rw [Function.comp_apply]
  by_cases named : plugin.name = name
  · have still : (change plugin).name = name := (keeps plugin).trans named
    rw [changeNamed, changeNamed, changeNamed, if_pos named, if_pos still, if_pos named]
    rfl
  · rw [changeNamed, changeNamed, changeNamed, if_neg named, if_neg named, if_neg named]

theorem changeNamed_id (name : String) : changeNamed name id = id :=
  funext fun _ => ite_self _

section MapFirst

variable {change : Plugin → Plugin} {seen : List String} {plugins : List Plugin}

theorem mapFirst_congr {other : Plugin → Plugin} (same : ∀ plugin ∈ plugins,
    plugin.name ∉ seen → change plugin = other plugin) :
    mapFirst change seen plugins = mapFirst other seen plugins := by
  induction plugins generalizing seen with
  | nil => rfl
  | cons plugin rest inductionHypothesis =>
      have parts := List.forall_mem_cons.1 same
      rw [mapFirst, mapFirst, inductionHypothesis fun later here unseen =>
        parts.2 later here fun before => unseen (List.mem_cons_of_mem _ before)]
      congr 1
      split
      · rfl
      next unseen => exact parts.1 unseen

theorem mapFirst_id : mapFirst id seen plugins = plugins := by
  induction plugins generalizing seen with
  | nil => rfl
  | cons plugin rest inductionHypothesis => rw [mapFirst, inductionHypothesis, id, ite_self]

theorem mapFirst_of_forall (same : ∀ plugin ∈ plugins, plugin.name ∉ seen →
    change plugin = plugin) : mapFirst change seen plugins = plugins :=
  (mapFirst_congr same).trans mapFirst_id

theorem mapFirst_mapFirst {next : Plugin → Plugin}
    (keeps : ∀ plugin, (change plugin).name = plugin.name) :
    mapFirst next seen (mapFirst change seen plugins) = mapFirst (next ∘ change) seen plugins := by
  induction plugins generalizing seen with
  | nil => rfl
  | cons plugin rest inductionHypothesis =>
      rw [mapFirst]
      split
      next before => rw [mapFirst, mapFirst, if_pos before, if_pos before, inductionHypothesis]
      next unseen =>
        rw [mapFirst, mapFirst, keeps, if_neg unseen, if_neg unseen, inductionHypothesis]
        rfl

theorem map_name_mapFirst (keeps : ∀ plugin, (change plugin).name = plugin.name) :
    (mapFirst change seen plugins).map name = plugins.map name := by
  induction plugins generalizing seen with
  | nil => rfl
  | cons plugin rest inductionHypothesis =>
      rw [mapFirst, List.map_cons, inductionHypothesis, List.map_cons]
      congr 1
      split
      · rfl
      · exact keeps plugin

/-- The entry at each place, in terms of the entry that was there. -/
theorem getElem?_mapFirst (place : Nat) : (mapFirst change seen plugins)[place]? =
    plugins[place]?.map fun plugin =>
      if plugin.name ∈ seen ∨ plugin.name ∈ (plugins.take place).map name then plugin
      else change plugin := by
  induction plugins generalizing seen place with
  | nil => rfl
  | cons plugin rest inductionHypothesis =>
      cases place with
      | zero => simp [mapFirst]
      | succ place =>
          rw [mapFirst, List.getElem?_cons_succ, inductionHypothesis, List.getElem?_cons_succ,
            List.take_succ_cons, List.map_cons]
          refine congrArg (Option.map · rest[place]?) (funext fun later => ?_)
          simp only [List.mem_cons]
          congr 1
          rw [or_comm (a := later.name = plugin.name), or_assoc]

/-- The entries of one name depend on the entries of that name alone. -/
theorem filter_mapFirst {wanted : String} {other : List String}
    (keeps : ∀ plugin, (change plugin).name = plugin.name)
    (agree : wanted ∈ seen ↔ wanted ∈ other) :
    (mapFirst change seen plugins).filter (fun plugin => plugin.name == wanted) =
      mapFirst change other (plugins.filter fun plugin => plugin.name == wanted) := by
  induction plugins generalizing seen other with
  | nil => rfl
  | cons plugin rest inductionHypothesis =>
      have name : (if plugin.name ∈ seen then plugin else change plugin).name = plugin.name := by
        split
        · rfl
        · exact keeps plugin
      rw [mapFirst, List.filter_cons, List.filter_cons, name]
      by_cases same : plugin.name = wanted
      · subst same
        have others : (mapFirst change (plugin.name :: seen) rest).filter
            (fun later => later.name == plugin.name) =
              mapFirst change (plugin.name :: other)
                (rest.filter fun later => later.name == plugin.name) :=
          inductionHypothesis (by simp)
        rw [if_pos (beq_self_eq_true _), if_pos (beq_self_eq_true _), mapFirst, others]
        simp only [agree]
      · have unequal : ¬ (plugin.name == wanted) = true := by simpa using same
        rw [if_neg unequal, if_neg unequal]
        exact inductionHypothesis (by rw [List.mem_cons, or_iff_right (Ne.symm same), agree])

/-- Changing the first plugin of a name, if there is one. -/
theorem modifyFirst?_eq {name : String} (unseen : name ∉ seen) :
    modifyFirst? name change plugins =
      if name ∈ plugins.map Plugin.name then
        some (mapFirst (changeNamed name change) seen plugins)
      else none := by
  induction plugins generalizing seen with
  | nil => rfl
  | cons plugin rest inductionHypothesis =>
      rw [modifyFirst?, mapFirst, List.map_cons]
      by_cases same : plugin.name = name
      · subst same
        have others : mapFirst (changeNamed plugin.name change) (plugin.name :: seen) rest = rest :=
          mapFirst_of_forall fun later _ fresh => if_neg fun equal =>
            fresh (List.mem_cons.2 (.inl equal))
        rw [if_pos rfl, if_pos List.mem_cons_self, if_neg unseen, changeNamed, if_pos rfl, others]
      · have fresh : name ∉ plugin.name :: seen := by
          rw [List.mem_cons, not_or]
          exact ⟨Ne.symm same, unseen⟩
        rw [if_neg same, inductionHypothesis fresh, changeNamed, if_neg same, ite_self]
        simp only [List.mem_cons, Ne.symm same, false_or]
        split <;> rfl

end MapFirst

theorem find?_isSome_iff {name : String} {plugins : List Plugin} :
    (find? name plugins).isSome ↔ name ∈ plugins.map Plugin.name := by
  rw [find?, List.find?_isSome, List.mem_map]
  simp only [beq_iff_eq]

end Plugin

/-! ## Phases -/

namespace Members

variable {α : Type}

/-- Putting a member whose name is there changes the members of that name. -/
theorem put_eq_map {name : String} {members : Members α} (distinct : members.names.Nodup)
    (here : name ∈ members.names) (value : α) : put name value members =
      members.map fun member => if member.1 = name then (name, value) else member := by
  induction members with
  | nil => cases here
  | cons head rest inductionHypothesis =>
      rcases head with ⟨other, old⟩
      have parts := List.nodup_cons.1 distinct
      rw [put, List.map_cons]
      by_cases same : other = name
      · subst same
        have others : rest.map (fun member => if member.1 = other then (other, value) else member) =
            rest := by
          refine (List.map_congr_left fun member later => if_neg fun equal => ?_).trans
            (List.map_id rest)
          exact parts.1 (equal ▸ List.mem_map.2 ⟨member, later, rfl⟩)
        rw [if_pos rfl, if_pos rfl, others]
      · rw [if_neg same, if_neg same,
          inductionHypothesis parts.2 ((List.mem_cons.1 here).resolve_left (Ne.symm same))]

end Members

/-- Phases with other plugins, as they depend on the phase and the plugins that it had. -/
def Phases.edit (change : String → List Plugin → List Plugin) (phases : Phases) : Phases where
  entries := phases.entries.map fun phase => (phase.1, change phase.1 phase.2)
  distinct := by
    have names : Members.names (phases.entries.map fun phase => (phase.1, change phase.1 phase.2)) =
        phases.entries.names := List.map_map
    rw [names]
    exact phases.distinct

namespace Template

/-- A template in which every phase is changed by itself. -/
def mapPhases (edit : String → List Plugin → List Plugin) (template : Template) : Template :=
  { template with listed := template.listed.edit edit }

section MapPhases

variable {edit : String → List Plugin → List Plugin} {template : Template}

theorem phases_mapPhases : (template.mapPhases edit).phases =
    template.phases.map fun phase => (phase.1, edit phase.1 phase.2) := rfl

@[simp] theorem names_mapPhases :
    (template.mapPhases edit).phases.names = template.phases.names := by
  rw [phases_mapPhases, Members.names, List.map_map]
  rfl

theorem mapPhases_congr {other : String → List Plugin → List Plugin}
    (same : ∀ phase ∈ template.phases, edit phase.1 phase.2 = other phase.1 phase.2) :
    template.mapPhases edit = template.mapPhases other :=
  eq_of_phases (List.map_congr_left fun phase here => by rw [same phase here]) rfl

theorem mapPhases_id : template.mapPhases (fun _ => id) = template :=
  eq_of_phases (List.map_id' template.phases) rfl

theorem mapPhases_mapPhases {next : String → List Plugin → List Plugin} :
    (template.mapPhases edit).mapPhases next =
      template.mapPhases fun phase => next phase ∘ edit phase :=
  eq_of_phases List.map_map rfl

theorem phase?_mapPhases (phase : String) :
    (template.mapPhases edit).phase? phase = (template.phase? phase).map (edit phase) := by
  rw [phase?, phase?, phases_mapPhases]
  induction template.phases with
  | nil => rfl
  | cons head rest inductionHypothesis =>
      rw [List.map_cons, List.lookup_cons, List.lookup_cons, inductionHypothesis]
      by_cases same : phase = head.1
      · rw [same, beq_self_eq_true]
        rfl
      · rw [beq_false_of_ne same]

/-- A phase that is there and is given other plugins is changed by itself. -/
theorem withPhase_eq_mapPhases {phase : String} {plugins : List Plugin}
    (found : template.phase? phase = some plugins) (change : List Plugin → List Plugin) :
    template.withPhase phase (change plugins) =
      template.mapPhases fun other => if other = phase then change else id := by
  have here : (phase, plugins) ∈ template.phases := Members.mem_of_lookup_eq_some found
  refine eq_of_phases ?_ rfl
  change Members.put phase (change plugins) template.phases = _
  rw [Members.put_eq_map template.distinct (List.mem_map_of_mem here)]
  refine List.map_congr_left fun other there => ?_
  dsimp only
  by_cases same : other.1 = phase
  · have equal : other = (phase, plugins) :=
      List.inj_on_of_nodup_map template.distinct there here same
    rw [if_pos same, if_pos same, equal]
  · rw [if_neg same, if_neg same]
    rfl

end MapPhases

/-- A template in which every entry is changed that is the first of its name in its phase. -/
def mapFirst (change : String → Plugin → Plugin) (template : Template) : Template :=
  template.mapPhases fun phase => Plugin.mapFirst (change phase) []

/-- A change that is made to the entries of one phase and name. -/
def changeAt (phase name : String) (change : Plugin → Plugin) (other : String) : Plugin → Plugin :=
  if other = phase then Plugin.changeNamed name change else id

section MapFirst

variable {change : String → Plugin → Plugin} {template : Template}

theorem phase?_mapFirst (phase : String) : (template.mapFirst change).phase? phase =
    (template.phase? phase).map (Plugin.mapFirst (change phase) []) :=
  phase?_mapPhases phase

theorem mapFirst_congr {other : String → Plugin → Plugin} (same : ∀ phase ∈ template.phases,
    ∀ plugin ∈ phase.2, change phase.1 plugin = other phase.1 plugin) :
    template.mapFirst change = template.mapFirst other := by
  refine mapPhases_congr fun phase here => ?_
  exact Plugin.mapFirst_congr fun plugin member _ => same phase here plugin member

theorem mapFirst_id : template.mapFirst (fun _ => id) = template :=
  (mapPhases_congr fun _ _ => Plugin.mapFirst_id).trans mapPhases_id

theorem mapFirst_of_forall (same : ∀ phase ∈ template.phases, ∀ plugin ∈ phase.2,
    change phase.1 plugin = plugin) : template.mapFirst change = template :=
  (mapFirst_congr same).trans mapFirst_id

theorem mapFirst_mapFirst {next : String → Plugin → Plugin}
    (keeps : ∀ phase plugin, (change phase plugin).name = plugin.name) :
    (template.mapFirst change).mapFirst next =
      template.mapFirst fun phase => next phase ∘ change phase := by
  rw [mapFirst, mapFirst, mapPhases_mapPhases]
  exact mapPhases_congr fun phase _ => Plugin.mapFirst_mapFirst (keeps phase.1)

end MapFirst

/-- Whether a plugin is there, in terms of the names in its phase. -/
theorem has_iff {template : Template} {phase name : String} : template.has phase name = true ↔
    ∃ plugins, template.phase? phase = some plugins ∧ name ∈ plugins.map Plugin.name := by
  simp only [has, get, Template.phase, bind, Except.bind]
  cases template.phase? phase with
  | none => simp
  | some plugins =>
      have found : (Plugin.find? name plugins).isSome ↔ name ∈ plugins.map Plugin.name :=
        Plugin.find?_isSome_iff
      cases lookup : Plugin.find? name plugins <;> simp_all

theorem has_mapFirst {change : String → Plugin → Plugin} {template : Template}
    (keeps : ∀ phase plugin, (change phase plugin).name = plugin.name) (phase name : String) :
    (template.mapFirst change).has phase name = template.has phase name := by
  rw [Bool.eq_iff_iff, has_iff, has_iff, phase?_mapFirst]
  cases template.phase? phase with
  | none => simp
  | some plugins =>
      simp only [Option.map_some, Option.some.injEq, exists_eq_left',
        Plugin.map_name_mapFirst (keeps phase)]

theorem name_changeAt {phase name : String} {change : Plugin → Plugin}
    (keeps : ∀ plugin, (change plugin).name = plugin.name) (other : String) (plugin : Plugin) :
    (changeAt phase name change other plugin).name = plugin.name := by
  rw [changeAt]
  split
  · exact Plugin.name_changeNamed keeps plugin
  · rfl

theorem changeAt_comp {phase name : String} {change : Plugin → Plugin}
    (keeps : ∀ plugin, (change plugin).name = plugin.name) (next : Plugin → Plugin) :
    (fun other => changeAt phase name next other ∘ changeAt phase name change other) =
      changeAt phase name (next ∘ change) := by
  funext other
  by_cases same : other = phase
  · rw [changeAt, changeAt, changeAt, if_pos same, if_pos same, if_pos same,
      Plugin.changeNamed_comp keeps]
  · rw [changeAt, changeAt, changeAt, if_neg same, if_neg same, if_neg same]
    rfl

theorem changeAt_id (phase name : String) : changeAt phase name id = fun _ => id :=
  funext fun _ => by rw [changeAt, Plugin.changeNamed_id, ite_self]

/-- Where there is no such plugin, a change of it changes nothing. -/
theorem mapFirst_changeAt_of_not_has {template : Template} {phase name : String}
    (misses : ¬ template.has phase name = true)
    (change : Plugin → Plugin) : template.mapFirst (changeAt phase name change) = template := by
  refine mapFirst_of_forall fun other here plugin member => ?_
  rw [changeAt]
  split
  next same =>
    refine if_neg fun named => misses (has_iff.2 ⟨other.2, ?_, ?_⟩)
    · exact (Members.lookup_eq_some_iff_mem template.distinct).2 (same ▸ here)
    · exact List.mem_map.2 ⟨plugin, member, named⟩
  · rfl

theorem setArg_of_has {template : Template} {phase name : String}
    (there : template.has phase name = true) (key : String) (value : Json) : template.setArg phase name key value =
      .ok (template.mapFirst (changeAt phase name (·.setArg key value))) := by
  rcases has_iff.1 there with ⟨plugins, found, named⟩
  simp only [setArg, Template.phase, found, bind, Except.bind,
    Plugin.modifyFirst?_eq (List.not_mem_nil : name ∉ []), if_pos named]
  rw [withPhase_eq_mapPhases found, mapFirst]
  refine congrArg Except.ok (mapPhases_congr fun other _ => ?_)
  by_cases same : other.1 = phase
  · rw [if_pos same, changeAt, if_pos same]
  · rw [if_neg same, changeAt, if_neg same, Plugin.mapFirst_id]
    rfl

/-- An argument is set through the first entry of the name, and only if there is one. -/
theorem setArg_ok_iff {template changed : Template} {phase name key : String} {value : Json} :
    template.setArg phase name key value = .ok changed ↔ template.has phase name = true ∧
      changed = template.mapFirst (changeAt phase name (·.setArg key value)) := by
  by_cases there : template.has phase name = true
  · rw [setArg_of_has there, Except.ok.injEq, and_iff_right there, eq_comm]
  · refine iff_of_false (fun done => ?_) fun both => there both.1
    simp only [setArg, Template.phase, bind, Except.bind] at done
    cases found : template.phase? phase with
    | none => simp [found] at done
    | some plugins =>
        have missing : name ∉ plugins.map Plugin.name :=
          fun named => there (has_iff.2 ⟨plugins, found, named⟩)
        simp only [found, Plugin.modifyFirst?_eq (List.not_mem_nil : name ∉ []),
          if_neg missing] at done
        cases done

end Template

/-! ## Rules -/

namespace Rule

open Template (changeAt)

/-- What a rule does to a template that it can be applied to. -/
def change (rule : Rule) : String → Plugin → Plugin :=
  changeAt rule.phase rule.plugin (Plugin.setArgs rule.args)

theorem name_change (rule : Rule) (phase : String) (plugin : Plugin) :
    (rule.change phase plugin).name = plugin.name :=
  Template.name_changeAt (Plugin.name_setArgs rule.args) phase plugin

/-- A rule can be applied unless it is mandatory, has an argument to set and misses its plugin. -/
def Applicable (template : Template) (rule : Rule) : Prop :=
  rule.mandatory = true → rule.args ≠ [] → template.has rule.phase rule.plugin = true

/-- Arguments are all set, through the first entry of the name, or there is one that cannot be
set. -/
theorem assign_ok_iff {template changed : Template} {rule : Rule} :
    rule.assign template = .ok changed ↔
      (rule.args ≠ [] → template.has rule.phase rule.plugin = true) ∧
        changed = template.mapFirst rule.change := by
  rcases rule with ⟨phase, plugin, args, mandatory⟩
  simp only [assign, change]
  induction args generalizing template with
  | nil =>
      have nothing : template.mapFirst (changeAt phase plugin (Plugin.setArgs [])) = template :=
        (congrArg (Template.mapFirst · template) (Template.changeAt_id phase plugin)).trans
          Template.mapFirst_id
      rw [List.foldlM_nil, nothing]
      exact ⟨fun done => ⟨fun some => absurd rfl some, (Except.ok.inj done).symm⟩,
        fun both => congrArg Except.ok both.2.symm⟩
  | cons arg rest inductionHypothesis =>
      rcases arg with ⟨key, value⟩
      have keeps : ∀ entry : Plugin, (entry.setArg key value).name = entry.name := fun _ => rfl
      rw [List.foldlM_cons]
      by_cases there : template.has phase plugin = true
      · rw [Template.setArg_of_has there]
        refine inductionHypothesis.trans ?_
        rw [Template.has_mapFirst (Template.name_changeAt keeps), there,
          Template.mapFirst_mapFirst (Template.name_changeAt keeps), Template.changeAt_comp keeps]
        exact ⟨fun both => ⟨fun _ => rfl, both.2⟩, fun both => ⟨fun _ => rfl, both.2⟩⟩
      · refine iff_of_false (fun done => ?_) fun both => there (both.1 (List.cons_ne_nil _ _))
        cases outcome : template.setArg phase plugin key value with
        | error error => simp [outcome, bind, Except.bind] at done
        | ok next => exact there (Template.setArg_ok_iff.1 outcome).1

theorem apply_ok_iff {template changed : Template} {rule : Rule} :
    Rule.apply template rule = .ok changed ↔
      rule.Applicable template ∧ changed = template.mapFirst rule.change := by
  rw [apply, Applicable]
  by_cases there : template.has rule.phase rule.plugin = true
  · rw [there, Bool.or_true, if_pos rfl, assign_ok_iff]
    simp [there]
  · have none : template.mapFirst rule.change = template :=
      Template.mapFirst_changeAt_of_not_has there _
    by_cases mandatory : rule.mandatory = true
    · rw [mandatory, Bool.true_or, if_pos rfl, assign_ok_iff]
      simp
    · rw [if_neg (by simp [mandatory, there]), none]
      exact ⟨fun done => ⟨fun must => absurd must mandatory, (Except.ok.inj done).symm⟩,
        fun both => congrArg Except.ok both.2.symm⟩

/-- What rules assign to the plugins of a phase and name, in order. -/
def assigned (rules : List Rule) (phase name : String) : Members Json :=
  (rules.filter fun rule => rule.phase = phase ∧ rule.plugin = name).flatMap Rule.args

theorem assigned_cons (rule : Rule) (rules : List Rule) (phase name : String) :
    assigned (rule :: rules) phase name =
      (if rule.phase = phase ∧ rule.plugin = name then rule.args else []) ++
        assigned rules phase name := by
  rw [assigned, List.filter_cons]
  split
  next same =>
    rw [List.flatMap_cons, if_pos (of_decide_eq_true same)]
    rfl
  next different =>
    rw [if_neg fun same => different (decide_eq_true same)]
    rfl

end Rule

namespace Template

/-- A template in which the first entry of every phase and name has what rules assign to it. -/
def filledBy (rules : List Rule) : Template → Template :=
  mapFirst fun phase plugin => plugin.setArgs (Rule.assigned rules phase plugin.name)

theorem filledBy_nil (template : Template) : template.filledBy [] = template :=
  mapFirst_id

theorem filledBy_cons (rule : Rule) (rules : List Rule) (template : Template) :
    template.filledBy (rule :: rules) = (template.mapFirst rule.change).filledBy rules := by
  rw [filledBy, filledBy, mapFirst_mapFirst rule.name_change]
  congr 1
  funext phase plugin
  rw [Function.comp_apply, rule.name_change, Rule.assigned_cons, Plugin.setArgs_append]
  congr 1
  rw [Rule.change, changeAt]
  by_cases same : phase = rule.phase
  · by_cases named : plugin.name = rule.plugin
    · rw [if_pos ⟨same.symm, named.symm⟩, if_pos same, Plugin.changeNamed, if_pos named]
    · rw [if_neg fun both => named both.2.symm, if_pos same, Plugin.changeNamed, if_neg named]
      rfl
  · rw [if_neg fun both => same both.1.symm, if_neg same]
    rfl

end Template

/-- Rules can be applied one after another just when each can be applied to the template as it
was, and then the first entry of every phase and name gets what they assign to it. -/
theorem Rule.foldlM_apply_ok_iff {template filled : Template} {rules : List Rule} :
    rules.foldlM Rule.apply template = .ok filled ↔
      (∀ rule ∈ rules, rule.Applicable template) ∧ filled = template.filledBy rules := by
  induction rules generalizing template with
  | nil => simp [Template.filledBy_nil, pure, Except.pure, eq_comm]
  | cons rule rules inductionHypothesis =>
      rw [List.foldlM_cons, List.forall_mem_cons, Template.filledBy_cons]
      by_cases possible : rule.Applicable template
      · rw [Rule.apply_ok_iff.2 ⟨possible, rfl⟩]
        refine inductionHypothesis.trans ?_
        rw [and_iff_right possible]
        simp only [Applicable, Template.has_mapFirst rule.name_change]
      · refine iff_of_false (fun done => ?_) fun both => possible both.1.1
        cases outcome : Rule.apply template rule with
        | error error => simp [outcome, bind, Except.bind] at done
        | ok next => exact possible (Rule.apply_ok_iff.1 outcome).1

end ContainerBuild
