import ContainerBuild.Proofs.Plugin.Customizing

namespace ContainerBuild

/-!
# Templates that are changed in place

A caller changes one template by any number of calls, some of which fail.  `Plugin.Continues` says
what may become of the plugins of a phase: they stay in order with their names and unknown members,
but for those of the names that are taken out, and others come after them.  Every call makes a
template continue (`Call.continues_perform`), so any number of them does, and each call is
described by `Call.Performed` whatever calls came before it (`Template.calls_orderly`).
-/

/-! ## Plugins of a phase -/

namespace Plugin

/-- What no call changes about a plugin: its name and its unknown members. -/
def outline (plugin : Plugin) : String × Members Json := (plugin.name, plugin.extra)

/-- The plugins of a phase, later on: some of those that were there, in order, and behind them new
ones without unknown members.  Of every name no more are gone than were taken out. -/
def Continues (taken : List String) (before after : List Plugin) : Prop :=
  ∃ (kept : List (String × Members Json)) (added : List String),
    after.map outline = kept ++ added.map (·, []) ∧ kept.Sublist (before.map outline) ∧
      ∀ name, (before.map Plugin.name).count name ≤ (kept.map Prod.fst).count name +
        taken.count name

section Continues

variable {taken others : List String} {before middle after : List Plugin}

theorem map_fst_outline (plugins : List Plugin) :
    (plugins.map outline).map Prod.fst = plugins.map Plugin.name :=
  List.map_map

theorem Continues.of_outlines (same : after.map outline = before.map outline) :
    Continues [] before after := by
  refine ⟨before.map outline, [], by rw [same, List.map_nil, List.append_nil],
    List.Sublist.refl _, fun name => ?_⟩
  rw [map_fst_outline]
  exact Nat.le_add_right _ _

theorem Continues.refl (plugins : List Plugin) : Continues [] plugins plugins := .of_outlines rfl

/-- Where nothing is gone, it makes no difference what might have been taken out. -/
theorem Continues.of_nothing (continues : Continues [] before after) (taken : List String) :
    Continues taken before after := by
  rcases continues with ⟨kept, added, outlines, inBefore, counts⟩
  exact ⟨kept, added, outlines, inBefore, fun name =>
    Nat.le_trans (counts name) (Nat.add_le_add_left (Nat.zero_le _) _)⟩

theorem Continues.trans (first : Continues taken before middle)
    (next : Continues others middle after) : Continues (taken ++ others) before after := by
  rcases first with ⟨kept, added, between, inBefore, firstCounts⟩
  rcases next with ⟨stayed, more, behind, inMiddle, nextCounts⟩
  rw [between] at inMiddle
  rcases List.sublist_append_iff.1 inMiddle with ⟨old, new, rfl, inKept, inAdded⟩
  rcases List.sublist_map_iff.1 inAdded with ⟨names, inNames, rfl⟩
  refine ⟨old, names ++ more, ?_, inKept.trans inBefore, fun name => ?_⟩
  · rw [behind, List.map_append, List.append_assoc]
  · have firstCount := firstCounts name
    have nextCount := nextCounts name
    have newCount := inNames.count_le name
    rw [← map_fst_outline, between] at nextCount
    simp only [List.map_append, List.map_map, List.count_append, Function.comp_def,
      List.map_id'] at nextCount ⊢
    omega

theorem names_removeFirst (name : String) (plugins : List Plugin) :
    (removeFirst name plugins).map Plugin.name = (plugins.map Plugin.name).erase name := by
  induction plugins with
  | nil => rfl
  | cons plugin rest inductionHypothesis =>
      rw [removeFirst, List.map_cons]
      by_cases same : plugin.name = name
      · rw [List.eraseP_cons_of_pos (by simpa using same), same, List.erase_cons_head]
      · rw [List.eraseP_cons_of_neg (by simpa using same),
          List.erase_cons_tail (by simpa using same), List.map_cons]
        exact congrArg (plugin.name :: ·) inductionHypothesis

theorem continues_removeFirst (name : String) (plugins : List Plugin) :
    Continues [name] plugins (removeFirst name plugins) := by
  refine ⟨(removeFirst name plugins).map outline, [], (List.append_nil _).symm,
    List.eraseP_sublist.map outline, fun other => ?_⟩
  rw [map_fst_outline, names_removeFirst, List.count_erase, List.count_singleton]
  omega

/-- A plugin with other arguments, if it has the name. -/
def given (name : String) (args : Members Json) (plugin : Plugin) : Plugin :=
  if plugin.name = name then { plugin with args := some args } else plugin

theorem outline_given (name : String) (args : Members Json) (plugin : Plugin) :
    (given name args plugin).outline = plugin.outline := by
  rw [given]
  split <;> rfl

theorem outlines_given (name : String) (args : Members Json) (plugins : List Plugin) :
    (plugins.map (given name args)).map outline = plugins.map outline := by
  rw [List.map_map]
  exact List.map_congr_left fun plugin _ => outline_given name args plugin

/-- Plugins of the name get the arguments; if there are none, one is added. -/
theorem configure_eq (name : String) (args : Members Json) (plugins : List Plugin) :
    configure name args plugins = plugins.map (given name args) ++
      if name ∈ plugins.map Plugin.name then [] else [ofArgs name args] := by
  have there : (plugins.any fun plugin => plugin.name == name) = true ↔
      name ∈ plugins.map Plugin.name := by
    rw [List.any_eq_true, List.mem_map]
    simp only [beq_iff_eq]
  rw [configure]
  by_cases named : name ∈ plugins.map Plugin.name
  · rw [if_pos (there.2 named), if_pos named, List.append_nil]
    rfl
  · have untouched : plugins.map (given name args) = plugins := by
      refine (List.map_congr_left fun plugin here => if_neg fun same => ?_).trans (List.map_id' _)
      exact named (List.mem_map.2 ⟨plugin, here, same⟩)
    rw [if_neg (mt there.1 named), if_neg named, untouched]

theorem args_of_mem_configure {name : String} {args : Members Json} {plugin : Plugin}
    (here : plugin ∈ configure name args before) (named : plugin.name = name) :
    plugin.args = some args := by
  rw [configure_eq, List.mem_append] at here
  rcases here with changed | added
  · rcases List.mem_map.1 changed with ⟨old, -, rfl⟩
    have kept : (given name args old).name = old.name :=
      congrArg Prod.fst (outline_given name args old)
    rw [given, if_pos (kept.symm.trans named)]
  · split at added
    · cases added
    · rw [List.mem_singleton.1 added]
      rfl

theorem mem_names_configure (name : String) (args : Members Json) (plugins : List Plugin) :
    name ∈ (configure name args plugins).map Plugin.name := by
  rw [configure_eq, List.map_append, List.mem_append]
  by_cases named : name ∈ plugins.map Plugin.name
  · left
    rwa [← map_fst_outline, outlines_given, map_fst_outline]
  · right
    rw [if_neg named]
    exact List.mem_singleton_self name

theorem continues_configure (name : String) (args : Members Json) (plugins : List Plugin) :
    Continues [] plugins (configure name args plugins) := by
  rw [configure_eq]
  refine ⟨plugins.map outline, if name ∈ plugins.map Plugin.name then [] else [name], ?_,
    List.Sublist.refl _, fun other => ?_⟩
  · rw [List.map_append, outlines_given]
    split <;> rfl
  · rw [map_fst_outline]
    exact Nat.le_add_right _ _

/-- The first plugin of a name is changed where it stands. -/
theorem modifyFirst?_eq_some_iff {name : String} {change : Plugin → Plugin} :
    modifyFirst? name change before = some after ↔ ∃ front plugin back,
      before = front ++ plugin :: back ∧ (∀ earlier ∈ front, earlier.name ≠ name) ∧
        plugin.name = name ∧ after = front ++ change plugin :: back := by
  induction before generalizing after with
  | nil => simp [modifyFirst?]
  | cons head rest inductionHypothesis =>
      rw [modifyFirst?]
      by_cases same : head.name = name
      · rw [if_pos same, Option.some.injEq]
        constructor
        · rintro rfl
          exact ⟨[], head, rest, rfl, List.forall_mem_nil _, same, rfl⟩
        · rintro ⟨front, plugin, back, split, others, named, rfl⟩
          cases front with
          | nil =>
              cases split
              rfl
          | cons first front =>
              cases split
              exact absurd same (others head List.mem_cons_self)
      · rw [if_neg same, Option.map_eq_some_iff]
        constructor
        · rintro ⟨changed, done, rfl⟩
          rcases inductionHypothesis.1 done with ⟨front, plugin, back, rfl, others, named, rfl⟩
          exact ⟨head :: front, plugin, back, rfl, List.forall_mem_cons.2 ⟨same, others⟩, named,
            rfl⟩
        · rintro ⟨front, plugin, back, split, others, named, rfl⟩
          cases front with
          | nil =>
              cases split
              exact absurd named same
          | cons first front =>
              cases split
              exact ⟨_, inductionHypothesis.2 ⟨front, plugin, back, rfl,
                (List.forall_mem_cons.1 others).2, named, rfl⟩, rfl⟩

theorem find?_append_cons {name : String} {front back : List Plugin} {plugin : Plugin}
    (others : ∀ earlier ∈ front, earlier.name ≠ name) (named : plugin.name = name) :
    find? name (front ++ plugin :: back) = some plugin := by
  have unfound : List.find? (fun plugin => plugin.name == name) front = none :=
    List.find?_eq_none.2 fun earlier here => by simpa using others earlier here
  rw [find?, List.find?_append, unfound, Option.none_or,
    List.find?_cons_of_pos (by simpa using named)]

end Continues

/-- One argument of a plugin is set, and nothing else is changed about it. -/
structure ArgSet (key : String) (value : Json) (before after : Plugin) : Prop where
  set : after.arg? key = some value
  others : ∀ other, other ≠ key → after.arg? other = before.arg? other
  order : (after.args.getD []).filter (·.1 != key) = (before.args.getD []).filter (·.1 != key)
  outline : after.outline = before.outline

theorem argSet_setArg (key : String) (value : Json) (plugin : Plugin) :
    ArgSet key value plugin (plugin.setArg key value) where
  set := by rw [arg?_setArg, if_pos rfl]
  others other different := by rw [arg?_setArg, if_neg different]
  order := @Members.filter_put _ key value _ (· != key) (bne_self_eq_false key)
  outline := rfl

end Plugin

/-! ## Templates -/

namespace Template

/-- A template, later on: the phases are the same, and the plugins of each continue. -/
structure Continues (taken : String → List String) (before after : Template) : Prop where
  phases : after.phases.names = before.phases.names
  customization : after.customization = before.customization
  plugins : ∀ phase plugins, before.phase? phase = some plugins →
    ∃ changed, after.phase? phase = some changed ∧ Plugin.Continues (taken phase) plugins changed

section Continues

variable {taken others : String → List String} {before middle after : Template}

theorem Continues.refl (template : Template) : Continues (fun _ => []) template template :=
  ⟨rfl, rfl, fun _ plugins found => ⟨plugins, found, Plugin.Continues.refl plugins⟩⟩

theorem Continues.of_nothing (continues : Continues (fun _ => []) before after)
    (taken : String → List String) : Continues taken before after where
  phases := continues.phases
  customization := continues.customization
  plugins phase plugins found := by
    rcases continues.plugins phase plugins found with ⟨changed, there, still⟩
    exact ⟨changed, there, still.of_nothing _⟩

theorem Continues.trans (first : Continues taken before middle)
    (next : Continues others middle after) :
    Continues (fun phase => taken phase ++ others phase) before after where
  phases := next.phases.trans first.phases
  customization := next.customization.trans first.customization
  plugins phase plugins found := by
    rcases first.plugins phase plugins found with ⟨between, foundBetween, toBetween⟩
    rcases next.plugins phase between foundBetween with ⟨changed, foundChanged, fromBetween⟩
    exact ⟨changed, foundChanged, toBetween.trans fromBetween⟩

theorem phase?_withPhase_of_ne {phase other : String} (plugins : List Plugin)
    (different : other ≠ phase) : (before.withPhase phase plugins).phase? other =
      before.phase? other :=
  Members.lookup_put_of_ne _ _ different

theorem phase?_withPhase_self (template : Template) (phase : String) (plugins : List Plugin) :
    (template.withPhase phase plugins).phase? phase = some plugins :=
  Members.lookup_put_self _ _ _

/-- A template continues if one phase of it does. -/
theorem continues_withPhase {phase : String} {plugins changed : List Plugin} {names : List String}
    (found : before.phase? phase = some plugins)
    (continues : Plugin.Continues names plugins changed) :
    Continues (fun other => if other = phase then names else []) before
      (before.withPhase phase changed) where
  phases := (congrArg (·.phases.names) (withPhase_eq_mapPhases found fun _ => changed)).trans
    names_mapPhases
  customization := rfl
  plugins other others there := by
    by_cases same : other = phase
    · subst same
      rw [if_pos rfl]
      rw [found, Option.some.injEq] at there
      exact ⟨changed, phase?_withPhase_self before other changed, there ▸ continues⟩
    · rw [if_neg same, phase?_withPhase_of_ne changed same]
      exact ⟨others, there, Plugin.Continues.refl others⟩

/-- An operation on a phase comes to something only if the phase is there. -/
theorem of_phase_bind_ok {phase : String} {next : List Plugin → Except PluginError Template}
    (done : (do next (← before.phase phase)) = .ok after) :
    ∃ plugins, before.phase? phase = some plugins ∧ next plugins = .ok after := by
  rw [Template.phase] at done
  cases found : before.phase? phase with
  | none =>
      rw [found] at done
      cases done
  | some plugins =>
      rw [found] at done
      exact ⟨plugins, rfl, done⟩

theorem remove_ok {phase name : String} (done : before.remove phase name = .ok after) :
    ∃ plugins, before.phase? phase = some plugins ∧
      after = before.withPhase phase (Plugin.removeFirst name plugins) := by
  rcases of_phase_bind_ok done with ⟨plugins, found, changed⟩
  exact ⟨plugins, found, (Except.ok.inj changed).symm⟩

theorem add_ok {phase name : String} {args : Members Json}
    (done : before.add phase name args = .ok after) :
    ∃ plugins, before.phase? phase = some plugins ∧
      after = before.withPhase phase (Plugin.configure name args plugins) := by
  rcases of_phase_bind_ok done with ⟨plugins, found, changed⟩
  exact ⟨plugins, found, (Except.ok.inj changed).symm⟩

theorem setArg_ok {phase name key : String} {value : Json}
    (done : before.setArg phase name key value = .ok after) :
    ∃ front plugin back, before.phase? phase = some (front ++ plugin :: back) ∧
      (∀ earlier ∈ front, earlier.name ≠ name) ∧ plugin.name = name ∧
        after = before.withPhase phase (front ++ plugin.setArg key value :: back) := by
  rcases of_phase_bind_ok done with ⟨plugins, found, changed⟩
  cases modified : Plugin.modifyFirst? name (fun plugin => plugin.setArg key value) plugins with
  | none =>
      rw [modified] at changed
      cases changed
  | some others =>
      rw [modified] at changed
      rcases Plugin.modifyFirst?_eq_some_iff.1 modified with
        ⟨front, plugin, back, rfl, earlier, named, rfl⟩
      exact ⟨front, plugin, back, found, earlier, named, (Except.ok.inj changed).symm⟩

theorem continues_remove {phase name : String} (done : before.remove phase name = .ok after) :
    Continues (fun other => if other = phase then [name] else []) before after := by
  rcases remove_ok done with ⟨plugins, found, rfl⟩
  exact continues_withPhase found (Plugin.continues_removeFirst name plugins)

theorem continues_add {phase name : String} {args : Members Json}
    (done : before.add phase name args = .ok after) :
    Continues (fun _ => []) before after := by
  rcases add_ok done with ⟨plugins, found, rfl⟩
  simpa only [ite_self] using
    continues_withPhase found (Plugin.continues_configure name args plugins)

theorem continues_setArg {phase name key : String} {value : Json}
    (done : before.setArg phase name key value = .ok after) :
    Continues (fun _ => []) before after := by
  rcases setArg_ok done with ⟨front, plugin, back, found, -, -, rfl⟩
  have outlines : (front ++ plugin.setArg key value :: back).map Plugin.outline =
      (front ++ plugin :: back).map Plugin.outline := by
    rw [List.map_append, List.map_append]
    rfl
  simpa only [ite_self] using continues_withPhase found (Plugin.Continues.of_outlines outlines)

end Continues

/-! ## Customizing -/

/-- The names that an entry of the customization takes out of a phase. -/
def takenBy (entry : Json) (phase : String) : List String :=
  (((Disabling.ofJson? entry).toList).filter fun plugin => plugin.phase == phase).map Disabling.name

theorem continues_disable (template : Template) (entry : Json) :
    Continues (takenBy entry) template (template.disable entry) := by
  have unchanged : Continues (takenBy entry) template template :=
    (Continues.refl template).of_nothing _
  rw [disable]
  cases read : Disabling.ofJson? entry with
  | none => exact unchanged
  | some plugin =>
      change Continues _ template (template.orUnchanged (template.remove plugin.phase plugin.name))
      cases outcome : template.remove plugin.phase plugin.name with
      | error error => exact unchanged
      | ok changed =>
          have names : takenBy entry = fun other =>
              if other = plugin.phase then [plugin.name] else [] := by
            funext other
            rw [takenBy, read, Option.toList_some]
            by_cases same : other = plugin.phase
            · rw [if_pos same, List.filter_cons_of_pos (by simpa using same.symm)]
              rfl
            · rw [if_neg same, List.filter_cons_of_neg (by simpa using Ne.symm same)]
              rfl
          rw [names]
          exact continues_remove outcome

theorem continues_enable (template : Template) (entry : Json) :
    Continues (fun _ => []) template (template.enable entry) := by
  rw [enable]
  cases Enabling.ofJson? entry with
  | none => exact Continues.refl template
  | some plugin =>
      change Continues _ template
        (template.orUnchanged (template.add plugin.phase plugin.name plugin.args))
      cases outcome : template.add plugin.phase plugin.name plugin.args with
      | error error => exact Continues.refl template
      | ok changed => exact continues_add outcome

/-- What holds of every step holds of all of them, the names that are taken out put together. -/
theorem continues_foldl {α : Type} {step : Template → α → Template}
    {taken : α → String → List String}
    (continues : ∀ template entry, Continues (taken entry) template (step template entry))
    (entries : List α) (template : Template) :
    Continues (fun phase => entries.flatMap fun entry => taken entry phase) template
      (entries.foldl step template) := by
  induction entries generalizing template with
  | nil => exact Continues.refl template
  | cons entry rest inductionHypothesis =>
      exact (continues template entry).trans (inductionHypothesis (step template entry))

theorem taken_eq_flatMap (customization : Customization) (phase : String) :
    customization.taken phase =
      customization.disabled.flatMap fun entry => takenBy entry phase := by
  rw [Customization.taken]
  induction customization.disabled with
  | nil => rfl
  | cons entry rest inductionHypothesis =>
      rw [List.flatMap_cons, ← inductionHypothesis, takenBy]
      cases read : Disabling.ofJson? entry with
      | none => rw [List.filterMap_cons_none read]; rfl
      | some plugin =>
          rw [List.filterMap_cons_some read, Option.toList_some, ← List.map_append,
            ← List.filter_append]
          rfl

theorem continues_customized (template : Template) :
    Continues template.customization.taken template template.customized := by
  have names : template.customization.taken = fun phase =>
      (template.customization.disabled.flatMap fun entry => takenBy entry phase) ++
        template.customization.enabled.flatMap fun _ => [] := by
    funext phase
    rw [taken_eq_flatMap, List.flatMap_eq_nil_iff.2 fun _ _ => rfl, List.append_nil]
  rw [names]
  exact (continues_foldl continues_disable _ template).trans
    (continues_foldl continues_enable _ _)

end Template

/-! ## Calls -/

/-- What a caller can do to a template. -/
inductive Call where
  | remove (phase name : String)
  | add (phase name : String) (args : Members Json)
  | setArg (phase name key : String) (value : Json)
  | setArgIfSome (phase name key : String) (value : Option Json)
  | customize

namespace Call

/-- Change a template in place.  What is done before a failure stays done. -/
def edit (change : Template → Except PluginError Template) :
    EStateM PluginError Template Unit := do
  match change (← get) with
  | .ok changed => set changed
  | .error error => throw error

theorem run_edit (change : Template → Except PluginError Template) (template : Template) :
    (edit change).run template = match change template with
      | .ok changed => .ok () changed
      | .error error => .error error template := by
  have reads : (edit change).run template = EStateM.run (match change template with
      | .ok changed => set changed
      | .error error => throw error) template := rfl
  rw [reads]
  cases change template with
  | ok changed => rfl
  | error error => rfl

/-- Make a call. -/
def perform : Call → EStateM PluginError Template Unit
  | .remove phase name => edit (·.remove phase name)
  | .add phase name args => edit (·.add phase name args)
  | .setArg phase name key value => edit (·.setArg phase name key value)
  | .setArgIfSome phase name key value =>
      edit fun template => (template.setArgIfSome phase name key value).map Prod.snd
  | .customize => modify Template.customized

/-- The template that a call leaves, whether it fails or not. -/
def leaves : EStateM.Result PluginError Template Unit → Template
  | .ok _ template => template
  | .error _ template => template

/-- The names that a call takes out of a phase. -/
def taken (customization : Customization) : Call → String → List String
  | .remove phase name, other => if other = phase then [name] else []
  | .customize, phase => customization.taken phase
  | _, _ => []

/-! ## What a call comes to -/

/-- A change in place makes a template continue if the change does; one that fails changes
nothing. -/
theorem continues_edit {change : Template → Except PluginError Template} {template : Template}
    {taken : String → List String}
    (continues : ∀ changed, change template = .ok changed →
      Template.Continues taken template changed) :
    Template.Continues taken template (leaves ((edit change).run template)) := by
  rw [run_edit]
  cases outcome : change template with
  | error error => exact (Template.Continues.refl template).of_nothing taken
  | ok changed => exact continues changed outcome

/-- Setting an argument if there is a value comes to setting it, or to nothing. -/
theorem setArgIfSome_ok {before after : Template} {phase name key : String} {value : Option Json}
    (done : (before.setArgIfSome phase name key value).map Prod.snd = .ok after) :
    (value = none ∧ after = before) ∨
      ∃ given, value = some given ∧ before.setArg phase name key given = .ok after := by
  cases value with
  | none => exact .inl ⟨rfl, (Except.ok.inj done).symm⟩
  | some given =>
      rw [Template.setArgIfSome] at done
      cases set : before.setArg phase name key given with
      | error error =>
          rw [set] at done
          cases done
      | ok changed =>
          rw [set] at done
          cases done
          exact .inr ⟨given, rfl, set⟩

/-- Every call makes a template continue. -/
theorem continues_perform (call : Call) (template : Template) :
    Template.Continues (call.taken template.customization) template
      (leaves (call.perform.run template)) := by
  cases call with
  | customize => exact Template.continues_customized template
  | remove phase name => exact continues_edit fun _ => Template.continues_remove
  | add phase name args => exact continues_edit fun _ => Template.continues_add
  | setArg phase name key value => exact continues_edit fun _ => Template.continues_setArg
  | setArgIfSome phase name key value =>
      refine continues_edit fun changed done => ?_
      rcases setArgIfSome_ok done with ⟨-, rfl⟩ | ⟨given, -, set⟩
      · exact Template.Continues.refl changed
      · exact Template.continues_setArg set

/-- A call that fails leaves the template as it is. -/
theorem eq_of_perform_error {call : Call} {before after : Template} {error : PluginError}
    (failed : call.perform.run before = .error error after) : after = before := by
  have edited (change : Template → Except PluginError Template)
      (failed : (edit change).run before = .error error after) : after = before := by
    rw [run_edit] at failed
    split at failed
    · cases failed
    · exact (EStateM.Result.error.inj failed).2.symm
  cases call with
  | customize => cases failed
  | remove phase name => exact edited _ failed
  | add phase name args => exact edited _ failed
  | setArg phase name key value => exact edited _ failed
  | setArgIfSome phase name key value => exact edited _ failed

theorem ok_of_run_edit {change : Template → Except PluginError Template}
    {before after : Template} (done : (edit change).run before = .ok () after) :
    change before = .ok after := by
  rw [run_edit] at done
  split at done
  next changed outcome => rw [outcome, (EStateM.Result.ok.inj done).2]
  next => cases done

/-- The argument that a call sets, if it is there to set one. -/
def sets? : Call → Option (String × String × String × Json)
  | .setArg phase name key value => some (phase, name, key, value)
  | .setArgIfSome phase name key (some value) => some (phase, name, key, value)
  | _ => none

theorem setArg_of_perform {call : Call} {before after : Template} {phase name key : String}
    {value : Json} (sets : call.sets? = some (phase, name, key, value))
    (done : call.perform.run before = .ok () after) :
    before.setArg phase name key value = .ok after := by
  cases call with
  | setArg =>
      cases sets
      exact ok_of_run_edit done
  | setArgIfSome otherPhase otherName otherKey given =>
      rcases setArgIfSome_ok (ok_of_run_edit done) with ⟨rfl, -⟩ | ⟨given, rfl, set⟩
      · cases sets
      · cases sets
        exact set
  | _ => cases sets

/-- What setting an argument comes to: the first plugin of the name has it, and all else is as it
was. -/
structure Sets (phase name key : String) (value : Json) (before after : Template) : Prop where
  entry : ∃ front plugin changed back,
    before.phase? phase = some (front ++ plugin :: back) ∧
    after.phase? phase = some (front ++ changed :: back) ∧
    before.get phase name = .ok plugin ∧ after.get phase name = .ok changed ∧
    Plugin.ArgSet key value plugin changed
  elsewhere : ∀ other, other ≠ phase → after.phase? other = before.phase? other

theorem sets_of_setArg {before after : Template} {phase name key : String} {value : Json}
    (done : before.setArg phase name key value = .ok after) :
    Sets phase name key value before after := by
  rcases Template.setArg_ok done with ⟨front, plugin, back, found, others, named, rfl⟩
  have changed := Template.phase?_withPhase_self before phase
    (front ++ plugin.setArg key value :: back)
  refine ⟨⟨front, plugin, plugin.setArg key value, back, found, changed, ?_, ?_,
    Plugin.argSet_setArg key value plugin⟩,
    fun other different => Template.phase?_withPhase_of_ne _ different⟩
  · rw [Template.get_of_phase? found, Plugin.find?_append_cons others named]
    rfl
  · have namedStill : (plugin.setArg key value).name = name := named
    rw [Template.get_of_phase? changed, Plugin.find?_append_cons others namedStill]
    rfl

/-- What putting a plugin in comes to: all of the name have the arguments, there is one, and at
most one is added, at the end. -/
structure Adds (phase name : String) (args : Members Json) (before after : Template) : Prop where
  entries : ∃ plugins added, before.phase? phase = some plugins ∧
    after.phase? phase = some (plugins.map (Plugin.given name args) ++ added) ∧
    (name ∈ plugins.map Plugin.name → added = []) ∧
    (name ∉ plugins.map Plugin.name → added = [Plugin.ofArgs name args])
  given : ∀ plugin ∈ after.entries phase name, plugin.args = some args
  some : after.entries phase name ≠ []
  elsewhere : ∀ other, other ≠ phase → after.phase? other = before.phase? other

theorem adds_of_add {before after : Template} {phase name : String} {args : Members Json}
    (done : before.add phase name args = .ok after) : Adds phase name args before after := by
  rcases Template.add_ok done with ⟨plugins, found, rfl⟩
  have changed := Template.phase?_withPhase_self before phase (Plugin.configure name args plugins)
  have entries : (before.withPhase phase (Plugin.configure name args plugins)).entries phase name =
      (Plugin.configure name args plugins).filter fun plugin => plugin.name == name := by
    rw [Template.entries, changed, Option.getD_some]
  refine ⟨⟨plugins, if name ∈ plugins.map Plugin.name then [] else [Plugin.ofArgs name args], found,
    by rw [changed, Plugin.configure_eq], fun named => if_pos named, fun fresh => if_neg fresh⟩,
    fun plugin here => ?_, fun none => ?_,
    fun other different => Template.phase?_withPhase_of_ne _ different⟩
  · rw [entries] at here
    exact Plugin.args_of_mem_configure (List.mem_filter.1 here).1
      (beq_iff_eq.1 (List.mem_filter.1 here).2)
  · rw [entries, List.filter_eq_nil_iff] at none
    rcases List.mem_map.1 (Plugin.mem_names_configure name args plugins) with
      ⟨plugin, here, named⟩
    exact none plugin here (beq_iff_eq.2 named)

/-- What is known of a call on a template, whatever calls were made before. -/
structure Performed (call : Call) (template : Template) : Prop where
  continues : Template.Continues (call.taken template.customization) template
    (leaves (call.perform.run template))
  refused : ∀ error after, call.perform.run template = .error error after → after = template
  sets : ∀ phase name key value after, call.sets? = some (phase, name, key, value) →
    call.perform.run template = .ok () after → Sets phase name key value template after
  adds : ∀ phase name args after, call = .add phase name args →
    call.perform.run template = .ok () after → Adds phase name args template after

theorem performed (call : Call) (template : Template) : call.Performed template where
  continues := continues_perform call template
  refused _ _ := eq_of_perform_error
  sets _ _ _ _ _ sets done := sets_of_setArg (setArg_of_perform sets done)
  adds phase name args after isAdd done := by
    subst isAdd
    exact adds_of_add (ok_of_run_edit done)

end Call

/-! ## Any number of calls -/

namespace Template

/-- A template after calls that are made one after another, whether they fail or not. -/
def after (template : Template) (calls : List Call) : Template :=
  calls.foldl (fun template call => Call.leaves (call.perform.run template)) template

/-- The template continues over all calls. -/
theorem continues_after (template : Template) (calls : List Call) :
    Continues (fun phase => calls.flatMap fun call => call.taken template.customization phase)
      template (template.after calls) := by
  induction calls generalizing template with
  | nil => exact Continues.refl template
  | cons call rest inductionHypothesis =>
      have first := call.continues_perform template
      have later := inductionHypothesis (Call.leaves (call.perform.run template))
      rw [first.customization] at later
      exact first.trans later

/-- Any calls in any order: phases stay, plugins that are not taken out stay in order with their
names and unknown members, and every call does what it says and nothing else, or fails and does
nothing. -/
theorem calls_orderly (template : Template) (calls : List Call) :
    Continues (fun phase => calls.flatMap fun call => call.taken template.customization phase)
      template (template.after calls) ∧
    ∀ before call later, calls = before ++ call :: later →
      call.Performed (template.after before) ∧
        template.after (before ++ [call]) =
          Call.leaves (call.perform.run (template.after before)) := by
  refine ⟨continues_after template calls, fun before call later _ =>
    ⟨call.performed (template.after before), ?_⟩⟩
  rw [after, List.foldl_concat]
  rfl

end Template
end ContainerBuild
