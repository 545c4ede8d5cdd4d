import ContainerBuild.Command.Run
import ContainerBuild.Proofs.Files.Running
import ContainerBuild.Proofs.Json.Members

namespace ContainerBuild

/-!
# Where the templates come from

A directory that is given is used in place of the one that the parameters name
(`Params.configure_given`), but never where they name none: parameters without a directory are
refused as incomplete, whatever is given (`Params.configure_of_unnamed`).  So it makes no
difference to the program whether the environment says where the templates are
(`Command.runRenderPlugins_fallback`).
-/

/-! ## How loading and filling in can fail -/

/-- Whether a failure is about a template rather than about parameters. -/
def PluginError.OfTemplate : PluginError → Prop
  | .params _ => False
  | _ => True

namespace Template

open Script (FailsOnly)

theorem loadCustomization_failsOnly (path : String) :
    FailsOnly PluginError.OfTemplate (loadCustomization path) := by
  refine .bind (.readFile path) fun text => ?_
  cases text with
  | ok text => exact .mapError (fun _ => trivial) _
  | error cause => exact .pure _

theorem load_failsOnly (directory file : String) (customization : Option String) :
    FailsOnly PluginError.OfTemplate (load directory file customization) := by
  refine .bind (.readFile _) fun text => .bind (.mapError (fun _ => trivial) _) fun text =>
    .bind (.mapError (fun _ => trivial) _) fun phases => ?_
  cases customization with
  | some file => exact .bind (loadCustomization_failsOnly _) fun _ => .pure _
  | none => exact .pure _

theorem setArg_error {template : Template} {phase name key : String} {value : Json}
    {error : PluginError} (failed : template.setArg phase name key value = .error error) :
    error.OfTemplate := by
  simp only [setArg, Template.phase, bind, Except.bind] at failed
  cases found : template.phase? phase with
  | none =>
      rw [found] at failed
      rw [← Except.error.inj failed]
      trivial
  | some plugins =>
      simp only [found] at failed
      split at failed
      · cases failed
      · rw [← Except.error.inj failed]
        trivial

end Template

theorem Except.foldlM_error {ε α β : Type} {way : ε → Prop} {step : β → α → Except ε β}
    (each : ∀ state item error, step state item = .error error → way error) {items : List α}
    {state : β} {error : ε} (failed : items.foldlM step state = .error error) : way error := by
  induction items generalizing state with
  | nil => cases failed
  | cons item rest inductionHypothesis =>
      rw [List.foldlM_cons] at failed
      cases outcome : step state item with
      | error cause =>
          rw [outcome] at failed
          rw [← Except.error.inj failed]
          exact each state item cause outcome
      | ok next =>
          rw [outcome] at failed
          exact inductionHypothesis failed

theorem Rule.apply_error {template : Template} {rule : Rule} {error : PluginError}
    (failed : Rule.apply template rule = .error error) : error.OfTemplate := by
  rw [apply] at failed
  split at failed
  · exact Except.foldlM_error (fun _ _ _ => Template.setArg_error) failed
  · cases failed

/-! ## Parameters that name a directory -/

theorem SharedParams.toMembers_directory (params : SharedParams) (directory : String) :
    ({ params with buildJsonDir := some directory } : SharedParams).toMembers =
      Members.put "build_json_dir" (.string directory) params.toMembers := by
  simp [toMembers, Members.put, Json.ofOption]

namespace ImageParams

variable (params : ImageParams) (directory : String)

/-- The directory is not passed on to workers. -/
theorem passedOn_directory : ({ params with
    shared := { params.shared with buildJsonDir := some directory } } : ImageParams).passedOn =
      params.passedOn := by
  rw [passedOn, passedOn]
  refine List.filterMap_congr fun name here => ?_
  have other : name ≠ "build_json_dir" := by
    rintro rfl
    revert here
    decide
  rw [toMembers, toMembers, SharedParams.toMembers_directory, List.lookup_append,
    List.lookup_append, Members.lookup_put_of_ne _ _ other]

theorem rules_directory : ({ params with
    shared := { params.shared with buildJsonDir := some directory } } : ImageParams).rules =
      params.rules := by
  rw [rules, rules, workerParams, workerParams, passedOn_directory]
  rfl

end ImageParams

namespace Params

/-- Parameters that name a directory of templates. -/
def withDirectory (directory : String) (params : Params) : Params :=
  params.modifyShared fun shared => { shared with buildJsonDir := some directory }

theorem buildJsonDir_withDirectory (params : Params) (directory : String) :
    (params.withDirectory directory).shared.buildJsonDir = some directory := by
  cases params <;> rfl

theorem rules_withDirectory (params : Params) (directory : String) :
    (params.withDirectory directory).rules = params.rules := by
  cases params with
  | image params => exact params.rules_directory directory
  | sources params => rfl

theorem templateFile_withDirectory (params : Params) (directory : String) :
    (params.withDirectory directory).templateFile = params.templateFile := by
  cases params <;> rfl

theorem customizationFile_withDirectory (params : Params) (directory : String) :
    (params.withDirectory directory).customizationFile = params.customizationFile := by
  cases params <;> rfl

theorem missing_withDirectory_of_named {params : Params} {named : String}
    (names : params.shared.buildJsonDir = some named) (directory : String) :
    (params.withDirectory directory).missing = params.missing := by
  cases params with
  | image params =>
      have names : params.shared.buildJsonDir = some named := names
      simp [missing, ImageParams.missing, SharedParams.missing, withDirectory, modifyShared, names]
  | sources params =>
      have names : params.shared.buildJsonDir = some named := names
      simp [missing, SharedParams.missing, withDirectory, modifyShared, names]

/-- Parameters without a directory miss it on top of whatever else they miss. -/
theorem missing_of_unnamed {params : Params} (unnamed : params.shared.buildJsonDir = none)
    (directory : String) :
    params.missing = placeName "build_json_dir" (params.withDirectory directory).missing := by
  cases params with
  | image params =>
      have unnamed : params.shared.buildJsonDir = none := unnamed
      simp [missing, ImageParams.missing, SharedParams.missing, withDirectory, modifyShared,
        unnamed]
  | sources params =>
      have unnamed : params.shared.buildJsonDir = none := unnamed
      simp [missing, SharedParams.missing, withDirectory, modifyShared, unnamed]

theorem placeName_ne_nil (name : String) (names : List String) : placeName name names ≠ [] := by
  cases names with
  | nil => exact List.cons_ne_nil _ _
  | cons other rest =>
      rw [placeName]
      split <;> exact List.cons_ne_nil _ _

theorem ensureComplete_of_missing_eq_nil {params : Params} (complete : params.missing = []) :
    params.ensureComplete = .ok () := by
  rw [ensureComplete, validate, complete]
  rfl

theorem ensureComplete_of_missing_ne_nil {params : Params} (incomplete : params.missing ≠ []) :
    params.ensureComplete = .error (.params (.missing params.missing)) := by
  rw [ensureComplete, validate]
  cases names : params.missing with
  | nil => exact absurd names incomplete
  | cons name rest => rfl

/-! ## What configuring comes to -/

/-- The plugin configuration from the templates of a directory, without a check. -/
def renderFrom (params : Params) (directory : String) : ExceptT PluginError Script String := do
  let template ← Template.load directory params.templateFile params.customizationFile
  params.render template

theorem configure_of_incomplete {params : Params} {error : PluginError}
    (incomplete : params.ensureComplete = .error error) (directory : Option String) :
    params.configure directory = throw error := by
  rw [configure, incomplete]
  rfl

theorem configure_of_complete {params : Params} {directory : Option String} {chosen : String}
    (complete : params.ensureComplete = .ok ())
    (choice : (directory <|> params.shared.buildJsonDir) = some chosen) :
    params.configure directory = params.renderFrom chosen := by
  rw [configure, complete, templateDirectory, choice]
  rfl

theorem configure_withDirectory {params : Params} {directory : String}
    (complete : (params.withDirectory directory).ensureComplete = .ok ()) :
    (params.withDirectory directory).configure none =
      (params.withDirectory directory).renderFrom directory := by
  refine configure_of_complete complete ?_
  rw [buildJsonDir_withDirectory]
  rfl

theorem renderFrom_withDirectory {params : Params} {directory : String}
    (complete : params.ensureComplete = .ok ())
    (completeWith : (params.withDirectory directory).ensureComplete = .ok ()) (chosen : String) :
    (params.withDirectory directory).renderFrom chosen = params.renderFrom chosen := by
  have same : (params.withDirectory directory).render = params.render := by
    funext template
    rw [render, render, fill, fill, complete, completeWith, rules_withDirectory]
  rw [renderFrom, renderFrom, templateFile_withDirectory, customizationFile_withDirectory, same]

theorem renderFrom_failsOnly {params : Params} (complete : params.ensureComplete = .ok ())
    (directory : String) :
    Script.FailsOnly PluginError.OfTemplate (params.renderFrom directory) := by
  refine .bind (Template.load_failsOnly _ _ _) fun template files error failed => ?_
  have failed : params.render template = .error error := failed
  rw [render, fill, complete] at failed
  cases outcome : params.rules.foldlM Rule.apply template.customized with
  | error cause =>
      simp only [outcome, bind, Except.bind, Except.map, Except.error.injEq] at failed
      rw [← failed]
      exact Except.foldlM_error (fun _ _ _ => Rule.apply_error) outcome
  | ok filled =>
      simp only [outcome, bind, Except.bind, Except.map] at failed
      cases failed

/-- Of parameters that name a directory, a given one is used as if they named it. -/
theorem configure_given {params : Params} {named : String}
    (names : params.shared.buildJsonDir = some named) (directory : String) :
    params.configure (some directory) = (params.withDirectory directory).configure none := by
  have missing := missing_withDirectory_of_named names directory
  by_cases complete : params.missing = []
  · have done := ensureComplete_of_missing_eq_nil complete
    have doneWith := ensureComplete_of_missing_eq_nil (missing.trans complete)
    rw [configure_of_complete done rfl, configure_withDirectory doneWith,
      renderFrom_withDirectory done doneWith]
  · have refused := ensureComplete_of_missing_ne_nil complete
    have refusedWith := ensureComplete_of_missing_ne_nil (missing.trans_ne complete)
    rw [configure_of_incomplete refused, configure_of_incomplete refusedWith, missing]

/-- Parameters that name no directory are refused, whatever directory is given. -/
theorem configure_of_unnamed {params : Params} (unnamed : params.shared.buildJsonDir = none)
    (directory : String) (given : Option String) : params.configure given =
      throw (.params (.missing
        (placeName "build_json_dir" (params.withDirectory directory).missing))) := by
  have missing := missing_of_unnamed unnamed directory
  rw [← missing]
  refine configure_of_incomplete (ensureComplete_of_missing_ne_nil ?_) given
  rw [missing]
  exact placeName_ne_nil _ _

/-- Of parameters that lack nothing but, it may be, a directory, a given one is used as if they
named it just when they name one.  Otherwise they are refused, whatever is given. -/
theorem configure_given_iff_named {params : Params} {directory : String}
    (complete : (params.withDirectory directory).missing = []) (files : Files) :
    ((params.configure (some directory)).run.run files =
        ((params.withDirectory directory).configure none).run.run files ↔
      params.shared.buildJsonDir.isSome = true) ∧
    (params.shared.buildJsonDir = none → ∀ given, (params.configure given).run.run files =
      .error (.params (.missing ["build_json_dir"]))) := by
  have refused (unnamed : params.shared.buildJsonDir = none) (given : Option String) :
      (params.configure given).run.run files =
        .error (.params (.missing ["build_json_dir"])) := by
    rw [configure_of_unnamed unnamed directory given, complete]
    rfl
  refine ⟨⟨fun same => ?_, fun named => ?_⟩, refused⟩
  · by_contra unnamed
    rw [Option.not_isSome_iff_eq_none] at unnamed
    have done := ensureComplete_of_missing_eq_nil complete
    rw [refused unnamed, configure_withDirectory done] at same
    exact renderFrom_failsOnly done directory files _ same.symm
  · rcases Option.isSome_iff_exists.1 named with ⟨name, names⟩
    rw [configure_given names]

/-- Parameters that lack nothing but a directory. -/
def undirected : Params :=
  .image { ImageParams.default with
    shared := { SharedParams.default with user := some "builder" }
    buildType := some .worker
    gitUri := some "rpms/python.git" }

/-- Files with a template in one directory. -/
def oneTemplate : Files := fun path =>
  if path = "inputs/worker_inner:6.json" then .ok "\x7b\"exit_plugins\": []\x7d"
  else .error .notFound

theorem configure_given_iff_named_undirected :
    (undirected.withDirectory "inputs").missing = [] ∧
      (undirected.configure (some "inputs")).run.run oneTemplate ≠
        ((undirected.withDirectory "inputs").configure none).run.run oneTemplate := by
  have complete : (undirected.withDirectory "inputs").missing = [] := by decide
  refine ⟨complete, fun same => ?_⟩
  have named := (configure_given_iff_named complete oneTemplate).1.1 same
  exact absurd named (by decide)

/-- A directory is given and has what the build asks for, and yet it is not looked into. -/
theorem given_directory_refused :
    (undirected.configure (some "inputs")).run.run oneTemplate =
        .error (.params (.missing ["build_json_dir"])) ∧
      ((undirected.withDirectory "inputs").configure none).run.run oneTemplate =
        .ok "\x7b\"exit_plugins\": []\x7d" := by
  decide +kernel

end Params

/-- The directory of the environment is never used. -/
theorem Command.runRenderPlugins_fallback (path : String) (given fallback : Option String) :
    runRenderPlugins path given fallback = runRenderPlugins path given none := by
  rw [runRenderPlugins, runRenderPlugins]
  refine congrArg (loadParams path >>= ·) (funext fun params => ?_)
  cases directory : params.shared.buildJsonDir with
  | none =>
      rw [Params.configure_of_unnamed directory "", Params.configure_of_unnamed directory ""]
  | some named =>
      rw [chooseDirectory, chooseDirectory, directory]
      rfl

end ContainerBuild
