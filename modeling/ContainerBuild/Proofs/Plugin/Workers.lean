import ContainerBuild.Proofs.Params.Emission
import ContainerBuild.Proofs.Params.Making
import ContainerBuild.Proofs.Plugin.Frame

namespace ContainerBuild

/-!
# What workers are told

An orchestrator passes parameters on to its workers as arguments of a plugin, and parameters are
emitted as a payload.  Either way only what says something is passed on
(`ImageParams.lookup_workerParams`, `Params.lookup_emitted`).  So the two agree but for the
target, which workers know by another name (`ImageParams.ToldWorkers`).
-/

/-! ## What is passed on -/

namespace ImageParams

variable (params : ImageParams)

theorem lookup_passedOn (name : String) : params.passedOn.lookup name =
    if name ∈ workerNames then (Params.image params).saying.lookup name else none := by
  rw [Params.lookup_saying]
  exact Members.lookup_filterMap workerNames
    (fun name => (params.toMembers.lookup name).filter Json.isTruthy) name

theorem names_passedOn_sublist : params.passedOn.names.Sublist workerNames := by
  rw [passedOn, Members.names_filterMap workerNames
    (fun name => (params.toMembers.lookup name).filter Json.isTruthy)]
  exact List.filter_sublist

theorem nodup_names_passedOn : params.passedOn.names.Nodup :=
  List.Nodup.sublist params.names_passedOn_sublist (by decide)

theorem mem_names_takeOut_passedOn {name : String}
    (here : name ∈ (Members.takeOut "koji_target" params.passedOn).names) :
    name ∈ workerNames ∧ name ≠ "koji_target" := by
  rcases (Members.mem_names_takeOut params.nodup_names_passedOn).1 here with ⟨other, passed⟩
  exact ⟨params.names_passedOn_sublist.subset passed, other⟩

/-- Workers are told nothing twice. -/
theorem nodup_names_workerParams : params.workerParams.names.Nodup := by
  have taken := Members.nodup_names_takeOut params.nodup_names_passedOn "koji_target"
  have target : "target" ∉ (Members.takeOut "koji_target" params.passedOn).names :=
    fun here => absurd (params.mem_names_takeOut_passedOn here).1 (by decide)
  have flatpak : "flatpak" ∉ (Members.takeOut "koji_target" params.passedOn).names :=
    fun here => absurd (params.mem_names_takeOut_passedOn here).1 (by decide)
  have withTarget := Members.nodup_names_put "target"
    ((params.passedOn.lookup "koji_target").getD .null) taken
  rw [workerParams]
  by_cases isFlatpak : params.flatpak = true
  · have fresh : "flatpak" ∉ (Members.put "target"
        ((params.passedOn.lookup "koji_target").getD .null)
          (Members.takeOut "koji_target" params.passedOn)).names := by
      rw [Members.mem_names_put]
      exact not_or.2 ⟨by decide, flatpak⟩
    rw [if_pos isFlatpak, ← Members.put_of_notMem target, ← Members.put_of_notMem fresh]
    exact Members.nodup_names_put _ _ withTarget
  · rw [if_neg isFlatpak, List.append_nil, ← Members.put_of_notMem target]
    exact withTarget

theorem lookup_saying_flatpak : (Params.image params).saying.lookup "flatpak" =
    if params.flatpak then some (.bool true) else none := by
  rw [Params.lookup_saying]
  change (some (Json.bool params.flatpak)).filter Json.isTruthy = _
  cases params.flatpak <;> rfl

/-- There is nothing to sort in a target. -/
theorem sortMembers_saying_kojiTarget :
    ((Params.image params).saying.lookup "koji_target").map Json.sortMembers =
      (Params.image params).saying.lookup "koji_target" := by
  rw [Params.lookup_saying]
  change ((some (Json.ofOption .string params.shared.kojiTarget)).filter Json.isTruthy).map
    Json.sortMembers = (some (Json.ofOption .string params.shared.kojiTarget)).filter Json.isTruthy
  cases params.shared.kojiTarget with
  | none => rfl
  | some target =>
      change (Option.filter Json.isTruthy (some (.string target))).map Json.sortMembers =
        Option.filter Json.isTruthy (some (.string target))
      rw [Option.filter_some]
      split <;> rfl

/-- Workers are told what says something, the target under another name and in any case. -/
theorem lookup_workerParams (name : String) : params.workerParams.lookup name =
    if name = "target" then
      some (((Params.image params).saying.lookup "koji_target").getD .null)
    else if name = "flatpak" ∨ (name ∈ workerNames ∧ name ≠ "koji_target") then
      (Params.image params).saying.lookup name
    else none := by
  have inFlatpak : (if params.flatpak then [("flatpak", Json.bool true)] else []).lookup name =
      if name = "flatpak" then (Params.image params).saying.lookup "flatpak" else none := by
    rw [lookup_saying_flatpak]
    by_cases isFlatpak : params.flatpak = true
    · rw [if_pos isFlatpak, if_pos isFlatpak, Members.lookup_single]
    · rw [if_neg isFlatpak, if_neg isFlatpak, ite_self]
      rfl
  have apart : "target" ∉ workerNames ∧ "flatpak" ∉ workerNames ∧
    "koji_target" ∈ workerNames := by decide
  rw [workerParams, List.lookup_append, List.lookup_append, inFlatpak, Members.lookup_single,
    Members.lookup_takeOut params.nodup_names_passedOn, lookup_passedOn, lookup_passedOn,
    if_pos apart.2.2]
  by_cases target : name = "target"
  · simp [target, apart]
  · by_cases flatpak : name = "flatpak"
    · simp [flatpak, apart]
    · by_cases koji : name = "koji_target"
      · simp [koji]
      · simp [target, flatpak, koji]

/-- The plugin that directs workers is assigned what they are told. -/
theorem assigned_orchestrate : Rule.assigned (Params.image params).rules "buildstep_plugins"
      "orchestrate_build" =
    Rule.textsArg "platforms" params.platforms ++
      [("build_kwargs", .object params.workerParams),
        ("config_kwargs", .object params.workerConfig)] := by
  simp [Rule.assigned, Params.rules, ImageParams.rules, Rule.target, Rule.tagTarget,
    Rule.prebuild, Rule.postbuild, Rule.buildStep, Rule.exit]

theorem args_orchestrate (plugin : Plugin) :
    let told := plugin.setArgs
      (Rule.assigned (Params.image params).rules "buildstep_plugins" "orchestrate_build")
    told.arg? "build_kwargs" = some (.object params.workerParams) ∧
      told.arg? "config_kwargs" = some (.object params.workerConfig) := by
  have platforms : (Rule.textsArg "platforms" params.platforms).names.Sublist ["platforms"] := by
    rw [Rule.textsArg]
    cases params.platforms with
    | none => exact List.nil_sublist _
    | some names => exact List.Sublist.refl _
  have distinct : Members.names (Rule.textsArg "platforms" params.platforms ++
      [("build_kwargs", .object params.workerParams),
        ("config_kwargs", .object params.workerConfig)]) |>.Nodup := by
    have whole : ["platforms", "build_kwargs", "config_kwargs"].Nodup := by decide
    rw [Members.names, List.map_append]
    exact whole.sublist (platforms.append_right _)
  have first (key : String) (other : key ≠ "platforms") :
      (Rule.textsArg "platforms" params.platforms).lookup key = none := by
    rw [Rule.textsArg, Members.lookup_optional, if_neg other]
  rw [assigned_orchestrate]
  constructor
  · rw [Plugin.arg?_setArgs distinct, List.lookup_append, first _ (by decide)]
    rfl
  · rw [Plugin.arg?_setArgs distinct, List.lookup_append, first _ (by decide)]
    rfl

theorem names_workerConfig : params.workerConfig.names =
    if params.shared.buildrootIsImagestream = false ∧ params.shared.buildImage.isSome then
      ["build_from"]
    else [] := by
  rw [workerConfig]
  cases params.shared.buildrootIsImagestream with
  | true => rfl
  | false => cases params.shared.buildImage <;> rfl

/-- How what workers are told agrees with what is emitted. -/
structure ToldWorkers (sent kwargs config : Members Json) : Prop where
  /-- Nothing is told twice. -/
  distinct : kwargs.names.Nodup
  /-- A parameter that is passed on under its own name is told just when it is emitted, and with
  the value that is emitted, up to the order of members. -/
  passed : ∀ name ∈ workerNames, name ≠ "koji_target" →
    sent.lookup name = (kwargs.lookup name).map Json.sortMembers
  /-- The target is told in any case. -/
  target : kwargs.lookup "target" = some ((sent.lookup "koji_target").getD .null)
  flatpak : kwargs.lookup "flatpak" = sent.lookup "flatpak"
  isTrue : ∀ value ∈ kwargs.lookup "flatpak", value = .bool true
  /-- Nothing else is told. -/
  others : ∀ name ∈ kwargs.names,
    (name ∈ workerNames ∧ name ≠ "koji_target") ∨ name = "target" ∨ name = "flatpak"
  /-- The image to build in is told unless it comes from an image stream or there is none. -/
  image : "build_from" ∈ config.names ↔
    params.shared.buildrootIsImagestream = false ∧ params.shared.buildImage.isSome
  /-- The image of parameters that are made from a request is told as they refer to it. -/
  made : ∀ request settings instant draws,
    make request settings instant draws = .ok params → "build_from" ∈ config.names →
      ∃ source, params.shared.buildFrom = some source ∧
        config.lookup "build_from" = some (.string source)
  /-- Nothing else is told about the image. -/
  onlyImage : ∀ name ∈ config.names, name = "build_from"

theorem toldWorkers : params.ToldWorkers (Params.image params).emitted params.workerParams
    params.workerConfig := by
  constructor
  case distinct => exact params.nodup_names_workerParams
  case passed =>
    intro name passed other
    have apart : ∀ name ∈ workerNames, name ≠ "target" ∧ name ≠ Params.kindKey := by decide
    rw [Params.lookup_emitted _ (apart name passed).2, lookup_workerParams,
      if_neg (apart name passed).1, if_pos (.inr ⟨passed, other⟩)]
  case target =>
    have sorted := params.sortMembers_saying_kojiTarget
    rw [Params.lookup_emitted _ (by decide), sorted, lookup_workerParams, if_pos rfl]
  case flatpak =>
    rw [lookup_workerParams, if_neg (by decide), if_pos (.inl rfl), Params.lookup_emitted _
      (by decide), lookup_saying_flatpak]
    cases params.flatpak <;> rfl
  case isTrue =>
    intro value told
    rw [lookup_workerParams, if_neg (by decide), if_pos (.inl rfl), lookup_saying_flatpak] at told
    cases isFlatpak : params.flatpak with
    | false => simp [isFlatpak] at told
    | true => simpa [isFlatpak, eq_comm] using told
  case others =>
    intro name here
    have told := mt Members.lookup_eq_none_iff_notMem.1 (not_not.2 here)
    rw [lookup_workerParams] at told
    split at told
    next target => exact .inr (.inl target)
    next =>
      split at told
      next known => exact known.elim (fun flatpak => .inr (.inr flatpak)) .inl
      next => exact absurd rfl told
  case image =>
    rw [names_workerConfig]
    simp
  case made =>
    intro request settings instant draws done here
    rw [names_workerConfig] at here
    have told : params.shared.buildrootIsImagestream = false ∧
        params.shared.buildImage.isSome := by simpa using here
    rcases (made_of_make done).2.shared.parts with ⟨source, image, given, found, -, parts⟩
    have joined : source = "image:" ++ image := by
      rw [parts, SharedParams.sourceKind, told.1]
      rfl
    refine ⟨source, given, ?_⟩
    rw [workerConfig, told.1, found, joined]
    rfl
  case onlyImage =>
    intro name here
    rw [names_workerConfig] at here
    split at here
    next => exact List.mem_singleton.1 here
    next => cases here

end ImageParams

/-! ## Workers and the payload -/

theorem Params.render_ok_iff {params : Params} {template : Template} {text : String} :
    params.render template = .ok text ↔
      ∃ filled, params.fill template = .ok filled ∧ text = Template.document filled.phases := by
  rw [render]
  cases params.fill template with
  | error error => simp [Except.map]
  | ok filled => simp [Except.map, Template.text_eq, eq_comm]

/-- Once a template that has the plugin for it is filled in, what workers are told agrees with the
payload that is emitted, and that is read back if its numbers last. -/
theorem Params.render_tells_workers {image : ImageParams} {template : Template} {text : String}
    (there : template.customized.has "buildstep_plugins" "orchestrate_build" = true)
    (rendered : (Params.image image).render template = .ok text) :
    let sent := (Params.image image).emitted
    (Params.image image).emit = (Json.object sent).spaced ∧
    ((Params.image image).Fits → (Params.image image).payload.Durable →
      Json.parse (Params.image image).emit = .ok (.object sent)) ∧
    ∃ filled plugin kwargs config,
      (Params.image image).fill template = .ok filled ∧
      text = Template.document filled.phases ∧
      filled.get "buildstep_plugins" "orchestrate_build" = .ok plugin ∧
      plugin.arg? "build_kwargs" = some (.object kwargs) ∧
      plugin.arg? "config_kwargs" = some (.object config) ∧
      image.ToldWorkers sent kwargs config := by
  intro sent
  refine ⟨emit_eq _, parse_emit, ?_⟩
  rcases render_ok_iff.1 rendered with ⟨filled, done, written⟩
  cases found : template.customized.get "buildstep_plugins" "orchestrate_build" with
  | error error =>
      rw [Template.has, found] at there
      cases there
  | ok plugin =>
      have args := image.args_orchestrate plugin
      have told : (template.customized.filledBy (Params.image image).rules).get
          "buildstep_plugins" "orchestrate_build" = .ok _ := Template.get_filledBy found
      rw [← (fill_ok_iff.1 done).2.2] at told
      exact ⟨filled, _, _, _, done, written, told, args.1, args.2, image.toldWorkers⟩

/-- An orchestrator build of a flatpak for a target, with an image to build in. -/
def directing : ImageParams :=
  { ImageParams.default with
    shared := { SharedParams.default with
      buildFrom := some "image:buildroot:latest"
      buildImage := some "buildroot:latest"
      buildJsonDir := some "inputs"
      kojiTarget := some "f40-candidate"
      reactorConfigOverride := some (.object [("version", .ofNat 1), ("arch", .array [])])
      user := some "builder" }
    buildType := some .orchestrator
    flatpak := true
    gitUri := some "rpms/python.git" }

/-- A template in which the site puts in the plugin that directs workers. -/
def withoutWorkers : Template where
  listed := .ofPairs [("buildstep_plugins", [])]
  customization := ⟨[], [.object [("plugin_type", .string "buildstep_plugins"),
    ("plugin_name", .string "orchestrate_build"),
    ("plugin_args", .object [("build_kwargs", .null)])]]⟩

theorem Params.render_tells_workers_directing :
    let sent := (Params.image directing).emitted
    withoutWorkers.customized.has "buildstep_plugins" "orchestrate_build" = true ∧
      ∃ text kwargs config, (Params.image directing).render withoutWorkers = .ok text ∧
        (Params.image directing).emit = (Json.object sent).spaced ∧
        directing.ToldWorkers sent kwargs config ∧
        kwargs.lookup "target" = some (.string "f40-candidate") := by
  intro sent
  have there : withoutWorkers.customized.has "buildstep_plugins" "orchestrate_build" = true := by
    decide +kernel
  have evaluated : ((Params.image directing).render withoutWorkers).toBool = true := by
    decide +kernel
  have target : sent.lookup "koji_target" = some (.string "f40-candidate") := by decide +kernel
  rcases Except.exists_ok_of_toBool evaluated with ⟨text, rendered⟩
  rcases render_tells_workers there rendered with
    ⟨emitted, -, -, -, kwargs, config, -, -, -, -, -, told⟩
  refine ⟨there, text, kwargs, config, rendered, emitted, told, ?_⟩
  rw [told.target, target]
  rfl

end ContainerBuild
