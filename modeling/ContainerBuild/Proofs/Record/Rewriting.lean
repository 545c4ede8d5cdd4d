import ContainerBuild.Proofs.Params.Settling
import ContainerBuild.Proofs.Record.ClientText

namespace ContainerBuild

/-!
# Parameters that are read and stored again

A program that reads the parameters of a record and stores them writes the payload that loading
and emitting the old one gives.  The second time this puts in defaults that the first payload
left out, and from then on nothing changes (`Record.emission_settles`), unless a number in the
payload does not last: then it may change every time (`Record.reemit_changes`).
-/

/-! ## Variables that are set -/

namespace CustomStrategy

theorem find?_setVariable (name value : String) (env : List EnvVar) :
    ((setVariable name value env).find? (·.name == name)).bind (·.value) = some value := by
  induction env with
  | nil => simp only [setVariable, EnvVar.literal, List.find?_cons, beq_self_eq_true,
      Option.bind_some]
  | cons first rest inductionHypothesis =>
      rw [setVariable]
      split
      next same => simp only [List.find?_cons, same, beq_self_eq_true, Option.bind_some]
      next differs =>
        rw [List.find?_cons, beq_eq_false_iff_ne.2 differs]
        exact inductionHypothesis

theorem setVariable_setVariable (name before after : String) (env : List EnvVar) :
    setVariable name after (setVariable name before env) = setVariable name after env := by
  induction env with
  | nil => exact if_pos rfl
  | cons first rest inductionHypothesis =>
      rw [setVariable, setVariable]
      split
      next same => exact if_pos same
      next differs => rw [setVariable, if_neg differs, inductionHypothesis]

variable (strategy : CustomStrategy) (name : String)

/-- A variable that is set has its value. -/
theorem envValue?_setEnv (value : String) :
    (strategy.setEnv name value).envValue? name = some value :=
  find?_setVariable name value _

/-- Only the last value that a variable is set to counts. -/
theorem setEnv_setEnv (before after : String) :
    (strategy.setEnv name before).setEnv name after = strategy.setEnv name after := by
  rw [setEnv, setEnv, setEnv, Option.getD_some, setVariable_setVariable]

theorem setEnv_inj {before after : String} :
    strategy.setEnv name before = strategy.setEnv name after ↔ before = after := by
  refine ⟨fun same => ?_, fun same => by rw [same]⟩
  have values := congrArg (·.envValue? name) same
  simp only [envValue?_setEnv, Option.some.injEq] at values
  exact values

end CustomStrategy

namespace Record

/-! ## Payloads that are stored -/

/-- A record of a custom strategy with a text as the payload of its parameters. -/
def withPayload (record : Record) (custom : CustomStrategy) (payload : String) : Record :=
  record.withCustom (custom.setEnv paramsVariable payload)

/-- Read the parameters of a record and store them again, if there are any. -/
def rewriteParams (record : Record) : Except ParamsError Record := do
  match ← record.params with
  | some params => record.setParams params
  | none => .ok record

/-- Read the parameters of a record and store them again a number of times. -/
def rewriteTimes : Nat → Record → Except ParamsError Record
  | 0, record => .ok record
  | times + 1, record => do rewriteTimes times (← record.rewriteParams)

section Payload

variable {record : Record} {custom : CustomStrategy}

theorem withPayload_inj {before after : String} :
    record.withPayload custom before = record.withPayload custom after ↔ before = after := by
  refine ⟨fun same => ?_, fun same => by rw [same]⟩
  have strategies := congrArg (·.spec.strategy.custom) same
  exact (custom.setEnv_inj paramsVariable).1 (Option.some.inj strategies)

theorem rewriteParams_eq (found : record.spec.strategy.custom = some custom) {text : String}
    (carried : record.paramsText? = some text) {params : Params}
    (loaded : Params.load text = .ok params) :
    record.rewriteParams = .ok (record.withPayload custom params.emit) := by
  simp only [rewriteParams, Record.params, carried, loaded, setParams, found, Except.map, bind,
    Except.bind, withPayload]

/-- Storing the parameters of a stored payload stores what the payload becomes. -/
theorem rewriteParams_withPayload {payload again : String}
    (emitted : Params.reemit payload = .ok again) :
    (record.withPayload custom payload).rewriteParams = .ok (record.withPayload custom again) := by
  rw [Params.reemit] at emitted
  cases loaded : Params.load payload with
  | error fault =>
      rw [loaded] at emitted
      cases emitted
  | ok params =>
      rw [loaded] at emitted
      have carried : (record.withPayload custom payload).paramsText? = some payload :=
        custom.envValue?_setEnv paramsVariable payload
      rw [rewriteParams_eq rfl carried loaded, Except.ok.inj emitted]
      exact congrArg (fun custom => Except.ok (record.withCustom custom))
        (custom.setEnv_setEnv paramsVariable payload again)

theorem rewriteTimes_of_fixed {record : Record} (fixed : record.rewriteParams = .ok record)
    (times : Nat) : record.rewriteTimes times = .ok record := by
  induction times with
  | zero => rfl
  | succ times inductionHypothesis =>
      rw [rewriteTimes, fixed]
      exact inductionHypothesis

end Payload

/-- Loading and emitting a payload puts in the defaults of what it leaves out, and what that
gives stays as it is.  So the parameters of a record can be read and stored any number of times
after the second; the second time changes nothing exactly if every parameter that has a default
to say said something.  All this is about payloads whose numbers last. -/
theorem emission_settles {text : String} {params : Params}
    (loaded : Params.load text = .ok params) (durable : params.payload.Durable) :
    Params.reemit text = .ok params.emit ∧
    Params.reemit params.emit = .ok params.normal.emit ∧
    (params.normal.emit = params.emit ↔ params.Settled) ∧
    Params.reemit params.normal.emit = .ok params.normal.emit ∧
    ∀ record : Record, record.paramsText? = some text → ∃ once twice,
      record.rewriteParams = .ok once ∧ once.rewriteParams = .ok twice ∧
      (twice = once ↔ params.Settled) ∧ ∀ times, twice.rewriteTimes times = .ok twice := by
  have obtained : params.Obtained := .loaded loaded
  have first := Params.reemit_emit obtained durable
  have second := Params.reemit_emit_normal obtained durable
  have settled := Params.emit_normal_eq_iff obtained
  refine ⟨by rw [Params.reemit, loaded]; rfl, first, settled, second, fun record carried => ?_⟩
  rcases Option.bind_eq_some_iff.1 carried with ⟨custom, found, -⟩
  refine ⟨record.withPayload custom params.emit, record.withPayload custom params.normal.emit,
    rewriteParams_eq found carried loaded, rewriteParams_withPayload first, ?_, fun times => ?_⟩
  · rw [withPayload_inj, settled]
  · exact rewriteTimes_of_fixed (rewriteParams_withPayload second) times

/-! ### A payload that does not say what has a default -/

/-- Parameters that leave empty, each in a way of its own, what has a default to say. -/
def leavingDefaults : String :=
  "\x7b\"name\": \"b-1\", \"arrangement_version\": 0, \"customize_conf\": null, " ++
    "\"git_ref\": \"\"\x7d"

/-- What they are stored as at first. -/
def leavingDefaultsOnce : String :=
  "\x7b\"kind\": \"build_user_params\", \"name\": \"b-1\"\x7d"

/-- What they are stored as from then on. -/
def leavingDefaultsTwice : String :=
  "\x7b\"arrangement_version\": 6, \"customize_conf\": \"prod_customize.json\", " ++
    "\"git_ref\": \"master\", \"kind\": \"build_user_params\", \"name\": \"b-1\"\x7d"

theorem emission_settles_leavingDefaults : ∃ params, Params.load leavingDefaults = .ok params ∧
    params.payload.Durable ∧
    (carrying leavingDefaults).paramsText? = some leavingDefaults ∧ ¬ params.Settled ∧
    ∃ once twice, (carrying leavingDefaults).rewriteParams = .ok once ∧
      once.rewriteParams = .ok twice ∧ twice ≠ once ∧
      ∀ times, twice.rewriteTimes times = .ok twice := by
  have evaluated : (Params.load leavingDefaults).toOption.any (fun params =>
      params.payload.Durable ∧ params.emit = leavingDefaultsOnce) = true := by decide +kernel
  have again : Params.reemit leavingDefaultsOnce = .ok leavingDefaultsTwice := by decide +kernel
  have differs : leavingDefaultsTwice ≠ leavingDefaultsOnce := by decide
  have carried := paramsText?_carrying leavingDefaults
  rcases Except.exists_ok_of_any evaluated with ⟨params, loaded, known⟩
  rcases of_decide_eq_true known with ⟨durable, once⟩
  rcases emission_settles loaded durable with ⟨-, second, settled, -, rewriting⟩
  rw [once, again] at second
  have twice : params.normal.emit = leavingDefaultsTwice := (Except.ok.inj second).symm
  rw [once, twice] at settled
  have unsettled : ¬ params.Settled := mt settled.2 differs
  rcases rewriting _ carried with ⟨written, rewritten, stored, restored, same, fixed⟩
  exact ⟨params, loaded, durable, carried, unsettled, written, rewritten, stored, restored,
    mt same.1 unsettled, fixed⟩

/-- A payload that says all that has a default, and overrides the configuration by a number. -/
def overriddenBy (number : String) : String :=
  "\x7b\"arrangement_version\": 6, \"customize_conf\": \"prod_customize.json\", " ++
    "\"git_ref\": \"master\", \"kind\": \"build_user_params\", " ++
      "\"reactor_config_override\": " ++ number ++ "\x7d"

/-- Storing parameters a second time can change what the first time made of them: by putting in
defaults, or for a number that does not last, and then every further time does. -/
theorem reemit_changes :
    (Params.reemit leavingDefaults = .ok leavingDefaultsOnce ∧
      Params.reemit leavingDefaultsOnce = .ok leavingDefaultsTwice ∧
      leavingDefaultsTwice ≠ leavingDefaultsOnce) ∧
    Params.reemit (overriddenBy "5e+32") = .ok (overriddenBy "5.0000000000000004e+32") ∧
      Params.reemit (overriddenBy "5.0000000000000004e+32") = .ok (overriddenBy "5e+32") ∧
      overriddenBy "5.0000000000000004e+32" ≠ overriddenBy "5e+32" := by
  decide +kernel

end Record
end ContainerBuild
