import ContainerBuild.Proofs.Record.Edits
import ContainerBuild.Proofs.Record.Rewriting

namespace ContainerBuild

/-!
# What storing parameters leaves alone

Parameters are stored in the first variable of their name, which keeps its place and what is not
modelled of it, or in a new one at the end.  Every other variable stays as it is, and so does
everything beside the environment (`Record.setParams_storing`).

Spelling parameters anew stores their payload in the same way.  A variable that has both a literal
value and a reference loses the reference then, although no more than its text was to change
(`Record.normalizeParams_frame`).
-/

/-! ## The first variable of a name -/

namespace EnvVar

/-- A variable with another literal value, and still with what it refers to. -/
def withValue (envVar : EnvVar) (value : String) : EnvVar := { envVar with value := some value }

/-- A variable that is made a literal. -/
def toLiteral (envVar : EnvVar) (value : String) : EnvVar :=
  { envVar with value := some value, valueFrom := none }

theorem toLiteral_eq_withValue_iff {envVar : EnvVar} {value other : String} :
    envVar.toLiteral value = envVar.withValue other ↔ value = other ∧ envVar.valueFrom = none := by
  rcases envVar with ⟨⟩
  simp [toLiteral, withValue, eq_comm]

end EnvVar

/-- The first variable of a name is changed, in its place, and no other. -/
inductive ChangesFirst (name : String) (change : EnvVar → EnvVar) :
    List EnvVar → List EnvVar → Prop
  | intro {front back : List EnvVar} {first : EnvVar}
      (others : ∀ envVar ∈ front, envVar.name ≠ name) (named : first.name = name) :
      ChangesFirst name change (front ++ first :: back) (front ++ change first :: back)

theorem find?_first {name : String} {front back : List EnvVar} {first : EnvVar}
    (others : ∀ envVar ∈ front, envVar.name ≠ name) (named : first.name = name) :
    (front ++ first :: back).find? (·.name == name) = some first := by
  have none : front.find? (·.name == name) = none :=
    List.find?_eq_none.2 fun envVar here => by simpa using others envVar here
  rw [List.find?_append, none, Option.none_or, List.find?_cons, beq_iff_eq.2 named]

/-- The first variable of the name is found before, and what it was changed to after. -/
theorem ChangesFirst.find? {name : String} {change : EnvVar → EnvVar} {env env' : List EnvVar}
    (changes : ChangesFirst name change env env')
    (keepsName : ∀ envVar, (change envVar).name = envVar.name) :
    ∃ first, env.find? (·.name == name) = some first ∧
      env'.find? (·.name == name) = some (change first) := by
  cases changes with
  | @intro front back first others named =>
      exact ⟨first, find?_first others named, find?_first others ((keepsName first).trans named)⟩

/-- Making the first variable a literal changes no more than its text exactly if it refers to
nothing. -/
theorem changesFirst_withValue_iff {name value : String} {env env' : List EnvVar}
    (changes : ChangesFirst name (·.toLiteral value) env env') :
    (∃ other, ChangesFirst name (·.withValue other) env env') ↔
      ∀ first ∈ env.find? (·.name == name), first.valueFrom = none := by
  constructor
  · rintro ⟨other, kept⟩ first here
    rcases changes.find? (fun _ => rfl) with ⟨literal, found, made⟩
    rcases kept.find? (fun _ => rfl) with ⟨same, foundSame, left⟩
    cases found.symm.trans here
    cases foundSame.symm.trans here
    exact (EnvVar.toLiteral_eq_withValue_iff.1 (Option.some.inj (made.symm.trans left))).2
  · intro free
    cases changes with
    | @intro front back first others named =>
        have same : first.toLiteral value = first.withValue value :=
          EnvVar.toLiteral_eq_withValue_iff.2 ⟨rfl, free first (find?_first others named)⟩
        refine ⟨value, ?_⟩
        rw [same]
        exact .intro others named

namespace CustomStrategy

variable {name value : String} {env : List EnvVar}

/-- Setting a variable makes the first one of its name a literal, or adds one at the end. -/
theorem setVariable_cases (name value : String) (env : List EnvVar) :
    ChangesFirst name (·.toLiteral value) env (setVariable name value env) ∨
      (∀ envVar ∈ env, envVar.name ≠ name) ∧
        setVariable name value env = env ++ [EnvVar.literal name value] := by
  induction env with
  | nil => exact .inr ⟨List.forall_mem_nil _, rfl⟩
  | cons head rest inductionHypothesis =>
      rw [setVariable]
      by_cases named : head.name = name
      · rw [if_pos named]
        exact .inl (.intro (List.forall_mem_nil _) named)
      · rw [if_neg named]
        rcases inductionHypothesis with replaced | ⟨fresh, added⟩
        · left
          generalize setVariable name value rest = changed at replaced
          cases replaced with
          | intro others first =>
              exact .intro (List.forall_mem_cons.2 ⟨named, others⟩) first
        · right
          rw [added]
          exact ⟨List.forall_mem_cons.2 ⟨named, fresh⟩, rfl⟩

theorem find?_setVariable_of_ne {other : String} (different : other ≠ name) :
    (setVariable name value env).find? (·.name == other) = env.find? (·.name == other) := by
  induction env with
  | nil =>
      rw [setVariable, EnvVar.literal, List.find?_cons, beq_false_of_ne different.symm]
  | cons head rest inductionHypothesis =>
      rw [setVariable]
      split
      next named =>
        have apart : (head.name == other) = false := beq_false_of_ne (named ▸ different.symm)
        rw [List.find?_cons, List.find?_cons, apart]
      next => rw [List.find?_cons, List.find?_cons, inductionHypothesis]

/-- Setting a variable leaves alone the value of every other name. -/
theorem envValue?_setEnv_of_ne (strategy : CustomStrategy) {other : String}
    (different : other ≠ name) :
    (strategy.setEnv name value).envValue? other = strategy.envValue? other := by
  rw [envValue?, setEnv, Option.getD_some, find?_setVariable_of_ne different, envValue?]

/-- Setting a variable that has a value changes the first variable of its name. -/
theorem setEnv_of_envValue? {strategy : CustomStrategy} {old : String}
    (carried : strategy.envValue? name = some old) (value : String) :
    ∃ env env', strategy.env = some env ∧ ChangesFirst name (·.toLiteral value) env env' ∧
      strategy.setEnv name value = { strategy with env := some env' } := by
  rcases Option.bind_eq_some_iff.1 carried with ⟨first, found, -⟩
  cases hasEnv : strategy.env with
  | none =>
      rw [hasEnv] at found
      cases found
  | some env =>
      rw [hasEnv, Option.getD_some] at found
      refine ⟨env, setVariable name value env, rfl, ?_, by rw [setEnv, hasEnv, Option.getD_some]⟩
      have named : first.name = name := by simpa using List.find?_some found
      refine (setVariable_cases name value env).resolve_right fun added => ?_
      exact added.1 first (List.mem_of_find?_eq_some found) named

end CustomStrategy

namespace Record

/-! ## Storing parameters -/

/-- What storing parameters makes of a record and its custom strategy. -/
structure Storing (params : Params) (record : Record) (custom changed : CustomStrategy) :
    Prop where
  /-- It succeeds, and changes nothing but the custom strategy. -/
  stored : record.setParams params = .ok (record.withCustom changed)
  /-- The payload is what the parameters are emitted as. -/
  payload : (record.withCustom changed).paramsText? = some params.emit
  /-- Every other variable has the value that it had. -/
  others : ∀ name, name ≠ paramsVariable → changed.envValue? name = custom.envValue? name
  /-- Of the custom strategy nothing but the environment is changed: there the first variable of
  the name is made a literal, or one is added at the end. -/
  environment : ∃ env, changed = { custom with env := some env } ∧
    (ChangesFirst paramsVariable (·.toLiteral params.emit) (custom.env.getD []) env ∨
      (∀ envVar ∈ custom.env.getD [], envVar.name ≠ paramsVariable) ∧
        env = custom.env.getD [] ++ [EnvVar.literal paramsVariable params.emit])
  /-- Only the last parameters that are stored count. -/
  last : ∀ later, (record.withCustom changed).setParams later = record.setParams later

/-- Parameters are stored in the custom strategy of a record; without one, that fails and leaves
the record as it is. -/
theorem setParams_storing (record : Record) (params : Params) :
    (∀ custom, record.spec.strategy.custom = some custom →
      ∃ changed, Storing params record custom changed) ∧
    (record.spec.strategy.custom = none → record.setParams params = .error .notCustomStrategy ∧
      record.apply (.setParams params) = record) := by
  refine ⟨fun custom found => ⟨custom.setEnv paramsVariable params.emit, ?_⟩, fun none => ?_⟩
  · refine ⟨by rw [setParams, found], custom.envValue?_setEnv _ _, fun name different =>
      custom.envValue?_setEnv_of_ne different, ⟨_, rfl, CustomStrategy.setVariable_cases _ _ _⟩,
      fun later => ?_⟩
    rw [setParams, setParams, found]
    exact congrArg (fun custom => Except.ok (record.withCustom custom))
      (custom.setEnv_setEnv paramsVariable params.emit later.emit)
  · have failed : record.setParams params = .error .notCustomStrategy := by rw [setParams, none]
    exact ⟨failed, by rw [apply, failed]; rfl⟩

/-- Parameters that are in a secret, and once more in a variable that does not count. -/
def keptInSecret : CustomStrategy :=
  { CustomStrategy.ofImage (.ofKind "DockerImage" "buildroot:latest") with
    env := some [
      ⟨paramsVariable, none, some (.object [("secretKeyRef", .string "params")]), .empty⟩,
      EnvVar.literal "PATH" "/usr/bin", EnvVar.literal paramsVariable "\x7b\x7d"] }

/-- A new build with a strategy. -/
def ofStrategy (strategy : Strategy) : Record :=
  fresh "b-1" "worker" (.ofStrategy strategy) .epoch

theorem setParams_storing_keptInSecret :
    (∃ changed, Storing (.sources .default) (ofStrategy (.ofCustom keptInSecret)) keptInSecret
      changed ∧ changed.envValue? "PATH" = some "/usr/bin") ∧
    (ofStrategy (.ofKind "Source")).apply (.setParams (.sources .default)) =
      ofStrategy (.ofKind "Source") := by
  have storing := (setParams_storing (ofStrategy (.ofCustom keptInSecret)) (.sources .default)).1
  have refused := (setParams_storing (ofStrategy (.ofKind "Source")) (.sources .default)).2 rfl
  rcases storing keptInSecret rfl with ⟨changed, stored⟩
  have path : keptInSecret.envValue? "PATH" = some "/usr/bin" := by decide
  exact ⟨⟨changed, stored, (stored.others "PATH" (by decide)).trans path⟩, refused.2⟩

/-! ## Spelling parameters anew -/

variable {record : Record}

/-- The first variable of the parameters is changed, and nothing else of a record. -/
def ChangesParams (change : EnvVar → EnvVar) (record after : Record) : Prop :=
  ∃ custom env env', record.spec.strategy.custom = some custom ∧ custom.env = some env ∧
    ChangesFirst paramsVariable change env env' ∧
    after = record.withCustom { custom with env := some env' }

/-- At most the first variable of the parameters is changed, in a way that takes a payload. -/
def ChangesAtMost (change : EnvVar → String → EnvVar) (record after : Record) : Prop :=
  after = record ∨ ∃ payload, ChangesParams (change · payload) record after

/-- The first variable of the parameters, if there is one, refers to nothing. -/
def RefersToNothing (record : Record) : Prop :=
  ∀ custom ∈ record.spec.strategy.custom,
    ∀ first ∈ (custom.env.getD []).find? (·.name == paramsVariable), first.valueFrom = none

/-- Storing another payload makes the first variable of the parameters a literal, which changes no
more than its text exactly if it refers to nothing. -/
theorem withPayload_frame {custom : CustomStrategy} {text payload : String}
    (found : record.spec.strategy.custom = some custom) (carried : record.paramsText? = some text)
    (differs : payload ≠ text) :
    ChangesAtMost EnvVar.toLiteral record (record.withPayload custom payload) ∧
    (ChangesAtMost EnvVar.withValue record (record.withPayload custom payload) ↔
      record.RefersToNothing) := by
  have held : custom.envValue? paramsVariable = some text := by
    rwa [paramsText?, found, Option.bind_some] at carried
  rcases custom.setEnv_of_envValue? held payload with ⟨env, env', hasEnv, changes, set⟩
  have stored : record.withPayload custom payload =
      record.withCustom { custom with env := some env' } := by rw [withPayload, set]
  refine ⟨.inr ⟨payload, custom, env, env', found, hasEnv, changes, stored⟩, ?_⟩
  have free : record.RefersToNothing ↔
      ∀ first ∈ env.find? (·.name == paramsVariable), first.valueFrom = none := by
    simp [RefersToNothing, found, hasEnv]
  rw [free, ← changesFirst_withValue_iff changes]
  constructor
  · rintro (same | ⟨other, strategy, before, later, foundOther, hasBefore, kept, same⟩)
    · have payloads := congrArg paramsText? same
      rw [carried] at payloads
      exact absurd (Option.some.inj ((custom.envValue?_setEnv _ _).symm.trans payloads)) differs
    · cases found.symm.trans foundOther
      cases hasEnv.symm.trans hasBefore
      have strategies := congrArg (·.spec.strategy.custom) (stored.symm.trans same)
      cases strategies
      exact ⟨other, kept⟩
  · rintro ⟨other, kept⟩
    exact .inr ⟨other, custom, env, env', found, hasEnv, kept, stored⟩

/-- Spelling parameters anew changes nothing, or makes the first variable of their name a literal
with the new payload.  So it changes no more than a text exactly if nothing is changed, or that
variable refers to nothing. -/
theorem normalizeParams_frame (record : Record) (style : Json.PayloadStyle) :
    ChangesAtMost EnvVar.toLiteral record (record.apply (.normalizeParams style)) ∧
    (ChangesAtMost EnvVar.withValue record (record.apply (.normalizeParams style)) ↔
      record.apply (.normalizeParams style) = record ∨ record.RefersToNothing) := by
  by_cases same : record.apply (.normalizeParams style) = record
  · exact ⟨.inl same, iff_of_true (.inl same) (.inl same)⟩
  rw [or_iff_right same]
  cases done : record.normalizeParams style with
  | error fault => exact absurd (by rw [apply, done]; rfl) same
  | ok outcome =>
      rcases outcome with ⟨changed, after⟩
      have edited : record.apply (.normalizeParams style) = after := by rw [apply, done]; rfl
      rcases normalizeParams_ok done with
        ⟨-, -, unchanged⟩ | ⟨custom, text, value, found, carried, -, differs, -, stored⟩
      · exact absurd (edited.trans unchanged) same
      · rw [edited, stored]
        exact withPayload_frame found carried differs

/-- A new build whose parameters have a payload, and a reference beside it. -/
def referring (payload : String) (reference : Option Json) : Record :=
  ofStrategy (.ofCustom
    { CustomStrategy.ofImage (.ofKind "DockerImage" "buildroot:latest") with
      env := some [⟨paramsVariable, some payload, reference, .empty⟩] })

/-- A reference to a field of the build. -/
def toField : Json := .object [("fieldRef", .string "metadata.annotations")]

/-- The text of the payload is spelled anew, and the reference beside it is gone. -/
theorem normalizeParams_drops_reference :
    (referring "[ ]" (some toField)).apply (.normalizeParams .spaced) = referring "[]" none ∧
      ¬ ChangesAtMost EnvVar.withValue (referring "[ ]" (some toField)) (referring "[]" none) := by
  refine ⟨by decide +kernel, ?_⟩
  rintro (same | ⟨payload, custom, env, env', found, hasEnv, changes, same⟩)
  · exact absurd same (by decide +kernel)
  · cases found
    cases hasEnv
    rcases changes.find? (fun _ => rfl) with ⟨first, before, later⟩
    cases before
    have strategies := congrArg (·.spec.strategy.custom) same
    cases strategies
    have references := congrArg (Option.map (·.valueFrom)) later
    cases references

end Record
end ContainerBuild
