import ContainerBuild.Proofs.Outcomes
import ContainerBuild.Proofs.Record.Codec
import ContainerBuild.Proofs.Record.Lifecycle
import ContainerBuild.Proofs.Time.Stamp
import ContainerBuild.Record.UserParams

namespace ContainerBuild

/-!
# Edited records

A record that was decoded or newly made can be edited before it is written: moved along its
lifecycle, given parameters, variables, secrets and annotations, and have fields set or cleared.
No edit touches the remembered nulls, which may come to point at values that were set since, or
at objects that are gone.  Every edit keeps a record sound (`Sound.apply`), so an edited record
is decoded from its own text, and the nulls that it then remembers are those that still have a
place (`edited_roundtrip`).
-/

open Json (IsRest)

/-! ## Parts that edits make -/

theorem Json.isRest_empty (names : List String) : IsRest names .empty :=
  fun _ here => (by cases here)

namespace CustomStrategy

theorem sound_setVariable {env : List EnvVar} (sound : ∀ envVar ∈ env, EnvVar.codec.Sound envVar)
    (name value : String) : ∀ envVar ∈ setVariable name value env, EnvVar.codec.Sound envVar := by
  have literal (extra : Dict String Json) (rest : IsRest EnvVar.fieldNames extra) :
      EnvVar.codec.Sound ⟨name, some value, none, extra⟩ :=
    EnvVar.sound_iff.2 ⟨fun _ here => (by cases here), rest⟩
  induction env with
  | nil =>
      intro envVar here
      rw [List.mem_singleton.1 here]
      exact literal .empty (Json.isRest_empty _)
  | cons first rest inductionHypothesis =>
      have parts := List.forall_mem_cons.1 sound
      rw [setVariable]
      split
      next same =>
        refine List.forall_mem_cons.2 ⟨?_, parts.2⟩
        rw [same]
        exact literal first.extra (EnvVar.sound_iff.1 parts.1).2
      next => exact List.forall_mem_cons.2 ⟨parts.1, inductionHypothesis parts.2⟩

variable {strategy : CustomStrategy}

theorem sound_setEnv (sound : codec.Sound strategy) (name value : String) :
    codec.Sound (strategy.setEnv name value) := by
  rcases sound_iff.1 sound with ⟨⟨image, env, secrets⟩, rest⟩
  refine sound_iff.2 ⟨⟨image, fun changed here => ?_, secrets⟩, rest⟩
  rw [← Option.some.inj here]
  refine sound_setVariable (fun envVar inEnv => ?_) name value
  cases found : strategy.env with
  | none =>
      rw [found] at inEnv
      cases inEnv
  | some before =>
      rw [found] at inEnv
      exact env before found envVar inEnv

theorem sound_addSecret (sound : codec.Sound strategy) (mountPath name : String) :
    codec.Sound (strategy.addSecret mountPath name) := by
  rcases sound_iff.1 sound with ⟨⟨image, env, secrets⟩, rest⟩
  refine sound_iff.2 ⟨⟨image, env, fun changed here => ?_⟩, rest⟩
  rw [← Option.some.inj here]
  intro mounted inSecrets
  rcases List.mem_append.1 inSecrets with old | new
  · cases found : strategy.secrets with
    | none =>
        rw [found] at old
        cases old
    | some before =>
        rw [found] at old
        exact secrets before found mounted old
  · rw [List.mem_singleton.1 new]
    exact MountedSecret.sound_iff.2
      ⟨NameRef.sound_iff.2 (Json.isRest_empty _), Json.isRest_empty _⟩

end CustomStrategy

namespace Record

/-! ## Edits -/

/-- What can be done to a record.  Times are given as texts, and instants by a clock. -/
inductive Edit where
  | call (call : Call)
  | setParams (params : Params)
  | normalizeParams (style : Json.PayloadStyle)
  | setEnv (name value : String)
  | addSecret (mountPath name : String)
  | dropCustom
  | annotate (key value : String)
  | setSourceImage (image : SourceImage)
  | setName (name : Option String)
  | setNameSpace (nameSpace : Option String)
  | setLabels (labels : Option (Dict String String))
  | setCreated (time : Option String)
  | setStarted (time : Option String)
  | setCompleted (time : Option String)
  | setPhase (name : String)
  | setReason (reason : Option String)
  | setMessage (message : Option String)
  | setDuration (nanos : Option UInt64)
  | setOutputReference (reference : Option String)
  | setTriggeredBy (causes? : Option (Option (List Json)))

namespace Edit

/-- What an edit can be given: the year of an instant has four digits, and values have distinct
names and numbers that fit. -/
def Admissible : Edit → Prop
  | .call move => move.instant.Dated
  | .setTriggeredBy causes? => ∀ causes ∈ causes?.join, Json.WellFormedItems causes
  | _ => True

end Edit

/-- Set a time from its text, if that can be read; without a text the time is cleared. -/
def withTime (record : Record) (time : Option String) (set : Option Timestamp → Record) : Record :=
  match time with
  | none => set none
  | some raw =>
      match Timestamp.parse raw with
      | .ok timestamp => set (some timestamp)
      | .error _ => record

/-- Change the custom strategy, if there is one. -/
def onCustom (record : Record) (change : CustomStrategy → CustomStrategy) : Record :=
  match record.spec.strategy.custom with
  | some custom => record.withCustom (change custom)
  | none => record

/-- The record after an edit; an edit that is rejected leaves it as it was. -/
def apply (record : Record) : Edit → Record
  | .call call => record.step call
  | .setParams params => (record.setParams params).toOption.getD record
  | .normalizeParams style => ((record.normalizeParams style).toOption.map Prod.snd).getD record
  | .setEnv name value => record.onCustom (·.setEnv name value)
  | .addSecret mountPath name => record.onCustom (·.addSecret mountPath name)
  | .dropCustom => { record with spec.strategy.custom := none }
  | .annotate key value => { record with metadata := record.metadata.annotate key value }
  | .setSourceImage image => { record with metadata := record.metadata.setSourceImage image }
  | .setName name => { record with metadata.name := name }
  | .setNameSpace nameSpace => { record with metadata.nameSpace := nameSpace }
  | .setLabels labels => { record with metadata.labels := labels }
  | .setCreated time =>
      record.withTime time fun created => { record with metadata.created := created }
  | .setStarted time =>
      record.withTime time fun started => { record with status.started := started }
  | .setCompleted time =>
      record.withTime time fun completed => { record with status.completed := completed }
  | .setPhase name => { record with status.phase := .ofName name }
  | .setReason reason => { record with status.reason := reason }
  | .setMessage message => { record with status.message := message }
  | .setDuration nanos => { record with status.duration := nanos }
  | .setOutputReference reference => { record with status.outputReference := reference }
  | .setTriggeredBy causes? => { record with spec.triggeredBy := causes? }

/-- The record after edits. -/
def afterEdits (record : Record) (edits : List Edit) : Record := edits.foldl apply record

/-! ## What edits keep -/

/-- What spelling anew comes to when it succeeds: without a payload, or if the payload is spelled
that way already, nothing happens, and else the new one is stored. -/
theorem normalizeParams_ok {record after : Record} {style : Json.PayloadStyle} {changed : Bool}
    (done : record.normalizeParams style = .ok (changed, after)) :
    ((record.paramsText? = none ∨ ∃ text value, record.paramsText? = some text ∧
        Json.parse text = .ok value ∧ value.payload style = text) ∧
      changed = false ∧ after = record) ∨
    ∃ custom text value, record.spec.strategy.custom = some custom ∧
      record.paramsText? = some text ∧ Json.parse text = .ok value ∧
      value.payload style ≠ text ∧ changed = true ∧
      after = record.withCustom (custom.setEnv paramsVariable (value.payload style)) := by
  rw [normalizeParams] at done
  split at done
  next custom text found carried =>
    cases parsed : Json.parse text with
    | error fault =>
        rw [parsed] at done
        cases done
    | ok value =>
        rw [parsed] at done
        simp only [ReadError.inField, Except.mapError, bind, Except.bind] at done
        by_cases same : value.payload style = text
        · rw [if_pos same] at done
          cases done
          exact .inl ⟨.inr ⟨text, value, carried, parsed, same⟩, rfl, rfl⟩
        · rw [if_neg same] at done
          cases done
          exact .inr ⟨custom, text, value, found, carried, parsed, same, rfl, rfl⟩
  next absent =>
    cases done
    refine .inl ⟨.inl (Option.eq_none_iff_forall_ne_some.2 fun text carried => ?_), rfl, rfl⟩
    rcases Option.bind_eq_some_iff.1 carried with ⟨custom, found, -⟩
    exact absent custom text found carried

/-- Spelling the parameters anew sets one variable or changes nothing. -/
theorem normalizeParams_cases (record : Record) (style : Json.PayloadStyle) :
    ((record.normalizeParams style).toOption.map Prod.snd).getD record = record ∨
      ∃ custom ∈ record.spec.strategy.custom, ∃ text,
        ((record.normalizeParams style).toOption.map Prod.snd).getD record =
          record.withCustom (custom.setEnv paramsVariable text) := by
  cases done : record.normalizeParams style with
  | error fault => exact Or.inl rfl
  | ok outcome =>
      rcases normalizeParams_ok done with
        ⟨-, -, same⟩ | ⟨custom, _, value, found, -, -, -, -, stored⟩
      · exact Or.inl same
      · exact Or.inr ⟨custom, found, value.payload style, stored⟩

namespace Sound

variable {record : Record}

theorem parts (sound : record.Sound) : Metadata.codec.Sound record.metadata ∧
    Spec.codec.Sound record.spec ∧ Status.codec.Sound record.status :=
  (sound_iff.1 sound.fields).1

/-- A record is sound if its parts are; what edits leave alone was sound before. -/
theorem withParts (sound : record.Sound) {metadata : Metadata} {spec : Spec} {status : Status}
    (metadataSound : Metadata.codec.Sound metadata) (specSound : Spec.codec.Sound spec)
    (statusSound : Status.codec.Sound status) :
    Sound { record with metadata := metadata, spec := spec, status := status } :=
  ⟨sound_iff.2 ⟨⟨metadataSound, specSound, statusSound⟩, (sound_iff.1 sound.fields).2⟩,
    sound.ascending, sound.slots⟩

theorem withMetadata (sound : record.Sound) {metadata : Metadata}
    (metadataSound : Metadata.codec.Sound metadata) :
    Sound { record with metadata := metadata } :=
  sound.withParts metadataSound sound.parts.2.1 sound.parts.2.2

theorem withStatus (sound : record.Sound) {status : Status}
    (statusSound : Status.codec.Sound status) : Sound { record with status := status } :=
  sound.withParts sound.parts.1 sound.parts.2.1 statusSound

theorem withSpec (sound : record.Sound) {spec : Spec} (specSound : Spec.codec.Sound spec) :
    Sound { record with spec := spec } :=
  sound.withParts sound.parts.1 specSound sound.parts.2.2

/-- A strategy may lose its custom part or be given another sound one. -/
theorem withCustom? (sound : record.Sound) {custom : Option CustomStrategy}
    (customSound : ∀ strategy ∈ custom, CustomStrategy.codec.Sound strategy) :
    Sound { record with spec.strategy.custom := custom } := by
  rcases Spec.sound_iff.1 sound.parts.2.1 with ⟨⟨source, strategy, others⟩, rest⟩
  apply sound.withSpec
  exact Spec.sound_iff.2
    ⟨⟨source, Strategy.sound_iff.2 ⟨customSound, (Strategy.sound_iff.1 strategy).2⟩, others⟩, rest⟩

theorem custom (sound : record.Sound) :
    ∀ strategy ∈ record.spec.strategy.custom, CustomStrategy.codec.Sound strategy :=
  (Strategy.sound_iff.1 (Spec.sound_iff.1 sound.parts.2.1).1.2.1).1

theorem onCustom (sound : record.Sound) {change : CustomStrategy → CustomStrategy}
    (keeps : ∀ strategy, CustomStrategy.codec.Sound strategy →
      CustomStrategy.codec.Sound (change strategy)) : (record.onCustom change).Sound := by
  unfold Record.onCustom
  split
  next strategy found =>
    apply sound.withCustom?
    intro changed here
    rw [← Option.some.inj here]
    exact keeps strategy (sound.custom strategy found)
  next => exact sound

theorem setParams (sound : record.Sound) (params : Params) :
    ((record.setParams params).toOption.getD record).Sound := by
  unfold Record.setParams
  split
  next strategy found =>
    apply sound.withCustom?
    intro changed here
    rw [← Option.some.inj here]
    exact CustomStrategy.sound_setEnv (sound.custom strategy found) _ _
  next => exact sound

theorem normalizeParams (sound : record.Sound) (style : Json.PayloadStyle) :
    (((record.normalizeParams style).toOption.map Prod.snd).getD record).Sound := by
  rcases normalizeParams_cases record style with unchanged | ⟨strategy, found, text, changed⟩
  · rw [unchanged]
    exact sound
  · rw [changed]
    apply sound.withCustom?
    intro spelled here
    rw [← Option.some.inj here]
    exact CustomStrategy.sound_setEnv (sound.custom strategy found) _ _

/-- A time that is set is what its text is read as. -/
theorem withTime (sound : record.Sound) (time : Option String)
    {set : Option Timestamp → Record} (sets : ∀ time : Option Timestamp,
      (∀ timestamp ∈ time, Timestamp.parse timestamp.raw = .ok timestamp) → (set time).Sound) :
    (record.withTime time set).Sound := by
  unfold Record.withTime
  split
  · exact sets none fun _ here => (by cases here)
  next raw =>
    split
    next timestamp parsed =>
      apply sets
      intro same here
      rw [← Option.some.inj here, Timestamp.raw_of_parse parsed]
      exact parsed
    next => exact sound

/-- A call stamps times that are read back from their texts. -/
theorem step (sound : record.Sound) {call : Call} (dated : call.instant.Dated) :
    (record.step call).Sound := by
  rcases step_cases record call with ⟨-, -, unchanged⟩ | ⟨-, -, reason, message, moved⟩
  · rw [unchanged]
    exact sound
  · rw [moved]
    apply sound.withStatus
    rcases Status.sound_iff.1 sound.parts.2.2 with ⟨⟨started, completed, config⟩, rest⟩
    have stamped := Timestamp.parse_stamp dated
    refine Status.sound_iff.2 ⟨⟨fun time here => ?_, fun time here => ?_, ?_⟩, ?_⟩
    · rcases mem_started_of_mem_movedStatus here with old | rfl
      · exact started time old
      · exact stamped
    · rcases mem_completed_of_mem_movedStatus here with old | rfl
      · exact completed time old
      · exact stamped
    · change ∀ config ∈ (movedStatus _ _ _).config, _
      rw [movedStatus_config]
      exact config
    · change IsRest _ (movedStatus _ _ _).extra
      rw [movedStatus_extra]
      exact rest

/-- Every edit keeps a record sound. -/
theorem apply (sound : record.Sound) {edit : Edit} (admissible : edit.Admissible) :
    (record.apply edit).Sound := by
  have metadata := Metadata.sound_iff.1 sound.parts.1
  have spec := Spec.sound_iff.1 sound.parts.2.1
  have status := Status.sound_iff.1 sound.parts.2.2
  cases edit with
  | call move => exact sound.step admissible
  | setParams params => exact sound.setParams params
  | normalizeParams style => exact sound.normalizeParams style
  | setEnv name value =>
      exact sound.onCustom fun _ custom => CustomStrategy.sound_setEnv custom name value
  | addSecret mountPath name =>
      exact sound.onCustom fun _ custom => CustomStrategy.sound_addSecret custom mountPath name
  | dropCustom => exact sound.withCustom? fun _ here => (by cases here)
  | annotate | setSourceImage | setName | setNameSpace | setLabels =>
      exact sound.withMetadata (Metadata.sound_iff.2 metadata)
  | setPhase | setReason | setMessage | setDuration | setOutputReference =>
      exact sound.withStatus (Status.sound_iff.2 status)
  | setCreated time =>
      change (record.withTime time fun time => { record with metadata.created := time }).Sound
      apply sound.withTime
      intro _ created
      exact sound.withMetadata (Metadata.sound_iff.2 ⟨created, metadata.2⟩)
  | setStarted time =>
      change (record.withTime time fun time => { record with status.started := time }).Sound
      apply sound.withTime
      intro _ started
      exact sound.withStatus (Status.sound_iff.2 ⟨⟨started, status.1.2⟩, status.2⟩)
  | setCompleted time =>
      change (record.withTime time fun time => { record with status.completed := time }).Sound
      apply sound.withTime
      intro _ completed
      exact sound.withStatus
        (Status.sound_iff.2 ⟨⟨status.1.1, completed, status.1.2.2⟩, status.2⟩)
  | setTriggeredBy causes? =>
      rcases spec with ⟨⟨source, strategy, output, resources, hooks, -⟩, rest⟩
      refine sound.withSpec (Spec.sound_iff.2
        ⟨⟨source, strategy, output, resources, hooks, fun given here causes inGiven => ?_⟩, rest⟩)
      apply admissible
      change causes? = some given at here
      rw [here, Option.join_some]
      exact inGiven

end Sound

theorem nulls_withTime {record : Record} {time : Option String} {set : Option Timestamp → Record}
    (same : ∀ time, (set time).nulls = record.nulls) :
    (record.withTime time set).nulls = record.nulls := by
  unfold withTime
  split
  · exact same none
  · split
    · exact same _
    · rfl

/-- No edit touches the remembered nulls. -/
theorem nulls_apply (record : Record) (edit : Edit) : (record.apply edit).nulls = record.nulls := by
  cases edit with
  | call move =>
      change (record.step move).nulls = record.nulls
      rcases step_cases record move with ⟨-, -, unchanged⟩ | ⟨-, -, reason, message, moved⟩
      · rw [unchanged]
      · rw [moved]
  | setParams params =>
      change ((record.setParams params).toOption.getD record).nulls = record.nulls
      unfold setParams
      split <;> rfl
  | normalizeParams style =>
      change (((record.normalizeParams style).toOption.map Prod.snd).getD record).nulls =
        record.nulls
      rcases normalizeParams_cases record style with unchanged | ⟨custom, -, text, changed⟩
      · rw [unchanged]
      · rw [changed]
        rfl
  | setEnv name value | addSecret mountPath name =>
      change (record.onCustom _).nulls = record.nulls
      unfold onCustom
      split <;> rfl
  | setCreated time | setStarted time | setCompleted time =>
      exact nulls_withTime fun _ => rfl
  | _ => rfl

/-! ## There and back after edits -/

/-- Where a record that is edited comes from: a text, or a request for a build in an image or of
some other strategy. -/
inductive Origin : Record → Prop where
  | decoded {text : String} {record : Record} (decoded : decode text = .ok record) : Origin record
  | image (name nameSpace kind image : String) {created : Instant} (dated : created.Dated) :
      Origin (fresh name nameSpace
        (.ofStrategy (.ofCustom (.ofImage (.ofKind kind image)))) created)
  | bare (name nameSpace strategy : String) {created : Instant} (dated : created.Dated) :
      Origin (fresh name nameSpace (.ofStrategy (.ofKind strategy)) created)

theorem sound_fresh {strategy : Strategy}
    (custom : ∀ custom ∈ strategy.custom, CustomStrategy.codec.Sound custom)
    (closed : strategy.extra = .empty) {created : Instant} (dated : created.Dated)
    (name nameSpace : String) : (fresh name nameSpace (.ofStrategy strategy) created).Sound := by
  have strategySound : Strategy.codec.Sound strategy :=
    Strategy.sound_iff.2 ⟨custom, closed ▸ Json.isRest_empty _⟩
  have metadata : Metadata.codec.Sound { Metadata.blank with
      name := some name
      nameSpace := some nameSpace
      created := some (.stamp created) } :=
    Metadata.sound_iff.2 ⟨fun time here => Option.some.inj here ▸ Timestamp.parse_stamp dated,
      Json.isRest_empty _⟩
  have spec : Spec.codec.Sound (.ofStrategy strategy) :=
    Spec.sound_iff.2 ⟨⟨fun _ here => (by cases here), strategySound, fun _ here => (by cases here),
      fun _ here => (by cases here), fun _ here => (by cases here),
      fun _ here => (by cases here)⟩, Json.isRest_empty _⟩
  have status : Status.codec.Sound (.ofPhase .new) :=
    Status.sound_iff.2 ⟨⟨fun _ here => (by cases here), fun _ here => (by cases here),
      fun _ here => (by cases here)⟩, Json.isRest_empty _⟩
  exact ⟨sound_iff.2 ⟨⟨metadata, spec, status⟩, Json.isRest_empty _, rfl⟩, List.Pairwise.nil,
    fun _ here => (by cases here)⟩

theorem Origin.sound {record : Record} (origin : Origin record) : record.Sound := by
  cases origin with
  | decoded decoded => exact sound_of_decode decoded
  | image name nameSpace kind image dated =>
      refine sound_fresh (fun custom here => ?_) rfl dated name nameSpace
      rw [← Option.some.inj here]
      exact CustomStrategy.sound_iff.2 ⟨⟨ObjectRef.sound_iff.2 (Json.isRest_empty _),
        fun _ here => (by cases here), fun _ here => (by cases here)⟩, Json.isRest_empty _⟩
  | bare name nameSpace strategy dated =>
      exact sound_fresh (fun _ here => (by cases here)) rfl dated name nameSpace

theorem sound_afterEdits {record : Record} (sound : record.Sound) {edits : List Edit}
    (admissible : ∀ edit ∈ edits, edit.Admissible) : (record.afterEdits edits).Sound := by
  induction edits generalizing record with
  | nil => exact sound
  | cons edit rest inductionHypothesis =>
      have parts := List.forall_mem_cons.1 admissible
      exact inductionHypothesis (sound.apply parts.1) parts.2

theorem nulls_afterEdits (record : Record) (edits : List Edit) :
    (record.afterEdits edits).nulls = record.nulls := by
  induction edits generalizing record with
  | nil => rfl
  | cons edit rest inductionHypothesis =>
      exact (inductionHypothesis (record.apply edit)).trans (nulls_apply record edit)

/-- The document of an edited record says what the fields say everywhere, and null only where the
field is still unset and the object around it is still there; nothing that was set or dropped is
covered or comes back.  If its numbers last and it is no deeper than can be read, the record is
decoded from its own text, but for remembered nulls without a place. -/
theorem edited_roundtrip {start : Record} (origin : Origin start) {edits : List Edit}
    (admissible : ∀ edit ∈ edits, edit.Admissible) (layout : Json.Layout) :
    let edited := start.afterEdits edits
    (∀ path, edited.document.nodeAt? path =
      if ⟨path⟩ ∈ start.nulls ∧ edited.toJson.Vacant path then some .null
      else edited.toJson.nodeAt? path) ∧
    (edited.document.Durable → edited.document.depth ≤ Json.Tree.levelLimit →
      Json.parse (edited.encode layout) = .ok edited.document ∧
      decode (edited.encode layout) = .ok { edited with
        nulls := start.nulls.filter fun pointer => edited.toJson.Vacant pointer.tokens }) := by
  intro edited
  have sound : edited.Sound := sound_afterEdits origin.sound admissible
  have nulls : edited.nulls = start.nulls := nulls_afterEdits start edits
  refine ⟨fun path => ?_, fun durable shallow => ⟨?_, ?_⟩⟩
  · rw [document, Json.nodeAt?_restoreNulls, nulls]
  · exact Json.parse_document layout sound.wellFormed_document durable shallow
  · rw [decode_encode sound durable shallow layout, nulls]

/-- A name is set where a null was, and a variable is added behind one with a null. -/
def setName_setEnv : List Edit := [.setName (some "b-1"), .setEnv "B" "1"]

theorem edited_roundtrip_withNulls : ∃ start again, decode withNulls = .ok start ∧
    decode ((start.afterEdits setName_setEnv).encode .compact) = .ok again ∧
    again.metadata.name = some "b-1" ∧
    again.nulls = [⟨["spec", "strategy", "customStrategy", "env", "0", "value"]⟩] := by
  have evaluated : (decode withNulls).toOption.any (fun start =>
      let edited := start.afterEdits setName_setEnv
      (edited.document.Durable ∧ edited.document.depth ≤ Json.Tree.levelLimit) ∧
        edited.metadata.name = some "b-1" ∧
        (start.nulls.filter fun pointer => edited.toJson.Vacant pointer.tokens) =
          [⟨["spec", "strategy", "customStrategy", "env", "0", "value"]⟩]) = true := by
    decide +kernel
  rcases Except.exists_ok_of_any evaluated with ⟨start, decoded, known⟩
  rcases of_decide_eq_true known with ⟨readable, name, nulls⟩
  have admissible : ∀ edit ∈ setName_setEnv, edit.Admissible := by
    simp [setName_setEnv, Edit.Admissible]
  have roundtrip := edited_roundtrip (.decoded decoded) admissible .compact
  exact ⟨start, _, decoded, (roundtrip.2 readable.1 readable.2).2, name, nulls⟩

/-- A document with a number that does not last, under an unknown name. -/
def unsteady : String :=
  "\x7b\"apiVersion\":\"v1\",\"kind\":\"Build\",\"metadata\":\x7b\x7d," ++
  "\"spec\":\x7b\"strategy\":\x7b\"type\":\"Custom\"\x7d\x7d," ++
  "\"status\":\x7b\"phase\":\"New\"\x7d,\"x\":5e32\x7d"

/-- The record of such a document is decoded as another from its own text. -/
theorem decode_encode_unsteady : ∃ start again, decode unsteady = .ok start ∧
    decode ((start.afterEdits []).encode .compact) = .ok again ∧ again.extra ≠ start.extra := by
  have evaluated : (decode unsteady).toOption.any (fun start =>
      (decode (start.encode .compact)).toOption.any fun again =>
        decide (again.extra ≠ start.extra)) = true := by
    decide +kernel
  rcases Except.exists_ok_of_any evaluated with ⟨start, decoded, written⟩
  rcases Except.exists_ok_of_any written with ⟨again, decodedAgain, differs⟩
  exact ⟨start, again, decoded, decodedAgain, of_decide_eq_true differs⟩

end Record
end ContainerBuild
