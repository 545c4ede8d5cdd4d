import ContainerBuild.Proofs.Json.Fields
import ContainerBuild.Record.Basic

namespace ContainerBuild

/-!
# Codecs of records

Every part of a record is read and written field by field.  The codecs below say which fields
those are and which of them take null for absence; everything else follows from
`Codec.record`.
-/

open Json (Codec Field IsRest)

theorem Timestamp.raw_of_parse {raw : String} {timestamp : Timestamp}
    (parsed : parse raw = .ok timestamp) : timestamp.raw = raw := by
  rw [parse] at parsed
  cases read : Rfc3339.parse raw with
  | error fault =>
      rw [read] at parsed
      cases parsed
  | ok instant =>
      rw [read] at parsed
      rw [← Except.ok.inj parsed]

theorem Timestamp.ofJson_string_iff {raw : String} {timestamp : Timestamp} :
    ofJson (.string raw) = .ok timestamp ↔ parse raw = .ok timestamp := by
  have text : (Json.string raw).asString = .ok raw := rfl
  simp only [ofJson, text, bind, Except.bind]
  cases parse raw <;> simp

/-- Timestamps, which are what their text is read as. -/
@[simps! -fullyApplied]
def Timestamp.codec : Codec Timestamp :=
  .plain ofJson toJson (fun timestamp => parse timestamp.raw = .ok timestamp)
    (fun value timestamp _ => by
      cases value with
      | string raw =>
          rw [ofJson_string_iff, toJson, Json.string.injEq]
          constructor
          · intro parsed
            have same := raw_of_parse parsed
            exact ⟨same ▸ parsed, same.symm⟩
          · rintro ⟨parsed, rfl⟩
            exact parsed
      | _ => exact ⟨fun read => (by cases read), fun both => (by cases both.2)⟩)
    (fun _ _ => trivial)

/-- Phases, by name. -/
@[simps! -fullyApplied]
def Phase.codec : Codec Phase :=
  .plain ofJson toJson (fun _ => True)
    (fun value phase _ => by
      cases value with
      | string text =>
          change Except.ok (ofName text) = Except.ok phase ↔ _
          rw [Except.ok.injEq, true_and, toJson, Json.string.injEq]
          constructor
          · rintro rfl
            exact (name_ofName text).symm
          · rintro rfl
            exact ofName_name phase
      | _ => exact ⟨fun read => (by cases read), fun both => (by cases both.2)⟩)
    (fun _ _ => trivial)

@[simps! -fullyApplied read write]
def ObjectRef.codec : Codec ObjectRef :=
  .record
    [.optional "kind" .text kind, .required "name" .text name,
      .optional "namespace" .text nameSpace]
    extra (fun _ => True) ofJson toJson (by decide)
    (fun _ x => by rcases x; simp [ofJson, fieldNames, and_assoc])
    (fun _ => by simp [toJson, Json.writeFields, Members.optional])

theorem ObjectRef.sound_iff {ref : ObjectRef} :
    codec.Sound ref ↔ IsRest fieldNames ref.extra := by
  simp [codec, Codec.record, fieldNames]

@[simps! -fullyApplied read write]
def NameRef.codec : Codec NameRef :=
  .record [.required "name" .text name]
    extra (fun _ => True) ofJson toJson (by decide)
    (fun _ x => by rcases x; simp [ofJson, fieldNames])
    (fun _ => by simp [toJson, Json.writeFields, Members.optional])

theorem NameRef.sound_iff {ref : NameRef} : codec.Sound ref ↔ IsRest fieldNames ref.extra := by
  simp [codec, Codec.record, fieldNames]

@[simps! -fullyApplied read write]
def EnvVar.codec : Codec EnvVar :=
  .record
    [.required "name" .text name, .optional "value" .text value,
      .optional "valueFrom" .any valueFrom]
    extra (fun _ => True) ofJson toJson (by decide)
    (fun _ x => by rcases x; simp [ofJson, fieldNames, and_assoc])
    (fun _ => by simp [toJson, Json.writeFields, Members.optional])

theorem EnvVar.sound_iff {envVar : EnvVar} : codec.Sound envVar ↔
    (∀ value ∈ envVar.valueFrom, value.WellFormed ∧ value ≠ .null) ∧
      IsRest fieldNames envVar.extra := by
  simp [codec, Codec.record, fieldNames]

@[simps! -fullyApplied read write]
def MountedSecret.codec : Codec MountedSecret :=
  .record [.required "mountPath" .text mountPath, .required "secretSource" NameRef.codec secret]
    extra (fun _ => True) ofJson toJson (by decide)
    (fun _ x => by rcases x; simp [ofJson, fieldNames, and_assoc])
    (fun _ => by simp [toJson, Json.writeFields, Members.optional])

theorem MountedSecret.sound_iff {mounted : MountedSecret} : codec.Sound mounted ↔
    NameRef.codec.Sound mounted.secret ∧ IsRest fieldNames mounted.extra := by
  simp [codec, Codec.record, fieldNames]

@[simps! -fullyApplied read write]
def CustomStrategy.codec : Codec CustomStrategy :=
  .record
    [.required "from" ObjectRef.codec image, .optional "env" (.list EnvVar.codec) env,
      .optional "exposeDockerSocket" .truth exposeSocket,
      .optional "secrets" (.list MountedSecret.codec) secrets]
    extra (fun _ => True) ofJson toJson (by decide)
    (fun _ x => by rcases x; simp [ofJson, fieldNames, and_assoc])
    (fun _ => by simp [toJson, Json.writeFields, Members.optional])

theorem CustomStrategy.sound_iff {strategy : CustomStrategy} : codec.Sound strategy ↔
    (ObjectRef.codec.Sound strategy.image ∧
      (∀ env ∈ strategy.env, ∀ envVar ∈ env, EnvVar.codec.Sound envVar) ∧
      ∀ secrets ∈ strategy.secrets, ∀ mounted ∈ secrets, MountedSecret.codec.Sound mounted) ∧
      IsRest fieldNames strategy.extra := by
  simp [codec, Codec.record, fieldNames]

@[simps! -fullyApplied read write]
def Strategy.codec : Codec Strategy :=
  .record
    [.required "type" .text kind, .optional "customStrategy" CustomStrategy.codec custom]
    extra (fun _ => True) ofJson toJson (by decide)
    (fun _ x => by rcases x; simp [ofJson, fieldNames, and_assoc])
    (fun _ => by simp [toJson, Json.writeFields, Members.optional])

theorem Strategy.sound_iff {strategy : Strategy} : codec.Sound strategy ↔
    (∀ custom ∈ strategy.custom, CustomStrategy.codec.Sound custom) ∧
      IsRest fieldNames strategy.extra := by
  simp [codec, Codec.record, fieldNames, CustomStrategy.toJson]

@[simps! -fullyApplied read write]
def GitSource.codec : Codec GitSource :=
  .record [.required "uri" .text uri, .optional "ref" .text ref]
    extra (fun _ => True) ofJson toJson (by decide)
    (fun _ x => by rcases x; simp [ofJson, fieldNames, and_assoc])
    (fun _ => by simp [toJson, Json.writeFields, Members.optional])

@[simps! -fullyApplied read write]
def Source.codec : Codec Source :=
  .record [.optional "type" .text kind, .optional "git" GitSource.codec git]
    extra (fun _ => True) ofJson toJson (by decide)
    (fun _ x => by rcases x; simp [ofJson, fieldNames, and_assoc])
    (fun _ => by simp [toJson, Json.writeFields, Members.optional])

@[simps! -fullyApplied read write]
def Output.codec : Codec Output :=
  .record
    [.optional "to" ObjectRef.codec target, .optional "pushSecret" NameRef.codec pushSecret]
    extra (fun _ => True) ofJson toJson (by decide)
    (fun _ x => by rcases x; simp [ofJson, fieldNames, and_assoc])
    (fun _ => by simp [toJson, Json.writeFields, Members.optional])

@[simps! -fullyApplied read write]
def Spec.codec : Codec Spec :=
  .record
    [.optional "serviceAccount" .text serviceAccount, .optional "source" Source.codec source,
      .required "strategy" Strategy.codec strategy, .optional "output" Output.codec output,
      .optional "resources" .members resources, .optional "postCommit" .members postCommit,
      .optional "nodeSelector" .texts nodeSelector,
      .optional "completionDeadlineSeconds" .word deadlineSeconds,
      .nullable "triggeredBy" .items rfl triggeredBy]
    extra (fun _ => True) ofJson toJson (by decide)
    (fun _ x => by
      rcases x
      -- Answers first: of this many, `simp` alone would ask whether functions exist at all.
      simp only [ofJson, Json.askObject_ok_iff, Json.Answer.seq_found_iff,
        Json.Answer.map_found_iff, exists_and_left, exists_exists_and_eq_and,
        exists_exists_and_exists_and_eq_and, ↓existsAndEq, mk.injEq, and_true]
      simp [fieldNames, Field.nullable, and_assoc])
    (fun x => by
      have causes : causesToJson = Json.ofOption .array := funext fun causes => by
        cases causes <;> rfl
      simp [toJson, Json.writeFields, Members.optional, causes, Field.nullable])

theorem Spec.sound_iff {spec : Spec} : codec.Sound spec ↔
    ((∀ source ∈ spec.source, Source.codec.Sound source) ∧ Strategy.codec.Sound spec.strategy ∧
      (∀ output ∈ spec.output, Output.codec.Sound output) ∧
      (∀ resources ∈ spec.resources, (Json.object resources).WellFormed) ∧
      (∀ hooks ∈ spec.postCommit, (Json.object hooks).WellFormed) ∧
      ∀ causes? ∈ spec.triggeredBy, ∀ causes ∈ causes?, Json.WellFormedItems causes) ∧
      IsRest fieldNames spec.extra := by
  simp [codec, Codec.record, fieldNames, Json.ofTexts, Json.ofNat, Source.toJson, Output.toJson,
    Field.nullable]

@[simps! -fullyApplied read write]
def Metadata.codec : Codec Metadata :=
  .record
    [.optional "name" .text name, .optional "namespace" .text nameSpace,
      .optional "uid" .text uid, .optional "creationTimestamp" Timestamp.codec created,
      .optional "labels" .texts labels, .optional "annotations" .texts annotations]
    extra (fun _ => True) ofJson toJson (by decide)
    (fun _ x => by
      rcases x
      simp only [ofJson, Json.askObject_ok_iff, Json.Answer.seq_found_iff,
        Json.Answer.map_found_iff, exists_and_left, exists_exists_and_eq_and,
        exists_exists_and_exists_and_eq_and, ↓existsAndEq, mk.injEq, and_true]
      simp [fieldNames, and_assoc])
    (fun _ => by simp [toJson, Json.writeFields, Members.optional])

theorem Metadata.sound_iff {metadata : Metadata} : codec.Sound metadata ↔
    (∀ created ∈ metadata.created, Timestamp.parse created.raw = .ok created) ∧
      IsRest fieldNames metadata.extra := by
  simp [codec, Codec.record, fieldNames, Timestamp.toJson, Json.ofTexts]

@[simps! -fullyApplied read write]
def Status.codec : Codec Status :=
  .record
    [.required "phase" Phase.codec phase, .optional "reason" .text reason,
      .optional "message" .text message, .optional "startTimestamp" Timestamp.codec started,
      .optional "completionTimestamp" Timestamp.codec completed,
      .optional "duration" .word duration,
      .optional "outputDockerImageReference" .text outputReference,
      .optional "config" ObjectRef.codec config]
    extra (fun _ => True) ofJson toJson (by decide)
    (fun _ x => by
      rcases x
      simp only [ofJson, Json.askObject_ok_iff, Json.Answer.seq_found_iff,
        Json.Answer.map_found_iff, exists_and_left, exists_exists_and_eq_and,
        exists_exists_and_exists_and_eq_and, ↓existsAndEq, mk.injEq, and_true]
      simp [fieldNames, and_assoc])
    (fun _ => by simp [toJson, Json.writeFields, Members.optional])

theorem Status.sound_iff {status : Status} : codec.Sound status ↔
    ((∀ started ∈ status.started, Timestamp.parse started.raw = .ok started) ∧
      (∀ completed ∈ status.completed, Timestamp.parse completed.raw = .ok completed) ∧
      ∀ config ∈ status.config, ObjectRef.codec.Sound config) ∧
      IsRest fieldNames status.extra := by
  simp [codec, Codec.record, fieldNames, Timestamp.toJson, Json.ofNat, ObjectRef.toJson]

/-- Records, whose remembered nulls are no part of what is read and written here. -/
@[simps! -fullyApplied read write]
def Record.codec : Codec Record :=
  .record
    [.required "apiVersion" .text apiVersion, .required "kind" .text kind,
      .required "metadata" Metadata.codec metadata, .required "spec" Spec.codec spec,
      .required "status" Status.codec status]
    extra (fun record => record.nulls = []) ofJson toJson (by decide)
    (fun _ x => by rcases x; simp [ofJson, fieldNames, and_assoc])
    (fun _ => by simp [toJson, Json.writeFields, Members.optional])

theorem Record.sound_iff {record : Record} : codec.Sound record ↔
    (Metadata.codec.Sound record.metadata ∧ Spec.codec.Sound record.spec ∧
      Status.codec.Sound record.status) ∧
      IsRest fieldNames record.extra ∧ record.nulls = [] := by
  simp [codec, Codec.record, fieldNames]

end ContainerBuild
