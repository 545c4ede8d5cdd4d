import ContainerBuild.Proofs.Json.Opening
import ContainerBuild.Proofs.Outcomes
import ContainerBuild.Proofs.Record.Codec
import ContainerBuild.Record.Anomaly
import ContainerBuild.Record.UserParams

namespace ContainerBuild

/-!
# Records with members of unknown names

Every object of a record takes members of names that are not modelled (`Place.opening`), and no
question about a record looks at them (`sameAnswers_of_bare`), except that the repository is told
as a whole (`Place.git?_add`).  So a text that is decoded is still decoded when such a member is
added to it: all other answers stay, and encoding the record gives what it gave before and the new
member in its place (`decode_extended`).
-/

open Json (Opening Field Added Reorders)

/-! ## Records without members of unknown names -/

/-- A reference without the members of unknown names; likewise for all other structures. -/
def ObjectRef.bare (ref : ObjectRef) : ObjectRef := { ref with extra := .empty }

def NameRef.bare (ref : NameRef) : NameRef := { ref with extra := .empty }

def EnvVar.bare (envVar : EnvVar) : EnvVar := { envVar with extra := .empty }

def MountedSecret.bare (mounted : MountedSecret) : MountedSecret :=
  { mounted with secret := mounted.secret.bare, extra := .empty }

def CustomStrategy.bare (strategy : CustomStrategy) : CustomStrategy :=
  { strategy with
    image := strategy.image.bare
    env := strategy.env.map (List.map EnvVar.bare)
    secrets := strategy.secrets.map (List.map MountedSecret.bare)
    extra := .empty }

def Strategy.bare (strategy : Strategy) : Strategy :=
  { strategy with custom := strategy.custom.map CustomStrategy.bare, extra := .empty }

def GitSource.bare (git : GitSource) : GitSource := { git with extra := .empty }

def Source.bare (source : Source) : Source :=
  { source with git := source.git.map GitSource.bare, extra := .empty }

def Output.bare (output : Output) : Output :=
  { output with
    target := output.target.map ObjectRef.bare
    pushSecret := output.pushSecret.map NameRef.bare
    extra := .empty }

def Spec.bare (spec : Spec) : Spec :=
  { spec with
    source := spec.source.map Source.bare
    strategy := spec.strategy.bare
    output := spec.output.map Output.bare
    extra := .empty }

def Metadata.bare (metadata : Metadata) : Metadata := { metadata with extra := .empty }

def Status.bare (status : Status) : Status :=
  { status with config := status.config.map ObjectRef.bare, extra := .empty }

/-- A record without the members of unknown names, anywhere in it. -/
def Record.bare (record : Record) : Record :=
  { record with
    metadata := record.metadata.bare
    spec := record.spec.bare
    status := record.status.bare
    extra := .empty
    nulls := [] }

/-! ## Openings

The rest of every structure is an opening, and the openings of a part are openings of the
structure that has the part. -/

def ObjectRef.opening : Opening codec bare [] fieldNames :=
  .ofRest (fun ref extra => { ref with extra }) fun _ _ => rfl

def NameRef.opening : Opening codec bare [] fieldNames :=
  .ofRest (fun ref extra => { ref with extra }) fun _ _ => rfl

def EnvVar.opening : Opening codec bare [] fieldNames :=
  .ofRest (fun envVar extra => { envVar with extra }) fun _ _ => rfl

section

variable {path known : List String}

namespace MountedSecret

def opening : Opening codec bare [] fieldNames :=
  .ofRest (fun mounted extra => { mounted with extra }) fun _ _ => rfl

def inSecret (opening : Opening NameRef.codec NameRef.bare path known) :
    Opening codec bare ("secretSource" :: path) known :=
  .ofField (Field.required_holds "secretSource" NameRef.codec secret)
    (fun change mounted => { mounted with secret := change mounted.secret })
    (fun _ same mounted => by simp [bare, same]) opening

end MountedSecret

namespace CustomStrategy

def opening : Opening codec bare [] fieldNames :=
  .ofRest (fun strategy extra => { strategy with extra }) fun _ _ => rfl

def inImage (opening : Opening ObjectRef.codec ObjectRef.bare path known) :
    Opening codec bare ("from" :: path) known :=
  .ofField (Field.required_holds "from" ObjectRef.codec image)
    (fun change strategy => { strategy with image := change strategy.image })
    (fun _ same strategy => by simp [bare, same]) opening

def inEnv (opening : Opening (.list EnvVar.codec) (List.map EnvVar.bare) path known) :
    Opening codec bare ("env" :: path) known :=
  .ofField (Field.optional_holds "env" (.list EnvVar.codec) env)
    (fun change strategy => { strategy with env := strategy.env.map change })
    (fun _ same strategy => by simp [bare, Function.comp_def, same]) opening

def inSecrets
    (opening : Opening (.list MountedSecret.codec) (List.map MountedSecret.bare) path known) :
    Opening codec bare ("secrets" :: path) known :=
  .ofField (Field.optional_holds "secrets" (.list MountedSecret.codec) secrets)
    (fun change strategy => { strategy with secrets := strategy.secrets.map change })
    (fun _ same strategy => by simp [bare, Function.comp_def, same]) opening

end CustomStrategy

namespace Strategy

def opening : Opening codec bare [] fieldNames :=
  .ofRest (fun strategy extra => { strategy with extra }) fun _ _ => rfl

def inCustom (opening : Opening CustomStrategy.codec CustomStrategy.bare path known) :
    Opening codec bare ("customStrategy" :: path) known :=
  .ofField (Field.optional_holds "customStrategy" CustomStrategy.codec custom)
    (fun change strategy => { strategy with custom := strategy.custom.map change })
    (fun _ same strategy => by simp [bare, Function.comp_def, same]) opening

end Strategy

def GitSource.opening : Opening codec bare [] fieldNames :=
  .ofRest (fun git extra => { git with extra }) fun _ _ => rfl

namespace Source

def opening : Opening codec bare [] fieldNames :=
  .ofRest (fun source extra => { source with extra }) fun _ _ => rfl

def inGit (opening : Opening GitSource.codec GitSource.bare path known) :
    Opening codec bare ("git" :: path) known :=
  .ofField (Field.optional_holds "git" GitSource.codec git)
    (fun change source => { source with git := source.git.map change })
    (fun _ same source => by simp [bare, Function.comp_def, same]) opening

end Source

namespace Output

def opening : Opening codec bare [] fieldNames :=
  .ofRest (fun output extra => { output with extra }) fun _ _ => rfl

def inTarget (opening : Opening ObjectRef.codec ObjectRef.bare path known) :
    Opening codec bare ("to" :: path) known :=
  .ofField (Field.optional_holds "to" ObjectRef.codec target)
    (fun change output => { output with target := output.target.map change })
    (fun _ same output => by simp [bare, Function.comp_def, same]) opening

def inPushSecret (opening : Opening NameRef.codec NameRef.bare path known) :
    Opening codec bare ("pushSecret" :: path) known :=
  .ofField (Field.optional_holds "pushSecret" NameRef.codec pushSecret)
    (fun change output => { output with pushSecret := output.pushSecret.map change })
    (fun _ same output => by simp [bare, Function.comp_def, same]) opening

end Output

namespace Spec

def opening : Opening codec bare [] fieldNames :=
  .ofRest (fun spec extra => { spec with extra }) (fun _ _ => rfl) (by simp)
    (by simp [Field.nullable])

def inSource (opening : Opening Source.codec Source.bare path known) :
    Opening codec bare ("source" :: path) known :=
  .ofField (Field.optional_holds "source" Source.codec source)
    (fun change spec => { spec with source := spec.source.map change })
    (fun _ same spec => by simp [bare, Function.comp_def, same]) opening
    (by simp) (by simp) (by simp [Field.nullable])

def inStrategy (opening : Opening Strategy.codec Strategy.bare path known) :
    Opening codec bare ("strategy" :: path) known :=
  .ofField (Field.required_holds "strategy" Strategy.codec strategy)
    (fun change spec => { spec with strategy := change spec.strategy })
    (fun _ same spec => by simp [bare, same]) opening
    (by simp) (by simp) (by simp [Field.nullable])

def inOutput (opening : Opening Output.codec Output.bare path known) :
    Opening codec bare ("output" :: path) known :=
  .ofField (Field.optional_holds "output" Output.codec output)
    (fun change spec => { spec with output := spec.output.map change })
    (fun _ same spec => by simp [bare, Function.comp_def, same]) opening
    (by simp) (by simp) (by simp [Field.nullable])

end Spec

def Metadata.opening : Opening codec bare [] fieldNames :=
  .ofRest (fun metadata extra => { metadata with extra }) fun _ _ => rfl

namespace Status

def opening : Opening codec bare [] fieldNames :=
  .ofRest (fun status extra => { status with extra }) fun _ _ => rfl

def inConfig (opening : Opening ObjectRef.codec ObjectRef.bare path known) :
    Opening codec bare ("config" :: path) known :=
  .ofField (Field.optional_holds "config" ObjectRef.codec config)
    (fun change status => { status with config := status.config.map change })
    (fun _ same status => by simp [bare, Function.comp_def, same]) opening

end Status

namespace Record

def opening : Opening codec bare [] fieldNames :=
  .ofRest (fun record extra => { record with extra }) fun _ _ => rfl

def inMetadata (opening : Opening Metadata.codec Metadata.bare path known) :
    Opening codec bare ("metadata" :: path) known :=
  .ofField (Field.required_holds "metadata" Metadata.codec metadata)
    (fun change record => { record with metadata := change record.metadata })
    (fun _ same record => by simp [bare, same]) opening

def inSpec (opening : Opening Spec.codec Spec.bare path known) :
    Opening codec bare ("spec" :: path) known :=
  .ofField (Field.required_holds "spec" Spec.codec spec)
    (fun change record => { record with spec := change record.spec })
    (fun _ same record => by simp [bare, same]) opening

def inCustom (opening : Opening CustomStrategy.codec CustomStrategy.bare path known) :
    Opening codec bare ("spec" :: "strategy" :: "customStrategy" :: path) known :=
  inSpec (Spec.inStrategy (Strategy.inCustom opening))

def inStatus (opening : Opening Status.codec Status.bare path known) :
    Opening codec bare ("status" :: path) known :=
  .ofField (Field.required_holds "status" Status.codec status)
    (fun change record => { record with status := change record.status })
    (fun _ same record => by simp [bare, same]) opening

end Record

end

/-! ## The objects of a record -/

/-- The objects of a record that have members of their own. -/
inductive Place where
  | root
  | metadata
  | spec
  | source
  | git
  | output
  | target
  | pushSecret
  | strategy
  | custom
  | image
  | envVar (index : Nat)
  | mounted (index : Nat)
  | secret (index : Nat)
  | status
  | config
deriving DecidableEq

namespace Place

/-- The names that lead to an object. -/
def path : Place → List String
  | .root => []
  | .metadata => ["metadata"]
  | .spec => ["spec"]
  | .source => ["spec", "source"]
  | .git => ["spec", "source", "git"]
  | .output => ["spec", "output"]
  | .target => ["spec", "output", "to"]
  | .pushSecret => ["spec", "output", "pushSecret"]
  | .strategy => ["spec", "strategy"]
  | .custom => ["spec", "strategy", "customStrategy"]
  | .image => ["spec", "strategy", "customStrategy", "from"]
  | .envVar index => ["spec", "strategy", "customStrategy", "env", toString index]
  | .mounted index => ["spec", "strategy", "customStrategy", "secrets", toString index]
  | .secret index =>
      ["spec", "strategy", "customStrategy", "secrets", toString index, "secretSource"]
  | .status => ["status"]
  | .config => ["status", "config"]

/-- The names that are modelled in an object. -/
def known : Place → List String
  | .root => Record.fieldNames
  | .metadata => Metadata.fieldNames
  | .spec => Spec.fieldNames
  | .source => Source.fieldNames
  | .git => GitSource.fieldNames
  | .output => Output.fieldNames
  | .target | .image | .config => ObjectRef.fieldNames
  | .pushSecret | .secret _ => NameRef.fieldNames
  | .strategy => Strategy.fieldNames
  | .custom => CustomStrategy.fieldNames
  | .envVar _ => EnvVar.fieldNames
  | .mounted _ => MountedSecret.fieldNames
  | .status => Status.fieldNames

open Record in
/-- Every object of a record is an opening for members of other names. -/
def opening : (place : Place) → Opening Record.codec Record.bare place.path place.known
  | .root => Record.opening
  | .metadata => inMetadata Metadata.opening
  | .spec => inSpec Spec.opening
  | .source => inSpec (Spec.inSource Source.opening)
  | .git => inSpec (Spec.inSource (Source.inGit GitSource.opening))
  | .output => inSpec (Spec.inOutput Output.opening)
  | .target => inSpec (Spec.inOutput (Output.inTarget ObjectRef.opening))
  | .pushSecret => inSpec (Spec.inOutput (Output.inPushSecret NameRef.opening))
  | .strategy => inSpec (Spec.inStrategy Strategy.opening)
  | .custom => inCustom CustomStrategy.opening
  | .image => inCustom (CustomStrategy.inImage ObjectRef.opening)
  | .envVar index => inCustom (CustomStrategy.inEnv (.ofItem index EnvVar.opening))
  | .mounted index => inCustom (CustomStrategy.inSecrets (.ofItem index MountedSecret.opening))
  | .secret index => inCustom
      (CustomStrategy.inSecrets (.ofItem index (MountedSecret.inSecret NameRef.opening)))
  | .status => inStatus Status.opening
  | .config => inStatus (Status.inConfig ObjectRef.opening)

/-- A new member shows in the repository if it is added there, and only then. -/
theorem git?_add (place : Place) (name : String) (value : Json) (record : Record) :
    (place.opening.add name value record).spec.git? =
      if place = .git then
        record.spec.git?.map fun git => { git with extra := git.extra.insert name value }
      else record.spec.git? := by
  have source : ∀ change : Source → Source,
      { record.spec with source := record.spec.source.map change }.git? =
        record.spec.source.bind fun source => (change source).git := fun change => by
    rw [Spec.git?, Option.bind_map]
    rfl
  cases place with
  | git =>
      rw [if_pos rfl]
      exact (source _).trans Option.map_bind.symm
  | source =>
      rw [if_neg (by decide)]
      exact source _
  | _ => rfl

end Place

namespace Record

/-! ## What a record is asked -/

/-- Two records answer every question alike but that about the repository as a whole. -/
structure SameAnswers (record other : Record) : Prop where
  name : other.metadata.name = record.metadata.name
  key : other.key? = record.key?
  phase : other.phase = record.phase
  repository : other.repository? = record.repository?
  branch : other.branch? = record.branch?
  pod : other.metadata.pod? = record.metadata.pod?
  outputImage : other.spec.outputImage? = record.spec.outputImage?
  paramsText : other.paramsText? = record.paramsText?
  params : other.params = record.params
  imageTag : other.imageTag = record.imageTag
  sourceImage : other.metadata.sourceImage = record.metadata.sourceImage
  duration : other.status.duration = record.status.duration
  elapsed : other.status.elapsed? = record.status.elapsed?
  anomalies : other.anomalies = record.anomalies

theorem outputImage?_bare (record : Record) :
    record.bare.spec.outputImage? = record.spec.outputImage? := by
  rw [Spec.outputImage?, Spec.outputImage?]
  change ((record.spec.output.map Output.bare).bind _).map _ = _
  cases record.spec.output with
  | none => rfl
  | some output => exact Option.map_map _ ObjectRef.bare output.target

theorem envValue?_bare (strategy : CustomStrategy) (name : String) :
    strategy.bare.envValue? name = strategy.envValue? name := by
  rw [CustomStrategy.envValue?, CustomStrategy.envValue?]
  change (((strategy.env.map (List.map EnvVar.bare)).getD []).find? _).bind _ = _
  cases strategy.env with
  | none => rfl
  | some env =>
      rw [Option.map_some, Option.getD_some, List.find?_map, Option.bind_map]
      rfl

theorem paramsText?_bare (record : Record) : record.bare.paramsText? = record.paramsText? := by
  rw [paramsText?, paramsText?]
  change (record.spec.strategy.custom.map CustomStrategy.bare).bind _ = _
  cases record.spec.strategy.custom with
  | none => rfl
  | some custom => exact envValue?_bare custom paramsVariable

theorem params_bare (record : Record) : record.bare.params = record.params := by
  rw [params, params, paramsText?_bare]

theorem anomalies_bare (record : Record) : record.bare.anomalies = record.anomalies := by
  rw [anomalies, anomalies, outputAnomaly?, outputAnomaly?, outputImage?_bare]
  rfl

/-- No answer depends on members of unknown names. -/
theorem sameAnswers_of_bare {record other : Record} (same : other.bare = record.bare) :
    SameAnswers record other := by
  have alike : ∀ {α : Type} (answer : Record → α),
      (∀ record : Record, answer record.bare = answer record) → answer other = answer record :=
    fun answer ignores => by rw [← ignores, same, ignores]
  exact {
    name := alike (·.metadata.name) fun _ => rfl
    key := alike key? fun _ => rfl
    phase := alike phase fun _ => rfl
    repository := alike repository? fun _ => rfl
    branch := alike branch? fun _ => rfl
    pod := alike (·.metadata.pod?) fun _ => rfl
    outputImage := alike (·.spec.outputImage?) outputImage?_bare
    paramsText := alike paramsText? paramsText?_bare
    params := alike params params_bare
    imageTag := alike imageTag fun record => by rw [imageTag, imageTag, params_bare]
    sourceImage := alike (·.metadata.sourceImage) fun _ => rfl
    duration := alike (·.status.duration) fun _ => rfl
    elapsed := alike (·.status.elapsed?) fun _ => rfl
    anomalies := alike anomalies anomalies_bare }

/-! ## Decoding with one more member -/

/-- A record with a member of an unknown name in one of its objects. -/
def extend (record : Record) (place : Place) (name : String) (value : Json) : Record :=
  { place.opening.add name value { record with nulls := [] } with nulls := record.nulls }

theorem bare_extend (record : Record) (place : Place) (name : String) (value : Json) :
    (record.extend place name value).bare = record.bare :=
  place.opening.bare_add name value { record with nulls := [] }

theorem withoutNulls_of_nulls_eq_nil {record : Record} (none : record.nulls = []) :
    { record with nulls := [] } = record := by
  cases record
  cases none
  rfl

/-- The value with the new member is read as the record with the new member, whose document has
it at the same place.  The nulls to put back stay what they are. -/
theorem ofDocument_extended {record : Record} {before after : Json} {place : Place}
    {name : String} {value : Json} (accepted : ofDocument before = .ok record)
    (beforeWellFormed : before.WellFormed) (unknown : name ∉ place.known)
    (wellFormed : value.WellFormed) (added : Added name value place.path before after) :
    ofDocument after = .ok (record.extend place name value) ∧
      Added name value place.path record.document (record.extend place name value).document := by
  rcases sound_of_ofDocument beforeWellFormed accepted with ⟨sound, keeps, nulls⟩
  have prunes := Json.Shape.prunes_of_keeps keeps
  have isOpen := place.opening.opens unknown
  rcases place.opening.added unknown wellFormed sound.fields (prunes.vacant added.vacant) with
    ⟨fields, keptAdded⟩
  have keepsAfter := Json.Shape.keeps_added codec.distinct isOpen keeps added keptAdded
  constructor
  · refine ofDocument_ok_iff.2 ⟨?_, ?_⟩
    · have read := (codec.read_iff (added.wellFormed wellFormed beforeWellFormed)).2 ⟨fields, keepsAfter⟩
      rw [← withoutNulls_of_nulls_eq_nil (sound_iff.1 fields).2.2] at read
      exact read
    · have dropped := Json.droppedNulls_added beforeWellFormed wellFormed prunes
        (Json.Shape.prunes_of_keeps keepsAfter) added keptAdded
      exact nulls.trans dropped.symm
  · refine keptAdded.restoreNulls fun pointer here below inside => ?_
    have slot := sound.slots pointer here
    rw [inside] at slot
    exact Json.Shape.not_slot_of_open codec.distinct isOpen below slot

/-- Forward compatibility: whatever member of an unknown name is added to an object of a text that
is decoded, the text is still decoded; every question about the record has the answer it had, but
that the repository has the member if it is added there; and the record is written as before with
just that member added.  If their numbers last, both documents are read back. -/
theorem decode_extended {text : String} {record : Record} {before after : Json} {place : Place}
    {name : String} {value : Json} (decoded : decode text = .ok record)
    (parsed : Json.parse text = .ok before) (unknown : name ∉ place.known)
    (wellFormed : value.WellFormed) (added : Added name value place.path before after)
    (shallow : after.depth ≤ Json.Tree.levelLimit) :
    ∃ longer : Record,
      (∀ extended, Json.parse extended = .ok after → decode extended = .ok longer) ∧
      (∀ spelled, Json.Spells after spelled → decode (String.ofList spelled) = .ok longer) ∧
      SameAnswers record longer ∧
      longer.spec.git? = (if place = .git then
          record.spec.git?.map fun git => { git with extra := git.extra.insert name value }
        else record.spec.git?) ∧
      ∃ old new, Reorders before old ∧ Reorders after new ∧ Added name value place.path old new ∧
        ∀ layout, record.encode layout = Json.document layout old ∧
          longer.encode layout = Json.document layout new ∧
          (old.Durable → Json.parse (record.encode layout) = .ok old) ∧
          (new.Durable → Json.parse (longer.encode layout) = .ok new) := by
  rcases decode_ok_iff.1 decoded with ⟨source, parsedSource, accepted⟩
  cases parsed.symm.trans parsedSource
  have within := Json.within_of_parse parsed
  have withinAfter : after.Within Json.Tree.levelLimit :=
    ⟨added.wellFormed wellFormed within.1, shallow⟩
  rcases ofDocument_extended accepted within.1 unknown wellFormed added with
    ⟨acceptedAfter, document⟩
  have accepts (extended : String) (parsedExtended : Json.parse extended = .ok after) :
      decode extended = .ok (record.extend place name value) :=
    decode_ok_iff.2 ⟨after, parsedExtended, acceptedAfter⟩
  refine ⟨record.extend place name value, accepts,
    fun _ spells => accepts _ (Json.parse_of_spells spells withinAfter.1 shallow),
    sameAnswers_of_bare (bare_extend record place name value),
    place.git?_add name value { record with nulls := [] },
    record.document, (record.extend place name value).document,
    reorders_document within.1 accepted, reorders_document withinAfter.1 acceptedAfter, document,
    fun layout => ⟨rfl, rfl, ?_, ?_⟩⟩
  · exact fun durable => parse_encode within accepted durable layout
  · exact fun durable => parse_encode withinAfter acceptedAfter durable layout

/-- A document with nulls of all sorts and one variable of the environment. -/
def withVariable (members : Members Json) : Json :=
  .object [("apiVersion", .string "v1"), ("kind", .string "Build"), ("note", .null),
    ("metadata", .object [("name", .null)]),
    ("spec", .object [
      ("strategy", .object [("type", .string "Custom"),
        ("customStrategy", .object [("from", .object [("name", .string "i")]),
          ("env", .array [.object members])])]),
      ("triggeredBy", .null)]),
    ("status", .object [("phase", .string "New")])]

/-- A value with nulls inside, one of them under a name that is modelled elsewhere. -/
def notice : Json := .object [("value", .null), ("seen", .array [.number (.integer 1), .null])]

theorem added_notice (front back : Members Json)
    (fresh : "notice" ∉ Members.names (front ++ back)) :
    Added "notice" notice (Place.envVar 0).path (withVariable (front ++ back))
      (withVariable (front ++ ("notice", notice) :: back)) := by
  have inVariable : Added "notice" notice [] _ _ := .here fresh
  have inEnv : Added "notice" notice ["0"] (.array [_]) (.array [_]) :=
    @Added.item _ _ _ _ _ [] [] inVariable
  have inCustom := @Added.member "notice" notice "env" _ _ _
    [("from", .object [("name", .string "i")])] [] (by decide) inEnv
  have inStrategy := @Added.member "notice" notice "customStrategy" _ _ _
    [("type", .string "Custom")] [] (by decide) inCustom
  have inSpec := @Added.member "notice" notice "strategy" _ _ _ [] [("triggeredBy", .null)]
    (by decide) inStrategy
  exact @Added.member "notice" notice "spec" _ _ _
    [("apiVersion", .string "v1"), ("kind", .string "Build"), ("note", .null),
      ("metadata", .object [("name", .null)])] [("status", .object [("phase", .string "New")])]
    (by decide) inSpec

theorem decode_extended_notice : ∃ record longer,
    decode ((withVariable [("value", .null), ("name", .string "A")]).document .compact) =
      .ok record ∧
    decode ((withVariable [("value", .null), ("notice", notice),
      ("name", .string "A")]).document .pretty) = .ok longer ∧
    SameAnswers record longer ∧ longer.spec.git? = record.spec.git? ∧
    ∃ old new, record.encode .pretty = Json.document .pretty old ∧
      longer.encode .pretty = Json.document .pretty new ∧
      Added "notice" notice (Place.envVar 0).path old new := by
  have wellFormed : (withVariable [("value", .null), ("name", .string "A")]).WellFormed := by
    simp [withVariable, Json.WellFormed, Json.WellFormedMembers, Json.WellFormedItems]
  have noticeWellFormed : notice.WellFormed := by
    simp [notice, Json.WellFormed, Json.WellFormedMembers, Json.WellFormedItems,
      Json.Number.IsInteger64]
  have parsed := Json.parse_document .compact wellFormed (Json.durable_of_floats_eq_nil rfl)
    (by decide)
  have accepted : (ofDocument
      (withVariable [("value", .null), ("name", .string "A")])).toOption.any (fun _ => true) =
        true := by
    decide +kernel
  have added := added_notice [("value", .null)] [("name", .string "A")] (by decide)
  rcases Except.exists_ok_of_any accepted with ⟨record, read, -⟩
  have decoded := decode_ok_iff.2 ⟨_, parsed, read⟩
  rcases decode_extended decoded parsed (by decide) noticeWellFormed added (by decide) with
    ⟨longer, decodedLonger, -, same, git, old, new, -, -, grown, written⟩
  have parsedLonger := Json.parse_document .pretty (added.wellFormed noticeWellFormed wellFormed)
    (Json.durable_of_floats_eq_nil rfl) (by decide)
  exact ⟨record, longer, decoded, decodedLonger _ parsedLonger, same, git, old, new,
    (written .pretty).1, (written .pretty).2.1, grown⟩

/-- A document with a repository that may have further members. -/
def withRepository (others : String) : String :=
  "\x7b\"apiVersion\":\"v1\",\"kind\":\"Build\",\"metadata\":\x7b\x7d," ++
  "\"spec\":\x7b\"source\":\x7b\"git\":\x7b\"uri\":\"u\"" ++ others ++ "\x7d\x7d," ++
  "\"strategy\":\x7b\"type\":\"Custom\"\x7d\x7d,\"status\":\x7b\"phase\":\"New\"\x7d\x7d"

/-- A member that is added to the repository shows in the answer to the question for it, and a
number that does not last is not written as it was added. -/
theorem git?_changes_withRepository : ∃ record longer,
    decode (withRepository "") = .ok record ∧
    decode (withRepository ",\"x\":5e+32") = .ok longer ∧
    longer.spec.git? ≠ record.spec.git? ∧
    record.encode .compact = withRepository "" ∧
    longer.encode .compact = withRepository ",\"x\":5.0000000000000004e+32" := by
  have evaluated : (decode (withRepository "")).toOption.any (fun record =>
      (decode (withRepository ",\"x\":5e+32")).toOption.any fun longer =>
        decide (longer.spec.git? ≠ record.spec.git? ∧
          record.encode .compact = withRepository "" ∧
          longer.encode .compact = withRepository ",\"x\":5.0000000000000004e+32")) = true := by
    decide +kernel
  rcases Except.exists_ok_of_any evaluated with ⟨record, decoded, added⟩
  rcases Except.exists_ok_of_any added with ⟨longer, decodedLonger, differ⟩
  exact ⟨record, longer, decoded, decodedLonger, of_decide_eq_true differ⟩

end Record

end ContainerBuild
