import ContainerBuild.Json.Pointer
import ContainerBuild.Record.Key
import ContainerBuild.Record.Metadata
import ContainerBuild.Record.Spec
import ContainerBuild.Record.Status

namespace ContainerBuild

/-!
# Records of builds

A record is a snapshot of one build: its metadata, what was asked for and what became of it.

Most optional fields do not tell null from absence.  So that both survive, a record remembers
the nulls of the document it was read from that its fields have no place for, and its document
has them again wherever nothing else has taken their place.
-/

/-- The record of one build. -/
structure Record where
  apiVersion : String
  kind : String
  metadata : Metadata
  spec : Spec
  status : Status
  extra : Dict String Json
  /-- The nulls to put back, in the order of their pointers. -/
  nulls : List Json.Pointer
deriving DecidableEq

namespace Record

/-- The names that are modelled, all of which a document has to have. -/
def fieldNames : List String := ["apiVersion", "kind", "metadata", "spec", "status"]

/-- Read a record from a document; nulls are not remembered yet. -/
def ofJson : Json → Except Json.Fault Record :=
  Json.askObject fun members =>
    (fun apiVersion kind metadata spec status extra =>
        ⟨apiVersion, kind, metadata, spec, status, extra, []⟩)
      <$> members.required "apiVersion" Json.asString
      <*> members.required "kind" Json.asString
      <*> members.required "metadata" Metadata.ofJson
      <*> members.required "spec" Spec.ofJson
      <*> members.required "status" Status.ofJson
      <*> members.unknownDict fieldNames

/-- The fields of a record as a document, without the remembered nulls. -/
def toJson (record : Record) : Json :=
  .object <|
    [("apiVersion", .string record.apiVersion), ("kind", .string record.kind),
      ("metadata", record.metadata.toJson), ("spec", record.spec.toJson),
      ("status", record.status.toJson)] ++
    record.extra.entries

/-- The document of a record. -/
def document (record : Record) : Json := Json.restoreNulls record.nulls record.toJson

/-- Equality of what two records say: the order of members of generic values does not count. -/
def sameValue (a b : Record) : Bool := a.toJson.sameValue b.toJson && a.nulls == b.nulls

/-! ## New records -/

/-- The record of a build that has just been asked for. -/
def fresh (name nameSpace : String) (spec : Spec) (created : Instant) : Record :=
  { apiVersion := "build.openshift.io/v1"
    kind := "Build"
    metadata := { Metadata.blank with
      name := some name
      nameSpace := some nameSpace
      created := some (.stamp created) }
    spec := spec
    status := .ofPhase .new
    extra := .empty
    nulls := [] }

/-! ## Views -/

/-- What a record is stored under; a record without a name cannot be stored. -/
def key? (record : Record) : Option BuildKey :=
  record.metadata.name.map fun name => ⟨record.metadata.nameSpace.getD "", name⟩

/-- The phase of the build. -/
def phase (record : Record) : Phase := record.status.phase

/-- Whether the build is over. -/
def isFinished (record : Record) : Bool := record.phase.isTerminal

/-- Whether the build is over and succeeded. -/
def isSucceeded (record : Record) : Bool := record.phase = .complete

/-- Whether the build is over and did not succeed. -/
def isFailed (record : Record) : Bool := record.phase.isUnsuccessful

/-- Whether the build is running. -/
def isRunning (record : Record) : Bool := record.phase = .running

/-- Whether the build has not started yet. -/
def isPending (record : Record) : Bool := record.phase = .new ∨ record.phase = .pending

/-- The repository, as a label names it. -/
def repository? (record : Record) : Option String :=
  record.metadata.label? Metadata.repositoryKey

/-- The branch, as a label names it. -/
def branch? (record : Record) : Option String := record.metadata.label? Metadata.branchKey

end Record
end ContainerBuild
