import ContainerBuild.ReadError
import ContainerBuild.Record.Reference
import ContainerBuild.Record.SourceImage
import ContainerBuild.Time.Timestamp

namespace ContainerBuild

/-!
# Metadata of a record

Identity, labels and annotations.  One annotation carries the reference to the source image as a
payload; it is looked into only when asked for.
-/

/-- Who and what a record is about. -/
structure Metadata where
  name : Option String
  nameSpace : Option String
  uid : Option String
  created : Option Timestamp
  labels : Option (Dict String String)
  annotations : Option (Dict String String)
  extra : Dict String Json
deriving DecidableEq

namespace Metadata

/-- The names that are modelled. -/
def fieldNames : List String :=
  ["name", "namespace", "uid", "creationTimestamp", "labels", "annotations"]

/-- Metadata that say nothing. -/
def blank : Metadata := ⟨none, none, none, none, none, none, .empty⟩

/-- Read metadata. -/
def ofJson : Json → Except Json.Fault Metadata :=
  Json.askObject fun members =>
    Metadata.mk
      <$> members.optionalField "name" Json.asString
      <*> members.optionalField "namespace" Json.asString
      <*> members.optionalField "uid" Json.asString
      <*> members.optionalField "creationTimestamp" Timestamp.ofJson
      <*> members.optionalField "labels" (Json.asDict Json.asString)
      <*> members.optionalField "annotations" (Json.asDict Json.asString)
      <*> members.unknownDict fieldNames

/-- Metadata as a value. -/
def toJson (metadata : Metadata) : Json :=
  .object <|
    Members.optional "name" (metadata.name.map .string) ++
    Members.optional "namespace" (metadata.nameSpace.map .string) ++
    Members.optional "uid" (metadata.uid.map .string) ++
    Members.optional "creationTimestamp" (metadata.created.map Timestamp.toJson) ++
    Members.optional "labels" (metadata.labels.map Json.ofTexts) ++
    Members.optional "annotations" (metadata.annotations.map Json.ofTexts) ++
    metadata.extra.entries

/-! ## Labels and annotations -/

/-- The annotation that carries the reference to the source image. -/
def sourceImageKey : String := "from"

/-- The annotation that names the pod of the build. -/
def podKey : String := "openshift.io/build.pod-name"

/-- The label that names the repository. -/
def repositoryKey : String := "git-repo-name"

/-- The label that names the branch. -/
def branchKey : String := "git-branch"

/-- The value of a label. -/
def label? (metadata : Metadata) (key : String) : Option String :=
  metadata.labels.bind (·.get? key)

/-- The value of an annotation. -/
def annotation? (metadata : Metadata) (key : String) : Option String :=
  metadata.annotations.bind (·.get? key)

/-- Set an annotation. -/
def annotate (metadata : Metadata) (key value : String) : Metadata :=
  { metadata with annotations := some ((metadata.annotations.getD .empty).insert key value) }

/-- The pod of the build. -/
def pod? (metadata : Metadata) : Option String := metadata.annotation? podKey

/-- The reference to the source image, if there is one. -/
def sourceImage (metadata : Metadata) : Except ReadError (Option SourceImage) :=
  match metadata.annotation? sourceImageKey with
  | none => .ok none
  | some text =>
      (ReadError.inField "metadata.annotations.from" (SourceImage.parse text)).map some

/-- Set the reference to the source image. -/
def setSourceImage (metadata : Metadata) (image : SourceImage) : Metadata :=
  metadata.annotate sourceImageKey image.text

end Metadata
end ContainerBuild
