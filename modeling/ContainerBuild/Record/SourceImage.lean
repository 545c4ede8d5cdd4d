import ContainerBuild.Json.Fields
import ContainerBuild.Json.Writer

namespace ContainerBuild

/-!
# The image a build starts from

The reference that an annotation of a record carries as a string.  It is read straight from its
text, so a member that is modelled and named twice is a fault, and it is written without blanks.
-/

/-- A reference to the image a build starts from. -/
structure SourceImage where
  kind : String
  name : String
  nameSpace : Option String
  extra : Dict String Json
deriving DecidableEq

namespace SourceImage

/-- The names that are modelled. -/
def fieldNames : List String := ["kind", "name", "namespace"]

/-- A reference to an image by its pull name. -/
def ofPullName (name : String) : SourceImage := ⟨"DockerImage", name, none, .empty⟩

/-- Read a reference from the tree of its text. -/
def ofTree : Json.Tree → Except Json.Fault SourceImage :=
  Json.Tree.askObject fun fields =>
    SourceImage.mk
      <$> fields.required "kind" (Json.Tree.scalar Json.asString)
      <*> fields.required "name" (Json.Tree.scalar Json.asString)
      <*> fields.optional "namespace" (Json.Tree.scalar Json.asString)
      <*> Dict.ofList <$> fields.others fieldNames (Json.Tree.generic (Json.Tree.levelLimit - 1))

/-- Read a reference from its text. -/
def parse (text : String) : Except Json.Fault SourceImage :=
  (Json.Document.ofText text).read ofTree

/-- A reference as a value. -/
def toJson (image : SourceImage) : Json :=
  .object <|
    [("kind", .string image.kind), ("name", .string image.name)] ++
    Members.optional "namespace" (image.nameSpace.map .string) ++
    image.extra.entries

/-- A reference as the text that an annotation carries. -/
def text (image : SourceImage) : String := image.toJson.compact

end SourceImage
end ContainerBuild
