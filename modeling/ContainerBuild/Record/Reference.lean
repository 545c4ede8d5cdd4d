import ContainerBuild.Json.Answer
import ContainerBuild.Json.OfData

namespace ContainerBuild

/-!
# References between objects of the cluster

Every object of a record has an open rest: members that are not modelled are kept in `extra`, by
name, and are written after the modelled ones.
-/

/-- A reference to an object of some kind. -/
structure ObjectRef where
  kind : Option String
  name : String
  nameSpace : Option String
  extra : Dict String Json
deriving DecidableEq

namespace ObjectRef

/-- The names that are modelled. -/
def fieldNames : List String := ["kind", "name", "namespace"]

/-- A reference to an object of a kind by its name alone. -/
def ofKind (kind name : String) : ObjectRef := ⟨some kind, name, none, .empty⟩

/-- Read a reference. -/
def ofJson : Json → Except Json.Fault ObjectRef :=
  Json.askObject fun members =>
    ObjectRef.mk
      <$> members.optionalField "kind" Json.asString
      <*> members.required "name" Json.asString
      <*> members.optionalField "namespace" Json.asString
      <*> members.unknownDict fieldNames

/-- A reference as a value. -/
def toJson (ref : ObjectRef) : Json :=
  .object <|
    Members.optional "kind" (ref.kind.map .string) ++
    [("name", .string ref.name)] ++
    Members.optional "namespace" (ref.nameSpace.map .string) ++
    ref.extra.entries

end ObjectRef

/-- A reference to an object whose kind and namespace are understood. -/
structure NameRef where
  name : String
  extra : Dict String Json
deriving DecidableEq

namespace NameRef

/-- The names that are modelled. -/
def fieldNames : List String := ["name"]

/-- A reference by name alone. -/
def ofName (name : String) : NameRef := ⟨name, .empty⟩

/-- Read a reference. -/
def ofJson : Json → Except Json.Fault NameRef :=
  Json.askObject fun members =>
    NameRef.mk <$> members.required "name" Json.asString <*> members.unknownDict fieldNames

/-- A reference as a value. -/
def toJson (ref : NameRef) : Json :=
  .object ([("name", .string ref.name)] ++ ref.extra.entries)

end NameRef
end ContainerBuild
