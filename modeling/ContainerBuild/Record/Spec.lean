import ContainerBuild.Record.Strategy

namespace ContainerBuild

/-!
# What a build was asked to do

Parts that are not interpreted (resources, hooks, causes of the build) stay generic values.
-/

/-- A commit of a repository. -/
structure GitSource where
  uri : String
  ref : Option String
  extra : Dict String Json
deriving DecidableEq

namespace GitSource

/-- The names that are modelled. -/
def fieldNames : List String := ["uri", "ref"]

/-- Read a repository. -/
def ofJson : Json → Except Json.Fault GitSource :=
  Json.askObject fun members =>
    GitSource.mk
      <$> members.required "uri" Json.asString
      <*> members.optionalField "ref" Json.asString
      <*> members.unknownDict fieldNames

/-- A repository as a value. -/
def toJson (git : GitSource) : Json :=
  .object <|
    [("uri", .string git.uri)] ++
    Members.optional "ref" (git.ref.map .string) ++
    git.extra.entries

end GitSource

/-- Where the sources come from. -/
structure Source where
  kind : Option String
  git : Option GitSource
  extra : Dict String Json
deriving DecidableEq

namespace Source

/-- The names that are modelled. -/
def fieldNames : List String := ["type", "git"]

/-- Read where the sources come from. -/
def ofJson : Json → Except Json.Fault Source :=
  Json.askObject fun members =>
    Source.mk
      <$> members.optionalField "type" Json.asString
      <*> members.optionalField "git" GitSource.ofJson
      <*> members.unknownDict fieldNames

/-- Where the sources come from, as a value. -/
def toJson (source : Source) : Json :=
  .object <|
    Members.optional "type" (source.kind.map .string) ++
    Members.optional "git" (source.git.map GitSource.toJson) ++
    source.extra.entries

end Source

/-- Where the image goes, and the credentials for that. -/
structure Output where
  target : Option ObjectRef
  pushSecret : Option NameRef
  extra : Dict String Json
deriving DecidableEq

namespace Output

/-- The names that are modelled. -/
def fieldNames : List String := ["to", "pushSecret"]

/-- Read where the image goes. -/
def ofJson : Json → Except Json.Fault Output :=
  Json.askObject fun members =>
    Output.mk
      <$> members.optionalField "to" ObjectRef.ofJson
      <*> members.optionalField "pushSecret" NameRef.ofJson
      <*> members.unknownDict fieldNames

/-- Where the image goes, as a value. -/
def toJson (output : Output) : Json :=
  .object <|
    Members.optional "to" (output.target.map ObjectRef.toJson) ++
    Members.optional "pushSecret" (output.pushSecret.map NameRef.toJson) ++
    output.extra.entries

end Output

/-- What a build was asked to do. -/
structure Spec where
  serviceAccount : Option String
  source : Option Source
  strategy : Strategy
  output : Option Output
  resources : Option (Members Json)
  postCommit : Option (Members Json)
  nodeSelector : Option (Dict String String)
  deadlineSeconds : Option UInt64
  /-- Absent, null, or the causes of the build. -/
  triggeredBy : Option (Option (List Json))
  extra : Dict String Json
deriving DecidableEq

namespace Spec

/-- The names that are modelled. -/
def fieldNames : List String :=
  ["serviceAccount", "source", "strategy", "output", "resources", "postCommit", "nodeSelector",
    "completionDeadlineSeconds", "triggeredBy"]

/-- The request that says no more than its strategy. -/
def ofStrategy (strategy : Strategy) : Spec :=
  ⟨none, none, strategy, none, none, none, none, none, none, .empty⟩

/-- Read what a build was asked to do. -/
def ofJson : Json → Except Json.Fault Spec :=
  Json.askObject fun members =>
    Spec.mk
      <$> members.optionalField "serviceAccount" Json.asString
      <*> members.optionalField "source" Source.ofJson
      <*> members.required "strategy" Strategy.ofJson
      <*> members.optionalField "output" Output.ofJson
      <*> members.optionalField "resources" Json.asObject
      <*> members.optionalField "postCommit" Json.asObject
      <*> members.optionalField "nodeSelector" (Json.asDict Json.asString)
      <*> members.optionalField "completionDeadlineSeconds" Json.asUInt64
      <*> members.nullableField "triggeredBy" Json.asArray
      <*> members.unknownDict fieldNames

/-- The causes of a build, or null. -/
def causesToJson : Option (List Json) → Json
  | some causes => .array causes
  | none => .null

/-- What a build was asked to do, as a value. -/
def toJson (spec : Spec) : Json :=
  .object <|
    Members.optional "serviceAccount" (spec.serviceAccount.map .string) ++
    Members.optional "source" (spec.source.map Source.toJson) ++
    [("strategy", spec.strategy.toJson)] ++
    Members.optional "output" (spec.output.map Output.toJson) ++
    Members.optional "resources" (spec.resources.map .object) ++
    Members.optional "postCommit" (spec.postCommit.map .object) ++
    Members.optional "nodeSelector" (spec.nodeSelector.map Json.ofTexts) ++
    Members.optional "completionDeadlineSeconds"
      (spec.deadlineSeconds.map fun seconds => .ofNat seconds.toNat) ++
    Members.optional "triggeredBy" (spec.triggeredBy.map causesToJson) ++
    spec.extra.entries

/-- The name of the image that the build is to push. -/
def outputImage? (spec : Spec) : Option String :=
  (spec.output.bind (·.target)).map (·.name)

/-- The repository of the sources. -/
def git? (spec : Spec) : Option GitSource := spec.source.bind (·.git)

end Spec
end ContainerBuild
