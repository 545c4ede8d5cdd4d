import ContainerBuild.Record.Reference

namespace ContainerBuild

/-!
# How a build is run

Only the custom strategy is modelled: a builder image with environment and secrets.  Any other
strategy is kept as it is.
-/

/-- A variable of the environment: a literal value, or a reference to where the value is. -/
structure EnvVar where
  name : String
  value : Option String
  valueFrom : Option Json
  extra : Dict String Json
deriving DecidableEq

namespace EnvVar

/-- The names that are modelled. -/
def fieldNames : List String := ["name", "value", "valueFrom"]

/-- A variable with a literal value. -/
def literal (name value : String) : EnvVar := ⟨name, some value, none, .empty⟩

/-- Read a variable. -/
def ofJson : Json → Except Json.Fault EnvVar :=
  Json.askObject fun members =>
    EnvVar.mk
      <$> members.required "name" Json.asString
      <*> members.optionalField "value" Json.asString
      <*> members.optionalField "valueFrom" Json.asAny
      <*> members.unknownDict fieldNames

/-- A variable as a value. -/
def toJson (envVar : EnvVar) : Json :=
  .object <|
    [("name", .string envVar.name)] ++
    Members.optional "value" (envVar.value.map .string) ++
    Members.optional "valueFrom" envVar.valueFrom ++
    envVar.extra.entries

end EnvVar

/-- A secret and where the build finds it. -/
structure MountedSecret where
  mountPath : String
  secret : NameRef
  extra : Dict String Json
deriving DecidableEq

namespace MountedSecret

/-- The names that are modelled. -/
def fieldNames : List String := ["mountPath", "secretSource"]

/-- Read a secret. -/
def ofJson : Json → Except Json.Fault MountedSecret :=
  Json.askObject fun members =>
    MountedSecret.mk
      <$> members.required "mountPath" Json.asString
      <*> members.required "secretSource" NameRef.ofJson
      <*> members.unknownDict fieldNames

/-- A secret as a value. -/
def toJson (mounted : MountedSecret) : Json :=
  .object <|
    [("mountPath", .string mounted.mountPath), ("secretSource", mounted.secret.toJson)] ++
    mounted.extra.entries

end MountedSecret

/-- A build that runs inside a builder image. -/
structure CustomStrategy where
  image : ObjectRef
  env : Option (List EnvVar)
  exposeSocket : Option Bool
  secrets : Option (List MountedSecret)
  extra : Dict String Json
deriving DecidableEq

namespace CustomStrategy

/-- The names that are modelled. -/
def fieldNames : List String := ["from", "env", "exposeDockerSocket", "secrets"]

/-- The strategy that only names its image. -/
def ofImage (image : ObjectRef) : CustomStrategy := ⟨image, none, none, none, .empty⟩

/-- Read a custom strategy. -/
def ofJson : Json → Except Json.Fault CustomStrategy :=
  Json.askObject fun members =>
    CustomStrategy.mk
      <$> members.required "from" ObjectRef.ofJson
      <*> members.optionalField "env" (Json.asList EnvVar.ofJson)
      <*> members.optionalField "exposeDockerSocket" Json.asBool
      <*> members.optionalField "secrets" (Json.asList MountedSecret.ofJson)
      <*> members.unknownDict fieldNames

/-- A custom strategy as a value. -/
def toJson (strategy : CustomStrategy) : Json :=
  .object <|
    [("from", strategy.image.toJson)] ++
    Members.optional "env" (strategy.env.map fun env => .array (env.map EnvVar.toJson)) ++
    Members.optional "exposeDockerSocket" (strategy.exposeSocket.map .bool) ++
    Members.optional "secrets"
      (strategy.secrets.map fun secrets => .array (secrets.map MountedSecret.toJson)) ++
    strategy.extra.entries

/-! ## Environment and secrets -/

/-- The literal value of the first variable of a name.  A later variable of that name does not
count, not even if the first has no literal value. -/
def envValue? (strategy : CustomStrategy) (name : String) : Option String :=
  ((strategy.env.getD []).find? (·.name == name)).bind (·.value)

/-- Set the first variable of a name to a literal value, or add one at the end. -/
def setVariable (name value : String) : List EnvVar → List EnvVar
  | [] => [EnvVar.literal name value]
  | first :: rest =>
      if first.name = name then { first with value := some value, valueFrom := none } :: rest
      else first :: setVariable name value rest

/-- Set a variable of the environment to a literal value. -/
def setEnv (strategy : CustomStrategy) (name value : String) : CustomStrategy :=
  { strategy with env := some (setVariable name value (strategy.env.getD [])) }

/-- Mount one more secret. -/
def addSecret (strategy : CustomStrategy) (mountPath name : String) : CustomStrategy :=
  { strategy with
    secrets := some ((strategy.secrets.getD []) ++ [⟨mountPath, .ofName name, .empty⟩]) }

end CustomStrategy

/-- How a build is run. -/
structure Strategy where
  kind : String
  custom : Option CustomStrategy
  extra : Dict String Json
deriving DecidableEq

namespace Strategy

/-- The names that are modelled. -/
def fieldNames : List String := ["type", "customStrategy"]

/-- The strategy of a build inside a builder image. -/
def ofCustom (custom : CustomStrategy) : Strategy := ⟨"Custom", some custom, .empty⟩

/-- A strategy that only names its kind. -/
def ofKind (kind : String) : Strategy := ⟨kind, none, .empty⟩

/-- Read a strategy. -/
def ofJson : Json → Except Json.Fault Strategy :=
  Json.askObject fun members =>
    Strategy.mk
      <$> members.required "type" Json.asString
      <*> members.optionalField "customStrategy" CustomStrategy.ofJson
      <*> members.unknownDict fieldNames

/-- A strategy as a value. -/
def toJson (strategy : Strategy) : Json :=
  .object <|
    [("type", .string strategy.kind)] ++
    Members.optional "customStrategy" (strategy.custom.map CustomStrategy.toJson) ++
    strategy.extra.entries

end Strategy
end ContainerBuild
