import ContainerBuild.Json.Answer
import ContainerBuild.Json.OfData

namespace ContainerBuild

/-!
# Parameters of every kind of build

Each field may be left out of a payload, in which case it takes its default.  Most fields take
null for having no value; a plain truth value does not.
-/

/-- Labels that select the nodes a build may run on. -/
abbrev NodeSelector := Dict String String

/-- The parameters that every kind of build has. -/
structure SharedParams where
  arrangementVersion : Option UInt32
  /-- The image the build runs in, with the kind of its source before a colon. -/
  buildFrom : Option String
  buildImage : Option String
  buildrootIsImagestream : Bool
  /-- Where the plugin templates are. -/
  buildJsonDir : Option String
  component : Option String
  imageTag : Option String
  kojiTarget : Option String
  kojiTaskId : Option UInt64
  platform : Option String
  orchestratorDeadline : Option UInt32
  reactorConfigMap : Option String
  reactorConfigOverride : Option Json
  scratch : Option Bool
  signingIntent : Option String
  user : Option String
  workerDeadline : Option UInt32
deriving DecidableEq

namespace SharedParams

/-- The arrangement of plugins that is meant when none is named. -/
def defaultArrangement : UInt32 := 6

/-- Parameters that nothing is said about. -/
def default : SharedParams where
  arrangementVersion := some defaultArrangement
  buildFrom := none
  buildImage := none
  buildrootIsImagestream := false
  buildJsonDir := none
  component := none
  imageTag := none
  kojiTarget := none
  kojiTaskId := none
  platform := none
  orchestratorDeadline := none
  reactorConfigMap := none
  reactorConfigOverride := none
  scratch := none
  signingIntent := none
  user := none
  workerDeadline := none

/-- Ask for the shared parameters among the members of a payload. -/
def ask (members : Members Json) : Json.Answer SharedParams :=
  SharedParams.mk
    <$> members.optionalOr "arrangement_version" Json.asUInt32 (some defaultArrangement)
    <*> members.optionalField "build_from" Json.asString
    <*> members.optionalField "build_image" Json.asString
    <*> members.defaulted "buildroot_is_imagestream" Json.asBool false
    <*> members.optionalField "build_json_dir" Json.asString
    <*> members.optionalField "component" Json.asString
    <*> members.optionalField "image_tag" Json.asString
    <*> members.optionalField "koji_target" Json.asString
    <*> members.optionalField "koji_task_id" Json.asUInt64
    <*> members.optionalField "platform" Json.asString
    <*> members.optionalField "orchestrator_deadline" Json.asUInt32
    <*> members.optionalField "reactor_config_map" Json.asString
    <*> members.optionalField "reactor_config_override" Json.asAny
    <*> members.optionalField "scratch" Json.asBool
    <*> members.optionalField "signing_intent" Json.asString
    <*> members.optionalField "user" Json.asString
    <*> members.optionalField "worker_deadline" Json.asUInt32

/-- All shared parameters by name. -/
def toMembers (params : SharedParams) : Members Json := [
  ("arrangement_version", Json.ofOption (Json.ofNat ·.toNat) params.arrangementVersion),
  ("build_from", Json.ofOption .string params.buildFrom),
  ("build_image", Json.ofOption .string params.buildImage),
  ("buildroot_is_imagestream", .bool params.buildrootIsImagestream),
  ("build_json_dir", Json.ofOption .string params.buildJsonDir),
  ("component", Json.ofOption .string params.component),
  ("image_tag", Json.ofOption .string params.imageTag),
  ("koji_target", Json.ofOption .string params.kojiTarget),
  ("koji_task_id", Json.ofOption (Json.ofNat ·.toNat) params.kojiTaskId),
  ("platform", Json.ofOption .string params.platform),
  ("orchestrator_deadline", Json.ofOption (Json.ofNat ·.toNat) params.orchestratorDeadline),
  ("reactor_config_map", Json.ofOption .string params.reactorConfigMap),
  ("reactor_config_override", Json.ofOption id params.reactorConfigOverride),
  ("scratch", Json.ofOption .bool params.scratch),
  ("signing_intent", Json.ofOption .string params.signingIntent),
  ("user", Json.ofOption .string params.user),
  ("worker_deadline", Json.ofOption (Json.ofNat ·.toNat) params.workerDeadline)]

/-- The required shared parameters that have no value. -/
def missing (params : SharedParams) : List String :=
  (if params.buildJsonDir.isNone then ["build_json_dir"] else []) ++
    (if params.user.isNone then ["user"] else [])

/-- The arrangement of plugins that the parameters ask for. -/
def arrangement (params : SharedParams) : UInt32 :=
  params.arrangementVersion.getD defaultArrangement

end SharedParams
end ContainerBuild
