import ContainerBuild.Params.Error
import ContainerBuild.Params.Shared

namespace ContainerBuild

/-!
# Parameters of source container builds
-/

/-- The parameters of a build of a container with the sources of another build. -/
structure SourcesParams where
  shared : SharedParams
  kojiBuildNvr : Option String
  kojiBuildId : Option UInt64
deriving DecidableEq

namespace SourcesParams

/-- The name of the kind. -/
def kind : String := "source_containers_user_params"

/-- Ask for the parameters of a source container build beside the shared ones. -/
def ask (members : Members Json) : Json.Answer (SharedParams → SourcesParams) :=
  (fun kojiBuildNvr kojiBuildId shared => { shared, kojiBuildNvr, kojiBuildId })
    <$> members.optionalField "sources_for_koji_build_nvr" Json.asString
    <*> members.optionalField "sources_for_koji_build_id" Json.asUInt64

/-- Read the parameters of a source container build.  Faults of the shared parameters come after
those of the others. -/
def ofMembers (members : Members Json) : Except ParamsError SourcesParams := do
  let make ← (ask members).settle.mapError fun fault => .unreadable (.invalid fault)
  let shared ← (SharedParams.ask members).settle.mapError fun fault => .unreadable (.invalid fault)
  .ok (make shared)

/-- All parameters by name. -/
def toMembers (params : SourcesParams) : Members Json := params.shared.toMembers ++ [
  ("sources_for_koji_build_nvr", Json.ofOption .string params.kojiBuildNvr),
  ("sources_for_koji_build_id", Json.ofOption (Json.ofNat ·.toNat) params.kojiBuildId)]

end SourcesParams
end ContainerBuild
