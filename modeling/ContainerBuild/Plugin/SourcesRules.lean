import ContainerBuild.Params.Sources
import ContainerBuild.Plugin.Rule

namespace ContainerBuild
namespace SourcesParams

/-!
# What a source container build fills in
-/

open Rule (prebuild postbuild nonempty nonzero textArg numberArg)

/-- What a source container build fills in, in order. -/
def rules (params : SourcesParams) : List Rule :=
  let shared := params.shared
  [ { phase := prebuild, plugin := "fetch_sources", args :=
        textArg "koji_build_nvr" (nonempty params.kojiBuildNvr) ++
        numberArg "koji_build_id" (nonzero params.kojiBuildId) ++
        textArg "signing_intent" (nonempty shared.signingIntent) },
    Rule.target shared,
    Rule.tagTarget shared,
    { phase := postbuild, plugin := "tag_and_push", args :=
        textArg "koji_target" (nonempty shared.kojiTarget) } ]

/-- The file that has the template of a source container build. -/
def templateFile (params : SourcesParams) : String :=
  "orchestrator_sources_inner:" ++ toString params.shared.arrangement ++ ".json"

end SourcesParams
end ContainerBuild
