import ContainerBuild.Params.Image
import ContainerBuild.Plugin.Rule

namespace ContainerBuild
namespace ImageParams

/-!
# What an image build fills in
-/

open Rule (prebuild buildStep postbuild exit nonempty nonzero textArg textsArg numberArg)

/-! ## Worker builds -/

/-- The parameters that an orchestrator passes on to its workers, in order. -/
def workerNames : List String :=
  ["component", "git_branch", "git_ref", "git_uri", "koji_task_id", "filesystem_koji_task_id",
    "scratch", "koji_target", "user", "yum_repourls", "arrangement_version", "koji_parent_build",
    "isolated", "reactor_config_map", "reactor_config_override", "git_commit_depth"]

/-- The parameters that are passed on under their own names: those that say something. -/
def passedOn (params : ImageParams) : Members Json :=
  workerNames.filterMap fun name =>
    ((params.toMembers.lookup name).filter Json.isTruthy).map fun value => (name, value)

/-- The parameters of worker builds.  Workers know the target by another name, and its place is
taken by the last of the others. -/
def workerParams (params : ImageParams) : Members Json :=
  let passed := params.passedOn
  passed.takeOut "koji_target" ++
    [("target", (passed.lookup "koji_target").getD .null)] ++
    if params.flatpak then [("flatpak", .bool true)] else []

/-- The image that worker builds run in, unless it comes from an image stream. -/
def workerConfig (params : ImageParams) : Members Json :=
  if params.shared.buildrootIsImagestream then []
  else textArg "build_from" (params.shared.buildImage.map ("image:" ++ ·))

/-! ## Tags -/

/-- Whether the image of a build gets tags that are meant to last: that of an orchestrator, unless
it is for scratch. -/
def hasPrimaryTag (params : ImageParams) : Bool :=
  params.isOrchestrator && params.shared.scratch != some true

/-- The tag that only this build has: the part of its image tag after the last colon. -/
def uniqueTag (params : ImageParams) : String :=
  String.ofList
    ((params.shared.imageTag.getD "").toList.reverse.takeWhile (· != ':')).reverse

/-- The tags that name version and release. -/
def primaryTags (params : ImageParams) : List String :=
  if params.hasPrimaryTag then ["\x7bversion\x7d-\x7brelease\x7d"] else []

/-- The tags that move on with every build. -/
def floatingTags (params : ImageParams) : List String :=
  if params.hasPrimaryTag && params.isolated != some true then
    (if params.tagsFromYaml = some true then [] else ["latest", "\x7bversion\x7d"]) ++
      params.additionalTags.getD []
  else
    []

/-- All tags by their kind. -/
def tagSuffixes (params : ImageParams) : Json :=
  .object [("unique", .ofStrings [params.uniqueTag]), ("primary", .ofStrings params.primaryTags),
    ("floating", .ofStrings params.floatingTags)]

/-! ## The rules -/

/-- What an image build fills in, in order. -/
def rules (params : ImageParams) : List Rule :=
  let shared := params.shared
  let target := shared.kojiTarget
  let repositories := params.yumRepourls
  let composes :=
    Members.optional "compose_ids"
      (params.composeIds.map fun ids => .array (ids.map fun id => .ofNat id.toNat))
  let platform := Json.ofOption .string shared.platform
  let remoteSources := params.remoteSources.map Json.array
  [ { phase := prebuild, plugin := "add_filesystem", args :=
        textsArg "repos" repositories ++
        numberArg "from_task_id" params.filesystemKojiTaskId ++
        textArg "architecture" shared.platform ++
        textArg "koji_target" target },
    { phase := prebuild, plugin := "add_labels_in_dockerfile", args :=
        Members.optional "labels"
          ((nonempty params.release).map fun release => .object [("release", .string release)]) },
    { phase := prebuild, plugin := "add_yum_repo_by_url", args :=
        textsArg "repourls" repositories },
    { phase := prebuild, plugin := "bump_release", args :=
        if params.flatpak then [("append", .bool true)] else [] },
    { phase := prebuild, plugin := "check_and_set_platforms", args :=
        textArg "koji_target" (nonempty target) },
    { phase := prebuild, plugin := "check_user_settings", args :=
        [("flatpak", .bool params.flatpak)] },
    { phase := prebuild, plugin := "flatpak_update_dockerfile", args := composes },
    { phase := exit, plugin := "import_image", args :=
        [("imagestream", Json.ofOption .string params.imagestreamName)] },
    { phase := prebuild, plugin := "inject_parent_image", args :=
        textArg "koji_parent_build" params.kojiParentBuild },
    Rule.target shared,
    Rule.tagTarget shared,
    { phase := postbuild, plugin := "koji_upload", args :=
        [("koji_upload_dir", Json.ofOption .string params.kojiUploadDir),
          ("platform", platform), ("report_multiple_digests", .bool true)] },
    { phase := prebuild, plugin := "pin_operator_digest", args :=
        Members.optional "replacement_pullspecs"
          ((params.bundlePullspecs.filter fun specs => !specs.entries.isEmpty).map Json.ofTexts) ++
        textArg "operator_csv_modifications_url" (nonempty params.csvModificationsUrl) },
    { phase := postbuild, plugin := "export_operator_manifests", args :=
        [("platform", platform)] ++
        textArg "operator_manifests_extract_platform"
          (nonempty params.manifestsExtractPlatform) },
    { phase := buildStep, plugin := "orchestrate_build", args :=
        textsArg "platforms" params.platforms ++
        [("build_kwargs", .object params.workerParams),
          ("config_kwargs", .object params.workerConfig)] },
    { phase := prebuild, plugin := "pull_base_image", mandatory := true, args :=
        Members.optional "parent_images_digests"
          (params.parentImagesDigests.filter Json.isTruthy) },
    { phase := prebuild, plugin := "resolve_composes", args :=
        composes ++
        textArg "signing_intent" shared.signingIntent ++
        textArg "koji_target" target ++
        textsArg "repourls" repositories },
    { phase := postbuild, plugin := "tag_from_config", args :=
        [("tag_suffixes", params.tagSuffixes)] },
    { phase := prebuild, plugin := "koji_delegate", args :=
        numberArg "triggered_after_koji_task" (nonzero params.triggeredAfterKojiTask) },
    { phase := prebuild, plugin := "download_remote_source", args :=
        [("remote_sources", remoteSources.getD .null)] },
    { phase := prebuild, plugin := "resolve_remote_source", args :=
        textsArg "dependency_replacements" params.dependencyReplacements },
    { phase := prebuild, plugin := "add_image_content_manifest", args :=
        Members.optional "remote_sources" remoteSources } ]

/-- The file that has the template of an image build. -/
def templateFile (params : ImageParams) : String :=
  (params.buildType.map BuildType.name).getD "unknown" ++ "_inner:" ++
    toString params.shared.arrangement ++ ".json"

end ImageParams
end ContainerBuild
