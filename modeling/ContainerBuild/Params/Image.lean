import ContainerBuild.Params.Error
import ContainerBuild.Params.Shared

namespace ContainerBuild

/-!
# Parameters of image builds
-/

/-- The part of a build that a build of images plays. -/
inductive BuildType where
  | orchestrator
  | worker
deriving DecidableEq

namespace BuildType

/-- The name of a type of build. -/
def name : BuildType → String
  | .orchestrator => "orchestrator"
  | .worker => "worker"

/-- The type of build of a name. -/
def ofName (name : String) : Except Json.Fault BuildType :=
  if name = "orchestrator" then .ok .orchestrator
  else if name = "worker" then .ok .worker
  else .error (.unknownVariant name)

/-- Read a type of build: its name, or an object with its name and null. -/
def ofJson : Json → Except Json.Fault BuildType
  | .string name => ofName name
  | .object [(name, value)] => do
      let type ← ofName name
      if value.isNull then .ok type else .error .wrongType
  | .object _ => .error .outOfRange
  | _ => .error .wrongType

/-- A type of build as its name. -/
def toJson (type : BuildType) : Json := .string type.name

end BuildType

/-- The parameters of an image build. -/
structure ImageParams where
  shared : SharedParams
  additionalTags : Option (List String)
  baseImage : Option String
  buildType : Option BuildType
  composeIds : Option (List UInt64)
  customizeConf : Option String
  dependencyReplacements : Option (List String)
  filesystemKojiTaskId : Option UInt64
  flatpak : Bool
  gitBranch : Option String
  gitCommitDepth : Option UInt32
  gitRef : Option String
  gitUri : Option String
  imagestreamName : Option String
  includeKojiRepo : Bool
  isAuto : Option Bool
  isolated : Option Bool
  kojiParentBuild : Option String
  kojiUploadDir : Option String
  /-- The build ID. -/
  name : Option String
  bundlePullspecs : Option (Dict String String)
  csvModificationsUrl : Option String
  manifestsExtractPlatform : Option String
  parentImagesDigests : Option Json
  platforms : Option (List String)
  release : Option String
  remoteSources : Option (List Json)
  skipBuild : Option Bool
  tagsFromYaml : Option Bool
  triggerImagestreamtag : Option String
  triggeredAfterKojiTask : Option UInt64
  yumRepourls : Option (List String)
  autoSelector : Option NodeSelector
  explicitSelector : Option NodeSelector
  isolatedSelector : Option NodeSelector
  platformSelector : Option NodeSelector
  scratchSelector : Option NodeSelector
deriving DecidableEq

namespace ImageParams

/-- The name of the kind. -/
def kind : String := "build_user_params"

/-- The customization that is meant when none is named. -/
def defaultCustomizeConf : String := "prod_customize.json"

/-- The commit that is meant when none is named. -/
def defaultGitRef : String := "master"

/-- Parameters that nothing is said about. -/
def default : ImageParams where
  shared := .default
  additionalTags := none
  baseImage := none
  buildType := none
  composeIds := none
  customizeConf := some defaultCustomizeConf
  dependencyReplacements := none
  filesystemKojiTaskId := none
  flatpak := false
  gitBranch := none
  gitCommitDepth := none
  gitRef := some defaultGitRef
  gitUri := none
  imagestreamName := none
  includeKojiRepo := false
  isAuto := none
  isolated := none
  kojiParentBuild := none
  kojiUploadDir := none
  name := none
  bundlePullspecs := none
  csvModificationsUrl := none
  manifestsExtractPlatform := none
  parentImagesDigests := none
  platforms := none
  release := none
  remoteSources := none
  skipBuild := none
  tagsFromYaml := none
  triggerImagestreamtag := none
  triggeredAfterKojiTask := none
  yumRepourls := none
  autoSelector := none
  explicitSelector := none
  isolatedSelector := none
  platformSelector := none
  scratchSelector := none

/-- Ask for the parameters of an image build beside the shared ones. -/
def ask (members : Members Json) : Json.Answer (SharedParams → ImageParams) :=
  (fun additionalTags baseImage buildType composeIds customizeConf dependencyReplacements
      filesystemKojiTaskId flatpak gitBranch gitCommitDepth gitRef gitUri imagestreamName
      includeKojiRepo isAuto isolated kojiParentBuild kojiUploadDir name bundlePullspecs
      csvModificationsUrl manifestsExtractPlatform parentImagesDigests platforms release
      remoteSources skipBuild tagsFromYaml triggerImagestreamtag triggeredAfterKojiTask
      yumRepourls autoSelector explicitSelector isolatedSelector platformSelector
      scratchSelector shared =>
        { shared, additionalTags, baseImage, buildType, composeIds, customizeConf,
          dependencyReplacements, filesystemKojiTaskId, flatpak, gitBranch, gitCommitDepth,
          gitRef, gitUri, imagestreamName, includeKojiRepo, isAuto, isolated, kojiParentBuild,
          kojiUploadDir, name, bundlePullspecs, csvModificationsUrl, manifestsExtractPlatform,
          parentImagesDigests, platforms, release, remoteSources, skipBuild, tagsFromYaml,
          triggerImagestreamtag, triggeredAfterKojiTask, yumRepourls, autoSelector,
          explicitSelector, isolatedSelector, platformSelector, scratchSelector })
    <$> members.optionalField "additional_tags" (Json.asList Json.asString)
    <*> members.optionalField "base_image" Json.asString
    <*> members.optionalField "build_type" BuildType.ofJson
    <*> members.optionalField "compose_ids" (Json.asList Json.asUInt64)
    <*> members.optionalOr "customize_conf" Json.asString (some defaultCustomizeConf)
    <*> members.optionalField "dependency_replacements" (Json.asList Json.asString)
    <*> members.optionalField "filesystem_koji_task_id" Json.asUInt64
    <*> members.defaulted "flatpak" Json.asBool false
    <*> members.optionalField "git_branch" Json.asString
    <*> members.optionalField "git_commit_depth" Json.asUInt32
    <*> members.optionalOr "git_ref" Json.asString (some defaultGitRef)
    <*> members.optionalField "git_uri" Json.asString
    <*> members.optionalField "imagestream_name" Json.asString
    <*> members.defaulted "include_koji_repo" Json.asBool false
    <*> members.optionalField "is_auto" Json.asBool
    <*> members.optionalField "isolated" Json.asBool
    <*> members.optionalField "koji_parent_build" Json.asString
    <*> members.optionalField "koji_upload_dir" Json.asString
    <*> members.optionalField "name" Json.asString
    <*> members.optionalField "operator_bundle_replacement_pullspecs" (Json.asDict Json.asString)
    <*> members.optionalField "operator_csv_modifications_url" Json.asString
    <*> members.optionalField "operator_manifests_extract_platform" Json.asString
    <*> members.optionalField "parent_images_digests" Json.asAny
    <*> members.optionalField "platforms" (Json.asList Json.asString)
    <*> members.optionalField "release" Json.asString
    <*> members.optionalField "remote_sources" Json.asArray
    <*> members.optionalField "skip_build" Json.asBool
    <*> members.optionalField "tags_from_yaml" Json.asBool
    <*> members.optionalField "trigger_imagestreamtag" Json.asString
    <*> members.optionalField "triggered_after_koji_task" Json.asUInt64
    <*> members.optionalField "yum_repourls" (Json.asList Json.asString)
    <*> members.optionalField "auto_build_node_selector" (Json.asDict Json.asString)
    <*> members.optionalField "explicit_build_node_selector" (Json.asDict Json.asString)
    <*> members.optionalField "isolated_build_node_selector" (Json.asDict Json.asString)
    <*> members.optionalField "platform_node_selector" (Json.asDict Json.asString)
    <*> members.optionalField "scratch_build_node_selector" (Json.asDict Json.asString)

/-- Set the build ID, cut to its length. -/
def setName (params : ImageParams) (name : String) : Except ParamsError ImageParams :=
  match BuildId.check name with
  | .ok id => .ok { params with name := some id }
  | .error judged => .error (.invalidBuildId judged)

/-- Read the parameters of an image build.  Faults of the shared parameters come after those of
the others. -/
def ofMembers (members : Members Json) : Except ParamsError ImageParams := do
  let make ← (ask members).settle.mapError fun fault => .unreadable (.invalid fault)
  let shared ← (SharedParams.ask members).settle.mapError fun fault => .unreadable (.invalid fault)
  let params := make shared
  match params.name with
  | some name => ({ params with name := none } : ImageParams).setName name
  | none => .ok params

/-- All parameters by name, the node selectors apart, which are never passed on. -/
def toMembers (params : ImageParams) : Members Json := params.shared.toMembers ++ [
  ("additional_tags", Json.ofOption Json.ofStrings params.additionalTags),
  ("base_image", Json.ofOption .string params.baseImage),
  ("build_type", Json.ofOption BuildType.toJson params.buildType),
  ("compose_ids",
    Json.ofOption (fun ids => .array (ids.map (Json.ofNat ·.toNat))) params.composeIds),
  ("customize_conf", Json.ofOption .string params.customizeConf),
  ("dependency_replacements", Json.ofOption Json.ofStrings params.dependencyReplacements),
  ("filesystem_koji_task_id", Json.ofOption (Json.ofNat ·.toNat) params.filesystemKojiTaskId),
  ("flatpak", .bool params.flatpak),
  ("git_branch", Json.ofOption .string params.gitBranch),
  ("git_commit_depth", Json.ofOption (Json.ofNat ·.toNat) params.gitCommitDepth),
  ("git_ref", Json.ofOption .string params.gitRef),
  ("git_uri", Json.ofOption .string params.gitUri),
  ("imagestream_name", Json.ofOption .string params.imagestreamName),
  ("include_koji_repo", .bool params.includeKojiRepo),
  ("is_auto", Json.ofOption .bool params.isAuto),
  ("isolated", Json.ofOption .bool params.isolated),
  ("koji_parent_build", Json.ofOption .string params.kojiParentBuild),
  ("koji_upload_dir", Json.ofOption .string params.kojiUploadDir),
  ("name", Json.ofOption .string params.name),
  ("operator_bundle_replacement_pullspecs", Json.ofOption Json.ofTexts params.bundlePullspecs),
  ("operator_csv_modifications_url", Json.ofOption .string params.csvModificationsUrl),
  ("operator_manifests_extract_platform", Json.ofOption .string params.manifestsExtractPlatform),
  ("parent_images_digests", Json.ofOption id params.parentImagesDigests),
  ("platforms", Json.ofOption Json.ofStrings params.platforms),
  ("release", Json.ofOption .string params.release),
  ("remote_sources", Json.ofOption .array params.remoteSources),
  ("skip_build", Json.ofOption .bool params.skipBuild),
  ("tags_from_yaml", Json.ofOption .bool params.tagsFromYaml),
  ("trigger_imagestreamtag", Json.ofOption .string params.triggerImagestreamtag),
  ("triggered_after_koji_task", Json.ofOption (Json.ofNat ·.toNat) params.triggeredAfterKojiTask),
  ("yum_repourls", Json.ofOption Json.ofStrings params.yumRepourls)]

/-- Set the image that the build starts from; a change of it triggers the next build. -/
def setBaseImage (params : ImageParams) (image : String) : ImageParams :=
  { params with baseImage := some image, triggerImagestreamtag := some image }

/-- Whether the build directs other builds. -/
def isOrchestrator (params : ImageParams) : Bool := params.buildType = some .orchestrator

/-- The required parameters that have no value. -/
def missing (params : ImageParams) : List String :=
  params.shared.missing ++
    (if params.buildType.isNone then ["build_type"] else []) ++
    (if params.gitRef.isNone then ["git_ref"] else []) ++
    (if params.gitUri.isNone then ["git_uri"] else [])

end ImageParams
end ContainerBuild
