import ContainerBuild.Naming.GitName
import ContainerBuild.Params.Basic
import ContainerBuild.Params.ImageTag
import ContainerBuild.Params.Settings

namespace ContainerBuild

/-!
# Parameters from a request

A request says what to build, and the settings of the cluster fill in what it leaves open.  The
checks run in a fixed order and the first that fails is reported.  The instant and the random
draws that a fresh image tag needs are given from outside.
-/

/-- What a request for any kind of build says. -/
structure SharedRequest where
  arrangementVersion : Option UInt32 := none
  buildFrom : Option String := none
  buildJsonDir : Option String := none
  component : Option String := none
  kojiTarget : Option String := none
  kojiTaskId : Option UInt64 := none
  platform : Option String := none
  reactorConfigOverride : Option Json := none
  scratch : Option Bool := none
  signingIntent : Option String := none
  user : Option String := none
deriving DecidableEq

/-- What a request for an image build says. -/
structure ImageRequest where
  shared : SharedRequest := {}
  additionalTags : List String := []
  baseImage : Option String := none
  buildType : Option BuildType := none
  composeIds : Option (List UInt64) := none
  customizeConf : Option String := none
  dependencyReplacements : Option (List String) := none
  filesystemKojiTaskId : Option UInt64 := none
  flatpak : Bool := false
  gitBranch : Option String := none
  gitCommitDepth : Option UInt32 := none
  gitRef : Option String := none
  gitUri : Option String := none
  includeKojiRepo : Bool := false
  isAuto : Option Bool := none
  isolated : Option Bool := none
  kojiParentBuild : Option String := none
  kojiUploadDir : Option String := none
  /-- The label that becomes the name of the image stream. -/
  nameLabel : Option String := none
  bundlePullspecs : Option (Dict String String) := none
  csvModificationsUrl : Option String := none
  manifestsExtractPlatform : Option String := none
  parentImagesDigests : Option Json := none
  platforms : Option (List String) := none
  release : Option String := none
  remoteSources : Option (List Json) := none
  skipBuild : Option Bool := none
  tagsFromYaml : Option Bool := none
  triggeredAfterKojiTask : Option UInt64 := none
  yumRepourls : Option (List String) := none
deriving DecidableEq

/-- What a request for a source container build says. -/
structure SourcesRequest where
  shared : SharedRequest := {}
  kojiBuildNvr : Option String := none
  kojiBuildId : Option UInt64 := none
deriving DecidableEq

/-- Require a value. -/
def require {α : Type} (value : Option α) (fault : RequestFault) : Except ParamsError α :=
  match value with
  | some value => .ok value
  | none => .error (.invalid fault)

/-- Refuse a request under a condition. -/
def refuseIf (condition : Bool) (fault : RequestFault) : Except ParamsError Unit :=
  if condition then .error (.invalid fault) else .ok ()

namespace SharedParams

/-- Hours that a worker build may take where the settings do not say. -/
def workerHours : UInt32 := 3

/-- Hours that an orchestrator build may take where the settings do not say. -/
def orchestratorHours : UInt32 := 4

/-- The kind and the name of an image reference, which the first colon separates. -/
def splitBuildFrom? (buildFrom : String) : Option (String × String) :=
  match buildFrom.toList.span (· != ':') with
  | (kind, _ :: name) => some (String.ofList kind, String.ofList name)
  | (_, []) => none

/-- Shared parameters of a request, with a fresh image tag. -/
def make (request : SharedRequest) (settings : Settings) (instant : Instant)
    (draws : List UInt32) : Except ParamsError SharedParams := do
  let buildFrom ← require (request.buildFrom <|> settings.buildFrom) .noBuildFrom
  let (kind, image) ← require (splitBuildFrom? buildFrom) .malformedBuildFrom
  refuseIf (kind != "image" && kind != "imagestream") .unknownBuildFromKind
  let params : SharedParams := {
    arrangementVersion := request.arrangementVersion <|> some defaultArrangement
    buildFrom := some buildFrom
    buildImage := some image
    buildrootIsImagestream := kind == "imagestream"
    buildJsonDir := request.buildJsonDir
    component := request.component
    imageTag := none
    kojiTarget := request.kojiTarget
    kojiTaskId := request.kojiTaskId
    platform := request.platform
    orchestratorDeadline := some (settings.orchestratorDeadline.getD orchestratorHours)
    reactorConfigMap := settings.reactorConfigMap
    reactorConfigOverride := request.reactorConfigOverride
    scratch := request.scratch <|> settings.scratch
    signingIntent := request.signingIntent
    user := request.user
    workerDeadline := some (settings.workerDeadline.getD workerHours) }
  .ok { params with imageTag := some (ImageTag.make params instant draws) }

end SharedParams

namespace ImageParams

/-- How many of the variations of a build are asked for: scratch, auto, isolated. -/
def variations (params : ImageParams) : Nat :=
  [params.shared.scratch, params.isAuto, params.isolated].count (some true)

/-- Parameters of a request for an image build. -/
def make (request : ImageRequest) (settings : Settings) (instant : Instant)
    (draws : List UInt32) : Except ParamsError ImageParams := do
  let gitUri ← require request.gitUri .noGitUri
  refuseIf (request.baseImage.isNone && !request.flatpak) .noBaseImage
  let nameLabel ← require request.nameLabel .noNameLabel
  refuseIf (request.shared.signingIntent.isSome && !(request.composeIds.getD []).isEmpty)
    .intentAndComposes
  let shared ← SharedParams.make request.shared settings instant draws
  let platformSelector :=
    (request.shared.platform.bind (settings.platformSelectors.get? ·)).getD .empty
  let params : ImageParams := {
    shared := shared
    additionalTags := some request.additionalTags
    baseImage := request.baseImage
    buildType := request.buildType
    composeIds := some (request.composeIds.getD [])
    customizeConf := request.customizeConf <|> some defaultCustomizeConf
    dependencyReplacements := some (request.dependencyReplacements.getD [])
    filesystemKojiTaskId := request.filesystemKojiTaskId
    flatpak := request.flatpak
    gitBranch := request.gitBranch
    gitCommitDepth := request.gitCommitDepth
    gitRef := request.gitRef <|> some defaultGitRef
    gitUri := some gitUri
    imagestreamName := some nameLabel
    includeKojiRepo := request.includeKojiRepo
    isAuto := request.isAuto
    isolated := request.isolated
    kojiParentBuild := request.kojiParentBuild
    kojiUploadDir := request.kojiUploadDir
    name := none
    bundlePullspecs := request.bundlePullspecs
    csvModificationsUrl := request.csvModificationsUrl
    manifestsExtractPlatform := request.manifestsExtractPlatform
    parentImagesDigests := request.parentImagesDigests
    platforms := request.platforms
    release := request.release
    remoteSources := request.remoteSources
    skipBuild := request.skipBuild
    tagsFromYaml := request.tagsFromYaml
    triggerImagestreamtag := request.baseImage
    triggeredAfterKojiTask := request.triggeredAfterKojiTask
    yumRepourls := some (request.yumRepourls.getD [])
    autoSelector := some settings.autoSelector
    explicitSelector := some settings.explicitSelector
    isolatedSelector := some settings.isolatedSelector
    platformSelector := some platformSelector
    scratchSelector := some settings.scratchSelector }
  let params ← params.setName (GitName.make gitUri request.gitBranch)
  refuseIf (decide (1 < params.variations)) .severalVariations
  .ok params

end ImageParams

namespace SourcesParams

/-- Parameters of a request for a source container build. -/
def make (request : SourcesRequest) (settings : Settings) (instant : Instant)
    (draws : List UInt32) : Except ParamsError SourcesParams := do
  refuseIf (request.kojiBuildNvr.isNone && request.kojiBuildId.isNone) .noKojiBuild
  let shared ← SharedParams.make request.shared settings instant draws
  .ok { shared, kojiBuildNvr := request.kojiBuildNvr, kojiBuildId := request.kojiBuildId }

end SourcesParams
end ContainerBuild
