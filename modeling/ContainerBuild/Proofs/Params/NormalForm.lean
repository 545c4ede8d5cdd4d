import ContainerBuild.Params.Basic

namespace ContainerBuild

/-!
# What is left of parameters in a payload

A payload leaves out what says nothing, so that loading puts the default in its place, and it
never names the node selectors.  `Params.normal` are the parameters with just these changes:
every member is as it was if it says something, and otherwise the one of parameters about which
nothing is said (`Params.toMembers_normal`).  Sorting a payload goes on within generic values;
`Params.ordered` are parameters whose generic values are sorted.
-/

open Json (ofOption ofNat ofStrings ofTexts)

/-- A value that says something, or else a default. -/
def said {α : Type} (write : α → Json) (value default : Option α) : Option α :=
  if (ofOption write value).isTruthy then value else default

theorem ofOption_said {α : Type} (write : α → Json) (value default : Option α) :
    ofOption write (said write value default) =
      if (ofOption write value).isTruthy then ofOption write value else ofOption write default :=
  apply_ite (ofOption write) _ _ _

theorem mem_of_mem_said {α : Type} {write : α → Json} {value : Option α} {x : α}
    (here : x ∈ said write value none) : x ∈ value := by
  rw [said] at here
  split at here
  · exact here
  · cases here

namespace SharedParams

/-- Shared parameters that say what they said, and the default otherwise. -/
def normal (params : SharedParams) : SharedParams where
  arrangementVersion :=
    said (ofNat ·.toNat) params.arrangementVersion (some defaultArrangement)
  buildFrom := said .string params.buildFrom none
  buildImage := said .string params.buildImage none
  buildrootIsImagestream := params.buildrootIsImagestream
  buildJsonDir := said .string params.buildJsonDir none
  component := said .string params.component none
  imageTag := said .string params.imageTag none
  kojiTarget := said .string params.kojiTarget none
  kojiTaskId := said (ofNat ·.toNat) params.kojiTaskId none
  platform := said .string params.platform none
  orchestratorDeadline := said (ofNat ·.toNat) params.orchestratorDeadline none
  reactorConfigMap := said .string params.reactorConfigMap none
  reactorConfigOverride := said id params.reactorConfigOverride none
  scratch := said .bool params.scratch none
  signingIntent := said .string params.signingIntent none
  user := said .string params.user none
  workerDeadline := said (ofNat ·.toNat) params.workerDeadline none

/-- Shared parameters whose generic value is sorted. -/
def ordered (params : SharedParams) : SharedParams :=
  { params with reactorConfigOverride := params.reactorConfigOverride.map Json.sortMembers }

end SharedParams

namespace ImageParams

/-- Parameters that say what they said, and the default otherwise, and select no nodes. -/
def normal (params : ImageParams) : ImageParams where
  shared := params.shared.normal
  additionalTags := said ofStrings params.additionalTags none
  baseImage := said .string params.baseImage none
  buildType := said BuildType.toJson params.buildType none
  composeIds := said (fun ids => .array (ids.map (ofNat ·.toNat))) params.composeIds none
  customizeConf := said .string params.customizeConf (some defaultCustomizeConf)
  dependencyReplacements := said ofStrings params.dependencyReplacements none
  filesystemKojiTaskId := said (ofNat ·.toNat) params.filesystemKojiTaskId none
  flatpak := params.flatpak
  gitBranch := said .string params.gitBranch none
  gitCommitDepth := said (ofNat ·.toNat) params.gitCommitDepth none
  gitRef := said .string params.gitRef (some defaultGitRef)
  gitUri := said .string params.gitUri none
  imagestreamName := said .string params.imagestreamName none
  includeKojiRepo := params.includeKojiRepo
  isAuto := said .bool params.isAuto none
  isolated := said .bool params.isolated none
  kojiParentBuild := said .string params.kojiParentBuild none
  kojiUploadDir := said .string params.kojiUploadDir none
  name := said .string params.name none
  bundlePullspecs := said ofTexts params.bundlePullspecs none
  csvModificationsUrl := said .string params.csvModificationsUrl none
  manifestsExtractPlatform := said .string params.manifestsExtractPlatform none
  parentImagesDigests := said id params.parentImagesDigests none
  platforms := said ofStrings params.platforms none
  release := said .string params.release none
  remoteSources := said .array params.remoteSources none
  skipBuild := said .bool params.skipBuild none
  tagsFromYaml := said .bool params.tagsFromYaml none
  triggerImagestreamtag := said .string params.triggerImagestreamtag none
  triggeredAfterKojiTask := said (ofNat ·.toNat) params.triggeredAfterKojiTask none
  yumRepourls := said ofStrings params.yumRepourls none
  autoSelector := none
  explicitSelector := none
  isolatedSelector := none
  platformSelector := none
  scratchSelector := none

/-- Parameters whose generic values are sorted. -/
def ordered (params : ImageParams) : ImageParams :=
  { params with
    shared := params.shared.ordered
    parentImagesDigests := params.parentImagesDigests.map Json.sortMembers
    remoteSources := params.remoteSources.map Json.sortItems }

end ImageParams

namespace SourcesParams

/-- Parameters that nothing is said about. -/
def default : SourcesParams := ⟨.default, none, none⟩

/-- Parameters that say what they said, and the default otherwise. -/
def normal (params : SourcesParams) : SourcesParams where
  shared := params.shared.normal
  kojiBuildNvr := said .string params.kojiBuildNvr none
  kojiBuildId := said (ofNat ·.toNat) params.kojiBuildId none

/-- Parameters whose generic value is sorted. -/
def ordered (params : SourcesParams) : SourcesParams :=
  { params with shared := params.shared.ordered }

end SourcesParams

namespace Params

/-- Parameters of the same kind that nothing is said about. -/
def defaults : Params → Params
  | .image _ => .image .default
  | .sources _ => .sources .default

/-- Parameters that say what they said, and the default otherwise, and select no nodes. -/
def normal : Params → Params
  | .image params => .image params.normal
  | .sources params => .sources params.normal

/-- Parameters whose generic values are sorted. -/
def ordered : Params → Params
  | .image params => .image params.ordered
  | .sources params => .sources params.ordered

end Params

/-- One member of the normal form: the member if it says something, or else the default. -/
def saidMember (member default : String × Json) : String × Json :=
  if member.2.isTruthy then member else default

theorem saidMember_eq {name : String} {value default : Json} :
    saidMember (name, value) (name, default) =
      (name, if value.isTruthy then value else default) :=
  (apply_ite (Prod.mk name) _ _ _).symm

/-- A member that says something is kept. -/
theorem mem_zipWith_saidMember {members defaults : Members Json} {member : String × Json}
    (length : members.length = defaults.length) (here : member ∈ members)
    (truthy : member.2.isTruthy = true) : member ∈ List.zipWith saidMember members defaults := by
  induction members generalizing defaults with
  | nil => cases here
  | cons first rest inductionHypothesis =>
      cases defaults with
      | nil => cases length
      | cons default others =>
          rw [List.zipWith_cons_cons]
          rcases List.mem_cons.1 here with rfl | later
          · rw [saidMember, if_pos truthy]
            exact List.mem_cons_self
          · exact List.mem_cons_of_mem _ (inductionHypothesis (Nat.succ.inj length) later)

theorem bool_said (flag : Bool) :
    (if (Json.bool flag).isTruthy then Json.bool flag else .bool false) = .bool flag := by
  cases flag <;> rfl

theorem SharedParams.toMembers_normal (params : SharedParams) : params.normal.toMembers =
    List.zipWith saidMember params.toMembers SharedParams.default.toMembers := by
  simp only [toMembers, normal, SharedParams.default, List.zipWith_cons_cons,
    List.zipWith_nil_left, saidMember_eq, ofOption_said, bool_said]

theorem SourcesParams.toMembers_normal (params : SourcesParams) : params.normal.toMembers =
    List.zipWith saidMember params.toMembers SourcesParams.default.toMembers := by
  have length : params.shared.toMembers.length = SharedParams.default.toMembers.length := rfl
  rw [toMembers, toMembers, toMembers, SourcesParams.default, List.zipWith_append length, normal,
    SharedParams.toMembers_normal]
  simp only [List.zipWith_cons_cons, List.zipWith_nil_left, saidMember_eq,
    ofOption_said]

theorem ImageParams.toMembers_normal (params : ImageParams) : params.normal.toMembers =
    List.zipWith saidMember params.toMembers ImageParams.default.toMembers := by
  have length : params.shared.toMembers.length = SharedParams.default.toMembers.length := rfl
  rw [toMembers, toMembers, toMembers, ImageParams.default, List.zipWith_append length, normal,
    SharedParams.toMembers_normal]
  simp only [List.zipWith_cons_cons, List.zipWith_nil_left, saidMember_eq,
    ofOption_said, bool_said]

/-- Every member of the normal form is as it was if it says something, and otherwise the one of
parameters that nothing is said about. -/
theorem Params.toMembers_normal (params : Params) : params.normal.toMembers =
    List.zipWith saidMember params.toMembers params.defaults.toMembers := by
  cases params with
  | image params => exact params.toMembers_normal
  | sources params => exact params.toMembers_normal

end ContainerBuild
