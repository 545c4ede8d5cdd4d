import ContainerBuild.Proofs.Json.Fields
import ContainerBuild.Proofs.Params.NormalForm

namespace ContainerBuild

/-!
# Loading what was emitted, field by field

A payload has the members of parameters that say something, with their values sorted (`Sent`).
Asking it for a field finds what the normal form has there.
-/

open Json (ofOption ofNat ofStrings ofTexts Fault Answer)

/-- A member is among others, with its value sorted, if it says something, and its name is free
if it does not. -/
def Sent (members : Members Json) (member : String × Json) : Prop :=
  members.lookup member.1 = if member.2.isTruthy then some member.2.sortMembers else none

/-! ## Sorted values -/

namespace Json

theorem isNull_sortMembers (value : Json) : value.sortMembers.isNull = value.isNull := by
  cases value <;> rfl

theorem isNull_of_isTruthy {value : Json} (truthy : value.isTruthy = true) :
    value.isNull = false := by
  cases value with
  | null => cases truthy
  | _ => rfl

theorem sortItems_eq_map (items : List Json) : sortItems items = items.map sortMembers := by
  induction items with
  | nil => rfl
  | cons item rest inductionHypothesis => rw [sortItems, inductionHypothesis, List.map_cons]

/-- An array of values that sorting leaves alone. -/
theorem sortItems_map {α : Type} {write : α → Json} (plain : ∀ x, (write x).sortMembers = write x)
    (xs : List α) : sortItems (xs.map write) = xs.map write := by
  rw [sortItems_eq_map, List.map_map]
  exact List.map_congr_left fun x _ => plain x

end Json

/-! ## Fields -/

section Fields

variable {members : Members Json} {name : String} {α : Type} {read : Json → Except Fault α}
  {write : α → Json}

/-- A field of which generic values come back sorted. -/
theorem optionalOr_of_sent_sorted {sorted : α → α}
    (law : ∀ x, read (write x).sortMembers = .ok (sorted x)) {value : Option α}
    (sent : Sent members (name, ofOption write value)) (default : Option α) :
    members.optionalOr name read default =
      .found (if (ofOption write value).isTruthy then value.map sorted else default) := by
  rw [Members.optionalOr, Json.defaulted_found_iff]
  rw [Sent] at sent
  split at sent
  next truthy =>
    rw [if_pos truthy]
    refine .inr ⟨_, sent, ?_⟩
    cases value with
    | none => cases truthy
    | some x =>
        have present : (ofOption write (some x)).sortMembers.isNull = false := by
          rw [Json.isNull_sortMembers]
          exact Json.isNull_of_isTruthy truthy
        have found : read (ofOption write (some x)).sortMembers = .ok (sorted x) := law x
        rw [Members.orNull, present, if_neg Bool.false_ne_true, found]
        rfl
  next falsy =>
    rw [if_neg falsy]
    exact .inl ⟨sent, rfl⟩

theorem optionalOr_of_sent (law : ∀ x, read (write x).sortMembers = .ok x) {value : Option α}
    (sent : Sent members (name, ofOption write value)) (default : Option α) :
    members.optionalOr name read default = .found (said write value default) := by
  rw [optionalOr_of_sent_sorted law sent, Option.map_id', said]

theorem optionalField_of_sent (law : ∀ x, read (write x).sortMembers = .ok x) {value : Option α}
    (sent : Sent members (name, ofOption write value)) :
    members.optionalField name read = .found (said write value none) :=
  optionalOr_of_sent law sent none

theorem optionalField_of_sent_sorted {sorted : α → α}
    (law : ∀ x, read (write x).sortMembers = .ok (sorted x)) {value : Option α}
    (sent : Sent members (name, ofOption write value)) :
    members.optionalField name read = .found ((said write value none).map sorted) := by
  rw [said, apply_ite (Option.map sorted)]
  exact optionalOr_of_sent_sorted law sent none

theorem flag_of_sent {flag : Bool} (sent : Sent members (name, .bool flag)) :
    members.defaulted name Json.asBool false = .found flag := by
  rw [Json.defaulted_found_iff]
  cases flag with
  | true => exact .inr ⟨_, sent, rfl⟩
  | false => exact .inl ⟨sent, rfl⟩

theorem optionalField_of_free (free : members.lookup name = none) :
    members.optionalField name read = .found none :=
  Json.defaulted_found_iff.2 (.inl ⟨free, rfl⟩)

end Fields

/-! ## Kinds of values -/

namespace Json

theorem read_text (text : String) : asString (Json.string text).sortMembers = .ok text := rfl

theorem read_truth (flag : Bool) : asBool (Json.bool flag).sortMembers = .ok flag := rfl

theorem asNat_sortMembers {limit number : Nat} (bound : number < limit) :
    asNat limit (ofNat number).sortMembers = .ok number :=
  Codec.asNat_iff.2 ⟨bound, rfl⟩

theorem read_word (number : UInt64) : asUInt64 (ofNat number.toNat).sortMembers = .ok number := by
  have bound : number.toNat < UInt64.size := number.toNat_lt
  rw [asUInt64, asNat_sortMembers bound, Except.map, UInt64.ofNat_toNat]

theorem read_halfWord (number : UInt32) :
    asUInt32 (ofNat number.toNat).sortMembers = .ok number := by
  have bound : number.toNat < UInt32.size := number.toNat_lt
  rw [asUInt32, asNat_sortMembers bound, Except.map, UInt32.ofNat_toNat]

theorem read_texts (texts : List String) :
    asList asString (ofStrings texts).sortMembers = .ok texts := by
  rw [ofStrings, sortMembers, sortItems_map fun _ => rfl]
  exact (Codec.list Codec.text).read_write fun _ _ => trivial

theorem read_words (numbers : List UInt64) :
    asList asUInt64 (Json.array (numbers.map (ofNat ·.toNat))).sortMembers = .ok numbers := by
  rw [sortMembers, sortItems_map fun _ => rfl]
  exact (Codec.list Codec.word).read_write fun _ _ => trivial

theorem read_buildType (type : BuildType) :
    BuildType.ofJson type.toJson.sortMembers = .ok type := by
  cases type <;> rfl

theorem read_dict (texts : Dict String String) :
    asDict asString (ofTexts texts).sortMembers = .ok texts := by
  have sorted : (ofTexts texts).Sorted := by
    refine ⟨?_, sortedMembers_iff.2 fun member here => ?_⟩
    · rw [List.map_map, List.pairwise_map]
      exact texts.ascending.imp fun before => compareOfLessAndEq_eq_lt.1 before
    · rcases List.mem_map.1 here with ⟨entry, -, rfl⟩
      trivial
  rw [sortMembers_of_sorted sorted]
  exact Codec.texts.read_write trivial

theorem read_any (value : Json) : asAny value.sortMembers = .ok value.sortMembers := rfl

theorem read_items (items : List Json) :
    asArray (Json.array items).sortMembers = .ok (sortItems items) := rfl

end Json

/-! ## Structures -/

open Json (read_text read_truth read_word read_halfWord read_texts read_words read_buildType
  read_dict read_any read_items)

theorem SharedParams.ask_of_sent {members : Members Json} {params : SharedParams}
    (sent : ∀ member ∈ params.toMembers, Sent members member) :
    ask members = .found params.normal.ordered := by
  simp only [toMembers, List.forall_mem_cons] at sent
  rcases sent with ⟨arrangementVersion, buildFrom, buildImage, buildrootIsImagestream,
    buildJsonDir, component, imageTag, kojiTarget, kojiTaskId, platform, orchestratorDeadline,
    reactorConfigMap, reactorConfigOverride, scratch, signingIntent, user, workerDeadline, -⟩
  rw [ask, optionalOr_of_sent read_halfWord arrangementVersion,
    optionalField_of_sent read_text buildFrom, optionalField_of_sent read_text buildImage,
    flag_of_sent buildrootIsImagestream, optionalField_of_sent read_text buildJsonDir,
    optionalField_of_sent read_text component, optionalField_of_sent read_text imageTag,
    optionalField_of_sent read_text kojiTarget, optionalField_of_sent read_word kojiTaskId,
    optionalField_of_sent read_text platform,
    optionalField_of_sent read_halfWord orchestratorDeadline,
    optionalField_of_sent read_text reactorConfigMap,
    optionalField_of_sent_sorted read_any reactorConfigOverride,
    optionalField_of_sent read_truth scratch, optionalField_of_sent read_text signingIntent,
    optionalField_of_sent read_text user, optionalField_of_sent read_halfWord workerDeadline]
  rfl

theorem SourcesParams.ask_of_sent {members : Members Json} {params : SourcesParams}
    (sent : ∀ member ∈ params.toMembers, Sent members member) :
    ask members = .found fun shared => { params.normal.ordered with shared } := by
  simp only [toMembers, List.forall_mem_append, List.forall_mem_cons] at sent
  rcases sent with ⟨-, kojiBuildNvr, kojiBuildId, -⟩
  rw [ask, optionalField_of_sent read_text kojiBuildNvr,
    optionalField_of_sent read_word kojiBuildId]
  rfl

/-- The names of the node selectors. -/
def ImageParams.selectorNames : List String :=
  ["auto_build_node_selector", "explicit_build_node_selector", "isolated_build_node_selector",
    "platform_node_selector", "scratch_build_node_selector"]

theorem ImageParams.ask_of_sent {members : Members Json} {params : ImageParams}
    (sent : ∀ member ∈ params.toMembers, Sent members member)
    (free : ∀ name ∈ selectorNames, members.lookup name = none) :
    ask members = .found fun shared => { params.normal.ordered with shared } := by
  simp only [toMembers, List.forall_mem_append, List.forall_mem_cons] at sent
  simp only [selectorNames, List.forall_mem_cons] at free
  rcases sent with ⟨-, additionalTags, baseImage, buildType, composeIds, customizeConf,
    dependencyReplacements, filesystemKojiTaskId, flatpak, gitBranch, gitCommitDepth, gitRef,
    gitUri, imagestreamName, includeKojiRepo, isAuto, isolated, kojiParentBuild, kojiUploadDir,
    name, bundlePullspecs, csvModificationsUrl, manifestsExtractPlatform, parentImagesDigests,
    platforms, release, remoteSources, skipBuild, tagsFromYaml, triggerImagestreamtag,
    triggeredAfterKojiTask, yumRepourls, -⟩
  rcases free with ⟨autoSelector, explicitSelector, isolatedSelector, platformSelector,
    scratchSelector, -⟩
  rw [ask, optionalField_of_sent read_texts additionalTags,
    optionalField_of_sent read_text baseImage, optionalField_of_sent read_buildType buildType,
    optionalField_of_sent read_words composeIds, optionalOr_of_sent read_text customizeConf,
    optionalField_of_sent read_texts dependencyReplacements,
    optionalField_of_sent read_word filesystemKojiTaskId, flag_of_sent flatpak,
    optionalField_of_sent read_text gitBranch, optionalField_of_sent read_halfWord gitCommitDepth,
    optionalOr_of_sent read_text gitRef, optionalField_of_sent read_text gitUri,
    optionalField_of_sent read_text imagestreamName, flag_of_sent includeKojiRepo,
    optionalField_of_sent read_truth isAuto, optionalField_of_sent read_truth isolated,
    optionalField_of_sent read_text kojiParentBuild, optionalField_of_sent read_text kojiUploadDir,
    optionalField_of_sent read_text name, optionalField_of_sent read_dict bundlePullspecs,
    optionalField_of_sent read_text csvModificationsUrl,
    optionalField_of_sent read_text manifestsExtractPlatform,
    optionalField_of_sent_sorted read_any parentImagesDigests,
    optionalField_of_sent read_texts platforms, optionalField_of_sent read_text release,
    optionalField_of_sent_sorted read_items remoteSources,
    optionalField_of_sent read_truth skipBuild, optionalField_of_sent read_truth tagsFromYaml,
    optionalField_of_sent read_text triggerImagestreamtag,
    optionalField_of_sent read_word triggeredAfterKojiTask,
    optionalField_of_sent read_texts yumRepourls, optionalField_of_free autoSelector,
    optionalField_of_free explicitSelector, optionalField_of_free isolatedSelector,
    optionalField_of_free platformSelector, optionalField_of_free scratchSelector]
  rfl

end ContainerBuild
