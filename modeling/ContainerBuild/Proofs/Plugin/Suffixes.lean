import ContainerBuild.Proofs.Params.Tags
import ContainerBuild.Proofs.Plugin.Workers

namespace ContainerBuild

/-!
# Tags of a build and their suffixes

A fresh image tag is put together when parameters are made, and taken apart at its last colon when
they are rendered.  The user and the component may hold colons of their own; what stands behind
them has none, unless the target or the platform does (`ImageTag.colon_notMem_suffix`), so the last
colon is the one that was put there and the suffix comes back whole (`ImageTag.afterColon_append`).
-/

/-! ## Suffixes of fresh tags -/

namespace ImageTag

/-- The platform as a fresh tag names it. -/
def platformText (params : SharedParams) : String :=
  match params.platform with
  | some platform =>
      if platformArrangement ≤ params.arrangementVersion.getD 0 then "-" ++ platform else ""
  | none => ""

/-- What follows the user and the component in a fresh tag. -/
def suffix (params : SharedParams) (digits : Nat) (instant : Instant) : String :=
  params.kojiTarget.getD "none" ++ "-" ++ toString digits ++ "-" ++ instant.digitsText ++
    platformText params

theorem ofDigits_eq (params : SharedParams) (digits : Nat) (instant : Instant) :
    ofDigits params digits instant = params.user.getD "None" ++ "/" ++
      params.component.getD "None" ++ ":" ++ suffix params digits instant := by
  change params.user.getD "None" ++ "/" ++ params.component.getD "None" ++ ":" ++
    params.kojiTarget.getD "none" ++ "-" ++ toString digits ++ "-" ++ instant.digitsText ++
      platformText params = _
  simp only [suffix, String.append_assoc]

/-- The part of a text after its last colon. -/
def afterColon (text : String) : String :=
  String.ofList (text.toList.reverse.takeWhile (· != ':')).reverse

/-- What has no colon comes back from behind the last one, whatever stands in front. -/
theorem afterColon_append {suffix : String} (apart : ':' ∉ suffix.toList) (front : String) :
    afterColon (front ++ ":" ++ suffix) = suffix := by
  have colon : (":" : String).toList = [':'] := rfl
  have behind : ∀ c ∈ suffix.toList.reverse, (c != ':') = true := by
    intro c here
    refine bne_iff_ne.2 fun same => apart ?_
    rwa [← same, ← List.mem_reverse]
  rw [afterColon, String.toList_append, String.toList_append, colon, List.reverse_append,
    List.takeWhile_append_of_pos behind, List.reverse_concat,
    List.takeWhile_cons_of_neg (by decide), List.append_nil, List.reverse_reverse,
    String.ofList_toList]

/-! ## Suffixes without colons -/

theorem colon_notMem_padded (width value : Nat) : ':' ∉ Instant.padded width value :=
  fun here => absurd (Instant.isDigit_of_mem_padded here) (by decide)

theorem colon_notMem_digitsText (instant : Instant) : ':' ∉ instant.digitsText.toList := by
  have year : ':' ∉ Instant.yearText instant.date.year := by
    by_cases short : 0 ≤ instant.date.year ∧ instant.date.year ≤ 9999
    · rw [Instant.yearText_eq_padded short]
      exact colon_notMem_padded _ _
    · rw [Instant.yearText_eq_signed short, List.mem_cons, not_or]
      refine ⟨?_, colon_notMem_padded _ _⟩
      split <;> decide
  simp [Instant.digitsText, Instant.dateText, Instant.clockText, year, colon_notMem_padded]

/-- The suffix of a fresh tag has a colon only where the target or the platform has one. -/
theorem colon_notMem_suffix {params : SharedParams}
    (target : ∀ target ∈ params.kojiTarget, ':' ∉ target.toList)
    (platform : ∀ platform ∈ params.platform, ':' ∉ platform.toList) (digits : Nat)
    (instant : Instant) : ':' ∉ (suffix params digits instant).toList := by
  have inTarget : ':' ∉ (params.kojiTarget.getD "none").toList := by
    cases given : params.kojiTarget with
    | none => decide
    | some name => exact target name given
  have inNumber : ':' ∉ (toString digits).toList := by
    rw [Nat.toString_eq_ofList_toDigits, String.toList_ofList]
    exact fun here => absurd (Json.Numeral.isDigit_of_mem_decimalDigits here) (by decide)
  have inPlatform : ':' ∉ (platformText params).toList := by
    rw [platformText]
    cases given : params.platform with
    | none => exact List.not_mem_nil
    | some name =>
        change ':' ∉ (if _ then "-" ++ name else "").toList
        split
        · rw [String.toList_append, List.mem_append, not_or]
          exact ⟨by decide, platform name given⟩
        · decide
  have dash : ':' ∉ ("-" : String).toList := by decide
  simp only [suffix, String.toList_append, List.mem_append, not_or]
  exact ⟨⟨⟨⟨⟨inTarget, dash⟩, inNumber⟩, dash⟩, colon_notMem_digitsText instant⟩, inPlatform⟩

end ImageTag

/-! ## Tags of parameters that are made -/

section Make

variable {instant : Instant} {draws : List UInt32}

/-- The tag of parameters that are made is a fresh one. -/
theorem SharedParams.imageTag_of_make {request : SharedRequest} {settings : Settings}
    {params : SharedParams} (done : make request settings instant draws = .ok params) :
    params.imageTag = some (ImageTag.ofDigits params (ImageTag.fiveDigits draws) instant) := by
  rw [make] at done
  rcases Except.bind_ok_iff.1 done with ⟨source, -, done⟩
  rcases Except.bind_ok_iff.1 done with ⟨⟨kind, image⟩, -, done⟩
  rcases Except.bind_ok_iff.1 done with ⟨_, -, done⟩
  rw [← Except.ok.inj done]
  rfl

/-- The shared parameters of an image build are made by themselves. -/
theorem ImageParams.shared_of_make {request : ImageRequest} {settings : Settings}
    {params : ImageParams} (done : make request settings instant draws = .ok params) :
    SharedParams.make request.shared settings instant draws = .ok params.shared := by
  rw [make] at done
  rcases Except.bind_ok_iff.1 done with ⟨gitUri, -, done⟩
  rcases Except.bind_ok_iff.1 done with ⟨_, -, done⟩
  rcases Except.bind_ok_iff.1 done with ⟨nameLabel, -, done⟩
  rcases Except.bind_ok_iff.1 done with ⟨_, -, done⟩
  rcases Except.bind_ok_iff.1 done with ⟨shared, made, done⟩
  rcases Except.bind_ok_iff.1 done with ⟨named, setName, done⟩
  rcases Except.bind_ok_iff.1 done with ⟨_, -, done⟩
  rcases setName_ok_iff.1 setName with ⟨id, -, rfl⟩
  rw [← Except.ok.inj done]
  exact made

end Make

namespace ImageParams

variable (params : ImageParams)

theorem uniqueTag_eq {tag : String} (tagged : params.shared.imageTag = some tag) :
    params.uniqueTag = ImageTag.afterColon tag := by
  rw [uniqueTag, tagged]
  rfl

/-- How the tags of a build go with its parameters, for a number and an instant. -/
structure TagsFor (digits : Nat) (instant : Instant) (unique : String)
    (primary floating : List String) : Prop where
  fiveDigits : 10000 ≤ digits ∧ digits ≤ 99999
  /-- The tag that only this build has is the image tag without the user and the component. -/
  whole : params.shared.imageTag = some (params.shared.user.getD "None" ++ "/" ++
    params.shared.component.getD "None" ++ ":" ++ unique)
  /-- A tag names its platform from the fourth arrangement on. -/
  named : ∀ platform ∈ params.shared.platform, ∀ version ∈ params.shared.arrangementVersion,
    4 ≤ version → unique = params.shared.kojiTarget.getD "none" ++ "-" ++ toString digits ++ "-" ++
      instant.digitsText ++ "-" ++ platform
  unnamed : (params.shared.platform = none ∨
      ∀ version ∈ params.shared.arrangementVersion, version < 4) →
    unique = params.shared.kojiTarget.getD "none" ++ "-" ++ toString digits ++ "-" ++
      instant.digitsText
  primary_ne_nil : primary ≠ [] ↔
    params.buildType = some .orchestrator ∧ params.shared.scratch ≠ some true
  /-- Only an orchestrator build that is neither for scratch nor isolated has tags that move on. -/
  stays : ¬ (params.buildType = some .orchestrator ∧ params.shared.scratch ≠ some true ∧
    params.isolated ≠ some true) → floating = []
  /-- Those it has end with the additional ones; two stand in front unless a file says which. -/
  moves : params.buildType = some .orchestrator → params.shared.scratch ≠ some true →
    params.isolated ≠ some true →
      (params.tagsFromYaml = some true → floating = params.additionalTags.getD []) ∧
      (params.tagsFromYaml ≠ some true →
        floating = "latest" :: "\x7bversion\x7d" :: params.additionalTags.getD [])

variable {params}

/-- A tag without colons behind the component is taken apart where it was put together. -/
theorem uniqueTag_of_make {request : ImageRequest} {settings : Settings} {instant : Instant}
    {draws : List UInt32} (done : make request settings instant draws = .ok params)
    (target : ∀ target ∈ params.shared.kojiTarget, ':' ∉ target.toList)
    (platform : ∀ platform ∈ params.shared.platform, ':' ∉ platform.toList) :
    params.uniqueTag = ImageTag.suffix params.shared (ImageTag.fiveDigits draws) instant := by
  rw [uniqueTag_eq params (SharedParams.imageTag_of_make (shared_of_make done)),
    ImageTag.ofDigits_eq]
  exact ImageTag.afterColon_append (ImageTag.colon_notMem_suffix target platform _ _) _

theorem hasPrimaryTag_iff : params.hasPrimaryTag = true ↔
    params.buildType = some .orchestrator ∧ params.shared.scratch ≠ some true := by
  rw [hasPrimaryTag, isOrchestrator, Bool.and_eq_true, decide_eq_true_eq, bne_iff_ne]

theorem tagsFor_of_make {request : ImageRequest} {settings : Settings} {instant : Instant}
    {draws : List UInt32} (done : make request settings instant draws = .ok params)
    (target : ∀ target ∈ params.shared.kojiTarget, ':' ∉ target.toList)
    (platform : ∀ platform ∈ params.shared.platform, ':' ∉ platform.toList) :
    params.TagsFor (ImageTag.fiveDigits draws) instant params.uniqueTag params.primaryTags
      params.floatingTags := by
  have unique := uniqueTag_of_make done target platform
  constructor
  case fiveDigits => exact ImageTag.fiveDigits_mem draws
  case whole =>
    rw [unique, ← ImageTag.ofDigits_eq]
    exact SharedParams.imageTag_of_make (shared_of_make done)
  case named =>
    intro name given version arranged recent
    have late : ImageTag.platformArrangement ≤ version := recent
    rw [unique, ImageTag.suffix, ImageTag.platformText, given, arranged, Option.getD_some]
    simp only [if_pos late, String.append_assoc]
  case unnamed =>
    intro old
    have nothing : ImageTag.platformText params.shared = "" := by
      rw [ImageTag.platformText]
      rcases old with none | early
      · rw [none]
      · have bound : ¬ ImageTag.platformArrangement ≤
            params.shared.arrangementVersion.getD 0 := by
          cases arranged : params.shared.arrangementVersion with
          | none => decide
          | some version => exact UInt32.not_le.2 (early version arranged)
        cases params.shared.platform with
        | none => rfl
        | some name => exact if_neg bound
    rw [unique, ImageTag.suffix, nothing, String.append_empty]
  case primary_ne_nil =>
    rw [← hasPrimaryTag_iff, primaryTags]
    cases params.hasPrimaryTag <;> simp
  case stays =>
    intro settled
    rw [floatingTags, if_neg]
    rwa [Bool.and_eq_true, hasPrimaryTag_iff, bne_iff_ne, and_assoc]
  case moves =>
    intro orchestrator lasting joint
    have floats : (params.hasPrimaryTag && params.isolated != some true) = true := by
      rw [Bool.and_eq_true, hasPrimaryTag_iff, bne_iff_ne]
      exact ⟨⟨orchestrator, lasting⟩, joint⟩
    rw [floatingTags, if_pos floats]
    exact ⟨fun listed => by rw [if_pos listed, List.nil_append],
      fun unlisted => by rw [if_neg unlisted]; rfl⟩

variable (params)

/-- The plugin that tags images is assigned the tags. -/
theorem assigned_tagFromConfig : Rule.assigned (Params.image params).rules "postbuild_plugins"
    "tag_from_config" = [("tag_suffixes", params.tagSuffixes)] := by
  simp [Rule.assigned, Params.rules, ImageParams.rules, Rule.target, Rule.tagTarget,
    Rule.prebuild, Rule.postbuild, Rule.buildStep, Rule.exit]

end ImageParams

/-! ## Tags in a configuration -/

namespace Params

/-- A plugin of a template that is filled in has what the rules assign to it. -/
theorem exists_filled_of_render {params : Params} {template : Template} {text phase name : String}
    (there : template.customized.has phase name = true)
    (rendered : params.render template = .ok text) :
    ∃ filled, ∃ plugin : Plugin, params.fill template = .ok filled ∧
      text = Template.document filled.phases ∧
      filled.get phase name = .ok (plugin.setArgs (Rule.assigned params.rules phase name)) := by
  rcases render_ok_iff.1 rendered with ⟨filled, done, written⟩
  cases found : template.customized.get phase name with
  | error error =>
      rw [Template.has, found] at there
      cases there
  | ok plugin =>
      refine ⟨filled, plugin, done, written, ?_⟩
      rw [(fill_ok_iff.1 done).2.2]
      exact Template.get_filledBy found

/-- The plugin that tags images is told the one tag that only this build has, which is the fresh
image tag without the user and the component even if these have colons, and the tags that the
build gets for its kind. -/
theorem render_suffixes {request : ImageRequest} {settings : Settings} {instant : Instant}
    {draws : List UInt32} {image : ImageParams} {template : Template} {text : String}
    (made : ImageParams.make request settings instant draws = .ok image)
    (target : ∀ target ∈ image.shared.kojiTarget, ':' ∉ target.toList)
    (platform : ∀ platform ∈ image.shared.platform, ':' ∉ platform.toList)
    (there : template.customized.has "postbuild_plugins" "tag_from_config" = true)
    (rendered : (Params.image image).render template = .ok text) :
    ∃ filled plugin unique primary floating,
      (Params.image image).fill template = .ok filled ∧
      text = Template.document filled.phases ∧
      filled.get "postbuild_plugins" "tag_from_config" = .ok plugin ∧
      plugin.arg? "tag_suffixes" = some (.object [("unique", .array [.string unique]),
        ("primary", .ofStrings primary), ("floating", .ofStrings floating)]) ∧
      image.TagsFor (ImageTag.fiveDigits draws) instant unique primary floating := by
  rcases exists_filled_of_render there rendered with ⟨filled, plugin, done, written, told⟩
  have tags := ImageParams.tagsFor_of_make made target platform
  refine ⟨filled, _, _, _, _, done, written, told, ?_, tags⟩
  have assigned : Rule.assigned (Params.image image).rules "postbuild_plugins"
      "tag_from_config" = _ := image.assigned_tagFromConfig
  rw [assigned]
  exact (Plugin.arg?_setArg _ _ _ _).trans (if_pos rfl)

/-- A request of a user and for a component that both have colons in their names. -/
def ofColons : ImageRequest where
  shared := { buildFrom := some "image:buildroot:latest", buildJsonDir := some "inputs",
              component := some "rpms/app:1", kojiTarget := some "f40", platform := some "x86_64",
              user := some "ci:builder" }
  additionalTags := ["stable"]
  baseImage := some "fedora:40"
  buildType := some .orchestrator
  gitUri := some "rpms/python.git"
  nameLabel := some "fedora/app"

/-- The parameters of that request. -/
def ofColonsMade : ImageParams :=
  ((ImageParams.make ofColons .default .epoch []).toOption).getD .default

/-- A template with the plugin that tags images. -/
def tagging : Template where
  listed := .ofPairs [("postbuild_plugins", [⟨"tag_from_config", none, []⟩])]
  customization := .empty

theorem render_suffixes_ofColons :
    ImageParams.make ofColons .default .epoch [] = .ok ofColonsMade ∧
      (∀ target ∈ ofColonsMade.shared.kojiTarget, ':' ∉ target.toList) ∧
      (∀ platform ∈ ofColonsMade.shared.platform, ':' ∉ platform.toList) ∧
      tagging.customized.has "postbuild_plugins" "tag_from_config" = true ∧
      ∃ text filled plugin primary, (Params.image ofColonsMade).render tagging = .ok text ∧
        (Params.image ofColonsMade).fill tagging = .ok filled ∧
        filled.get "postbuild_plugins" "tag_from_config" = .ok plugin ∧ primary ≠ [] ∧
        plugin.arg? "tag_suffixes" = some (.object [
          ("unique", .array [.string "f40-10000-19700101000000-x86_64"]),
          ("primary", .ofStrings primary),
          ("floating", .ofStrings ["latest", "\x7bversion\x7d", "stable"])]) := by
  have made : ImageParams.make ofColons .default .epoch [] = .ok ofColonsMade := by decide +kernel
  have target : ofColonsMade.shared.kojiTarget = some "f40" := by decide +kernel
  have platform : ofColonsMade.shared.platform = some "x86_64" := by decide +kernel
  have noColon : (∀ target ∈ ofColonsMade.shared.kojiTarget, ':' ∉ target.toList) ∧
      ∀ platform ∈ ofColonsMade.shared.platform, ':' ∉ platform.toList := by
    rw [target, platform]
    decide
  have there : tagging.customized.has "postbuild_plugins" "tag_from_config" = true := by
    decide +kernel
  have evaluated : ((Params.image ofColonsMade).render tagging).toBool = true := by decide +kernel
  rcases Except.exists_ok_of_toBool evaluated with ⟨text, rendered⟩
  rcases render_suffixes made noColon.1 noColon.2 there rendered with
    ⟨filled, plugin, unique, primary, floating, done, -, got, told, tags⟩
  have lasting : ofColonsMade.buildType = some .orchestrator ∧
      ofColonsMade.shared.scratch ≠ some true := by
    decide +kernel
  have moving := (tags.moves lasting.1 lasting.2 (by decide +kernel)).2 (by decide +kernel)
  have additional : ofColonsMade.additionalTags = some ["stable"] := by decide +kernel
  have suffix : unique = "f40-10000-19700101000000-x86_64" :=
    (tags.named _ platform 6 (by decide +kernel) (by decide)).trans (by decide +kernel)
  rw [suffix, moving, additional] at told
  exact ⟨made, noColon.1, noColon.2, there, text, filled, plugin, primary, rendered, done,
    got, tags.primary_ne_nil.2 lasting, told⟩

end Params
end ContainerBuild
