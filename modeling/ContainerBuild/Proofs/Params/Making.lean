import ContainerBuild.Proofs.Naming.GitName
import ContainerBuild.Proofs.Params.Reloading
import ContainerBuild.Proofs.Plugin.Directory
import Mathlib.Data.List.TakeWhile

namespace ContainerBuild

/-!
# Which requests parameters are made from

The checks of a request are read off one by one, so that parameters are made exactly from requests
that pass all of them (`ImageParams.exists_make_iff`, `SourcesParams.exists_make_iff`), and what
is made can be traced back to the request (`ImageParams.Made`).  The name of the build is not among
what can go wrong, since a name that is made is a build ID (`GitName.check_make`).
-/

/-! ## Checks -/

theorem require_ok_iff {α : Type} {value : Option α} {fault : RequestFault} {x : α} :
    require value fault = .ok x ↔ value = some x := by
  cases value with
  | none => exact iff_of_false (fun done => by cases done) fun given => by cases given
  | some y => rw [require, Except.ok.injEq, Option.some.injEq]

theorem refuseIf_ok_iff {condition : Bool} {fault : RequestFault} {done : Unit} :
    refuseIf condition fault = .ok done ↔ condition = false := by
  cases condition with
  | false => exact iff_of_true rfl rfl
  | true => exact iff_of_false (fun passed => by cases passed) fun refused => by cases refused

/-- Whether something can fail only for what a request says. -/
def OnlyFaults {α : Type} (result : Except ParamsError α) : Prop :=
  ∀ error, result = .error error → ∃ fault, error = .invalid fault

section OnlyFaults

variable {α β : Type}

theorem onlyFaults_ok (x : α) : OnlyFaults (.ok x) := fun _ failed => by cases failed

theorem onlyFaults_require (value : Option α) (fault : RequestFault) :
    OnlyFaults (require value fault) := by
  intro error failed
  cases value with
  | none => exact ⟨fault, (Except.error.inj failed).symm⟩
  | some x => cases failed

theorem onlyFaults_refuseIf (condition : Bool) (fault : RequestFault) :
    OnlyFaults (refuseIf condition fault) := by
  intro error failed
  cases condition with
  | false => cases failed
  | true => exact ⟨fault, (Except.error.inj failed).symm⟩

theorem OnlyFaults.bind {first : Except ParamsError α} {next : α → Except ParamsError β}
    (faults : OnlyFaults first) (later : ∀ x, OnlyFaults (next x)) :
    OnlyFaults (first >>= next) := by
  intro error failed
  cases first with
  | error earlier => exact faults error (congrArg Except.error (Except.error.inj failed))
  | ok x => exact later x error failed

end OnlyFaults

/-! ## Image references -/

namespace SharedParams

/-- An image reference is split at its first colon. -/
theorem splitBuildFrom?_eq_some_iff {source kind image : String} :
    splitBuildFrom? source = some (kind, image) ↔
      source = kind ++ ":" ++ image ∧ ':' ∉ kind.toList := by
  have colon : (':' != ':') = false := by decide
  rw [splitBuildFrom?, List.span_eq_takeWhile_dropWhile]
  constructor
  · intro split
    have whole := List.takeWhile_append_dropWhile (p := (· != ':')) (l := source.toList)
    cases rest : source.toList.dropWhile (· != ':') with
    | nil =>
        rw [rest] at split
        cases split
    | cons c name =>
        have stops := List.head?_dropWhile_not (· != ':') source.toList
        rw [rest] at split stops whole
        have atColon : c = ':' := by simpa using stops
        rcases Prod.mk.inj (Option.some.inj split) with ⟨rfl, rfl⟩
        refine ⟨String.toList_inj.1 (whole.symm.trans ?_), fun inKind => ?_⟩
        · simp [atColon]
        · rw [String.toList_ofList] at inKind
          have notColon := List.mem_takeWhile_imp inKind
          rw [colon] at notColon
          cases notColon
  · rintro ⟨rfl, apart⟩
    have before : ∀ c ∈ kind.toList, (c != ':') = true :=
      fun c here => bne_iff_ne.2 fun same => apart (same ▸ here)
    have parts : (kind ++ ":" ++ image).toList = kind.toList ++ ':' :: image.toList := by
      rw [String.toList_append, String.toList_append, List.append_assoc]
      rfl
    rw [parts, List.takeWhile_append_of_pos before, List.dropWhile_append_of_pos before,
      List.takeWhile_cons, List.dropWhile_cons, colon]
    simp

/-- Whether an image reference says of which kind it is: an image or an image stream, before the
first colon. -/
def IsSource (source : String) : Prop :=
  ∃ kind image, source = kind ++ ":" ++ image ∧ ':' ∉ kind.toList ∧
    (kind = "image" ∨ kind = "imagestream")

/-- Whether the request, or else the settings, say with an image reference what to build in. -/
def HasSource (request : SharedRequest) (settings : Settings) : Prop :=
  ∃ source, (request.buildFrom <|> settings.buildFrom) = some source ∧ IsSource source

/-- The kind of the image that parameters name, as they flag it. -/
def sourceKind (params : SharedParams) : String :=
  if params.buildrootIsImagestream then "imagestream" else "image"

/-- What shared parameters take from the request that they are made from. -/
structure Made (request : SharedRequest) (settings : Settings) (params : SharedParams) : Prop where
  /-- The image reference is that of the request, or else of the settings. -/
  source : params.buildFrom = (request.buildFrom <|> settings.buildFrom)
  /-- The image reference splits back into the flagged kind and the image. -/
  parts : ∃ source image, params.buildFrom = some source ∧ params.buildImage = some image ∧
    splitBuildFrom? source = some (params.sourceKind, image) ∧
    source = params.sourceKind ++ ":" ++ image
  directory : params.buildJsonDir = request.buildJsonDir
  user : params.user = request.user
  scratch : params.scratch = (request.scratch <|> settings.scratch)

theorem Made.hasSource {request : SharedRequest} {settings : Settings} {params : SharedParams}
    (made : Made request settings params) : HasSource request settings := by
  rcases made.parts with ⟨source, image, given, -, split, -⟩
  rcases splitBuildFrom?_eq_some_iff.1 split with ⟨joined, apart⟩
  refine ⟨source, made.source.symm.trans given, params.sourceKind, image, joined, apart, ?_⟩
  rw [sourceKind]
  split
  · exact .inr rfl
  · exact .inl rfl

section Make

variable {request : SharedRequest} {settings : Settings} {instant : Instant}
  {draws : List UInt32} {params : SharedParams}

theorem made_of_make (done : make request settings instant draws = .ok params) :
    Made request settings params := by
  rw [make] at done
  rcases Except.bind_ok_iff.1 done with ⟨source, given, done⟩
  rcases Except.bind_ok_iff.1 done with ⟨⟨kind, image⟩, split, done⟩
  rcases Except.bind_ok_iff.1 done with ⟨_, familiar, done⟩
  have split := require_ok_iff.1 split
  have familiar := refuseIf_ok_iff.1 familiar
  have flagged : (if (kind == "imagestream") = true then "imagestream" else "image") = kind := by
    by_cases stream : kind = "imagestream"
    · simp [stream]
    · have named : kind = "image" := by simpa [stream] using familiar
      simp [named]
  rw [← Except.ok.inj done]
  refine ⟨(require_ok_iff.1 given).symm, ⟨source, image, rfl, rfl, ?_, ?_⟩, rfl, rfl, rfl⟩
  · rw [sourceKind, flagged, split]
  · rw [sourceKind, flagged]
    exact (splitBuildFrom?_eq_some_iff.1 split).1

theorem exists_make_iff :
    (∃ params, make request settings instant draws = .ok params) ↔
      HasSource request settings := by
  constructor
  · rintro ⟨params, done⟩
    exact (made_of_make done).hasSource
  · rintro ⟨source, given, kind, image, parts, apart, familiar⟩
    have split := splitBuildFrom?_eq_some_iff.2 ⟨parts, apart⟩
    have accepted : (kind != "image" && kind != "imagestream") = false := by
      rcases familiar with rfl | rfl <;> decide
    rw [make]
    exact ⟨_, Except.bind_ok_iff.2 ⟨source, require_ok_iff.2 given, Except.bind_ok_iff.2
      ⟨(kind, image), require_ok_iff.2 split, Except.bind_ok_iff.2
        ⟨(), refuseIf_ok_iff.2 accepted, rfl⟩⟩⟩⟩

theorem onlyFaults_make : OnlyFaults (make request settings instant draws) :=
  (onlyFaults_require _ _).bind fun _ => (onlyFaults_require _ _).bind fun _ =>
    (onlyFaults_refuseIf _ _).bind fun _ => onlyFaults_ok _

end Make

end SharedParams

/-! ## Requests for image builds -/

/-- Whether a request for an image build passes all checks. -/
structure ImageRequest.Acceptable (request : ImageRequest) (settings : Settings) : Prop where
  repository : request.gitUri.isSome
  label : request.nameLabel.isSome
  base : request.baseImage.isSome ∨ request.flatpak = true
  /-- What composes are for is said in one way only. -/
  composes : ¬ (request.shared.signingIntent.isSome ∧ request.composeIds.getD [] ≠ [])
  source : SharedParams.HasSource request.shared settings
  /-- The variations of a build exclude each other. -/
  variations : [request.shared.scratch <|> settings.scratch, request.isAuto,
    request.isolated].count (some true) ≤ 1

/-- Parameters are complete when none is listed as missing. -/
theorem Params.validate_ok_iff {params : ImageParams} :
    (Params.image params).validate = .ok () ↔ params.missing = [] := by
  rw [validate, Params.missing]
  cases params.missing with
  | nil => exact iff_of_true rfl rfl
  | cons name names =>
      rw [List.foldr_cons]
      cases placed : placeName name (names.foldr placeName []) with
      | nil => exact absurd placed (placeName_ne_nil _ _)
      | cons first rest => exact iff_of_false (fun done => by cases done) (List.cons_ne_nil _ _)

namespace ImageParams

/-- What parameters of an image build take from the request that they are made from. -/
structure Made (request : ImageRequest) (settings : Settings) (params : ImageParams) : Prop where
  shared : SharedParams.Made request.shared settings params.shared
  /-- A change of the image that the build starts from triggers the next build. -/
  trigger : params.baseImage = params.triggerImagestreamtag
  base : params.baseImage = request.baseImage
  name : params.name = request.gitUri.map (GitName.make · request.gitBranch)
  /-- What is required is there as soon as the request gives what has no default. -/
  complete : (Params.image params).validate = .ok () ↔
    request.shared.buildJsonDir.isSome ∧ request.shared.user.isSome ∧ request.buildType.isSome

section Make

variable {request : ImageRequest} {settings : Settings} {instant : Instant}
  {draws : List UInt32} {params : ImageParams}

/-- Parameters are complete when the five that are required have a value. -/
theorem validate_ok_iff : (Params.image params).validate = .ok () ↔
    params.shared.buildJsonDir.isSome ∧ params.shared.user.isSome ∧ params.buildType.isSome ∧
      params.gitRef.isSome ∧ params.gitUri.isSome := by
  have listed (name : String) {α : Type} (value : Option α) :
      (if value.isNone then [name] else []) = [] ↔ value.isSome := by
    cases value <;> simp
  rw [Params.validate_ok_iff, missing, SharedParams.missing]
  simp only [List.append_eq_nil_iff, listed, and_assoc]

theorem made_of_make (done : make request settings instant draws = .ok params) :
    request.Acceptable settings ∧ Made request settings params := by
  rw [make] at done
  rcases Except.bind_ok_iff.1 done with ⟨gitUri, repository, done⟩
  rcases Except.bind_ok_iff.1 done with ⟨_, base, done⟩
  rcases Except.bind_ok_iff.1 done with ⟨nameLabel, label, done⟩
  rcases Except.bind_ok_iff.1 done with ⟨_, composes, done⟩
  rcases Except.bind_ok_iff.1 done with ⟨shared, source, done⟩
  rcases Except.bind_ok_iff.1 done with ⟨named, setName, done⟩
  rcases Except.bind_ok_iff.1 done with ⟨_, variations, done⟩
  have repository := require_ok_iff.1 repository
  have label := require_ok_iff.1 label
  have shared := SharedParams.made_of_make source
  rcases setName_ok_iff.1 setName with ⟨id, checked, rfl⟩
  have sameName := Except.ok.inj ((GitName.check_make gitUri request.gitBranch).symm.trans checked)
  rw [← Except.ok.inj done]
  constructor
  · constructor
    case repository => rw [repository, Option.isSome_some]
    case label => rw [label, Option.isSome_some]
    case base =>
      have base := refuseIf_ok_iff.1 base
      cases given : request.baseImage with
      | some image => exact .inl rfl
      | none => simpa [given] using base
    case composes => simpa using refuseIf_ok_iff.1 composes
    case source => exact shared.hasSource
    case variations =>
      have few := refuseIf_ok_iff.1 variations
      rw [decide_eq_false_iff_not, Nat.not_lt, ImageParams.variations, shared.scratch] at few
      exact few
  · constructor
    case shared => exact shared
    case trigger => rfl
    case base => rfl
    case name =>
      rw [repository, Option.map_some, sameName]
    case complete =>
      rw [validate_ok_iff, shared.directory, shared.user]
      simp

theorem exists_make_iff : (∃ params, make request settings instant draws = .ok params) ↔
    request.Acceptable settings := by
  constructor
  · rintro ⟨params, done⟩
    exact (made_of_make done).1
  · intro acceptable
    rcases Option.isSome_iff_exists.1 acceptable.repository with ⟨gitUri, repository⟩
    rcases Option.isSome_iff_exists.1 acceptable.label with ⟨nameLabel, label⟩
    rcases SharedParams.exists_make_iff.2 acceptable.source with ⟨shared, source⟩
    have base : (request.baseImage.isNone && !request.flatpak) = false := by
      rcases acceptable.base with given | flatpak
      · rw [Option.isNone_eq_false_iff.2 given, Bool.false_and]
      · rw [flatpak, Bool.not_true, Bool.and_false]
    have composes : (request.shared.signingIntent.isSome &&
        !(request.composeIds.getD []).isEmpty) = false := by
      simpa using acceptable.composes
    have few := acceptable.variations
    rw [← (SharedParams.made_of_make source).scratch] at few
    rw [make]
    exact ⟨_, Except.bind_ok_iff.2 ⟨gitUri, require_ok_iff.2 repository, Except.bind_ok_iff.2
      ⟨(), refuseIf_ok_iff.2 base, Except.bind_ok_iff.2 ⟨nameLabel, require_ok_iff.2 label,
        Except.bind_ok_iff.2 ⟨(), refuseIf_ok_iff.2 composes, Except.bind_ok_iff.2 ⟨shared, source,
          Except.bind_ok_iff.2 ⟨_, setName_ok_iff.2 ⟨_, GitName.check_make _ _, rfl⟩,
            Except.bind_ok_iff.2 ⟨(), refuseIf_ok_iff.2
              (decide_eq_false_iff_not.2 (Nat.not_lt.2 few)), rfl⟩⟩⟩⟩⟩⟩⟩⟩

/-- A request is never refused for the name that is made of it. -/
theorem onlyFaults_make : OnlyFaults (make request settings instant draws) := by
  refine (onlyFaults_require _ _).bind fun gitUri => (onlyFaults_refuseIf _ _).bind fun _ =>
    (onlyFaults_require _ _).bind fun nameLabel => (onlyFaults_refuseIf _ _).bind fun _ =>
      SharedParams.onlyFaults_make.bind fun shared => .bind (fun error failed => ?_) fun named =>
        (onlyFaults_refuseIf _ _).bind fun _ => onlyFaults_ok _
  rw [setName, GitName.check_make] at failed
  cases failed

end Make

end ImageParams

/-! ## Requests for source container builds -/

namespace SourcesParams

theorem exists_make_iff {request : SourcesRequest} {settings : Settings} {instant : Instant}
    {draws : List UInt32} : (∃ params, make request settings instant draws = .ok params) ↔
      (request.kojiBuildNvr.isSome ∨ request.kojiBuildId.isSome) ∧
        SharedParams.HasSource request.shared settings := by
  have named : (request.kojiBuildNvr.isNone && request.kojiBuildId.isNone) = false ↔
      request.kojiBuildNvr.isSome ∨ request.kojiBuildId.isSome := by
    rw [Bool.and_eq_false_iff, Option.isNone_eq_false_iff, Option.isNone_eq_false_iff]
  have source : (∃ params, SharedParams.make request.shared settings instant draws = .ok params) ↔
      SharedParams.HasSource request.shared settings := SharedParams.exists_make_iff
  rw [← source, ← named]
  constructor
  · rintro ⟨params, done⟩
    rw [make] at done
    rcases Except.bind_ok_iff.1 done with ⟨_, given, done⟩
    rcases Except.bind_ok_iff.1 done with ⟨shared, source, -⟩
    exact ⟨refuseIf_ok_iff.1 given, shared, source⟩
  · rintro ⟨given, shared, source⟩
    rw [make]
    exact ⟨_, Except.bind_ok_iff.2 ⟨(), refuseIf_ok_iff.2 given, Except.bind_ok_iff.2
      ⟨shared, source, rfl⟩⟩⟩

end SourcesParams

/-! ## Which requests parameters are made from -/

/-- Whatever the settings, the clock and the draws are, image parameters are made exactly from the
requests that pass all checks, a name that cannot be a build ID never comes up, and what is made
comes from the request.  Parameters of a source container build are made exactly from the requests
that name a build and an image reference. -/
theorem Params.made_exactly_of_acceptable (settings : Settings) (instant : Instant)
    (draws : List UInt32) :
    (∀ request : ImageRequest,
      ((∃ params, ImageParams.make request settings instant draws = .ok params) ↔
        request.Acceptable settings) ∧
      (∀ judged, ImageParams.make request settings instant draws ≠
        .error (.invalidBuildId judged)) ∧
      ∀ params, ImageParams.make request settings instant draws = .ok params →
        params.Made request settings) ∧
    ∀ request : SourcesRequest,
      (∃ params, SourcesParams.make request settings instant draws = .ok params) ↔
        (request.kojiBuildNvr.isSome ∨ request.kojiBuildId.isSome) ∧
          SharedParams.HasSource request.shared settings := by
  refine ⟨fun request => ⟨ImageParams.exists_make_iff, fun judged failed => ?_, fun params done =>
    (ImageParams.made_of_make done).2⟩, fun request => SourcesParams.exists_make_iff⟩
  rcases ImageParams.onlyFaults_make _ failed with ⟨fault, other⟩
  cases other

/-- A request that asks for a scratch build and leaves the image to build in to the settings. -/
def scratchRequest : ImageRequest where
  shared := { scratch := some true, signingIntent := some "release", user := some "builder" }
  baseImage := some "fedora:31"
  composeIds := some []
  gitUri := some "git://pkgs.example.com/containers/Foo_Bar.git"
  isAuto := some false
  nameLabel := some "foo/bar"

/-- Settings that say which image stream to build in. -/
def streamSettings : Settings :=
  { Settings.default with buildFrom := some "imagestream:buildroot:latest" }

theorem Params.made_exactly_of_acceptable_scratch :
    ∃ params, ImageParams.make scratchRequest streamSettings .epoch [] = .ok params ∧
      params.Made scratchRequest streamSettings := by
  have acceptable : scratchRequest.Acceptable streamSettings := by
    refine ⟨rfl, rfl, .inl rfl, by decide, ⟨_, rfl, ?_⟩, by decide⟩
    exact ⟨"imagestream", "buildroot:latest", rfl, by decide, .inr rfl⟩
  have images := (made_exactly_of_acceptable streamSettings .epoch []).1 scratchRequest
  rcases images.1.2 acceptable with ⟨params, done⟩
  exact ⟨params, done, images.2.2 params done⟩

end ContainerBuild
