import ContainerBuild.Proofs.Json.Agreement
import ContainerBuild.Proofs.Params.Settling

namespace ContainerBuild

/-!
# Payloads with other members, or the same ones in another order

Loading asks for members by name.  So neither the order of a payload's members nor what it has
under unknown names makes a difference to the parameters (`Params.load_rearranged`).  Which names
are known depends on the kind that the payload says it has.

Members within a generic value are kept in their order, and so another order there shows in the
parameters; `Params.mapGeneric` says how (`Params.related_ofMembers`).
-/

open Json (Corresponds Rearrangement Reorders)

/-! ## Generic values -/

/-- Change the generic value among shared parameters. -/
def SharedParams.mapGeneric (change : Json → Json) (params : SharedParams) : SharedParams :=
  { params with reactorConfigOverride := params.reactorConfigOverride.map change }

/-- Change the generic values among the parameters of an image build. -/
def ImageParams.mapGeneric (change : Json → Json) (params : ImageParams) : ImageParams :=
  { params with
    shared := params.shared.mapGeneric change
    parentImagesDigests := params.parentImagesDigests.map change
    remoteSources := params.remoteSources.map (List.map change) }

/-- Change the generic value among the parameters of a source container build. -/
def SourcesParams.mapGeneric (change : Json → Json) (params : SourcesParams) : SourcesParams :=
  { params with shared := params.shared.mapGeneric change }

/-- Change the generic values among parameters. -/
def Params.mapGeneric (change : Json → Json) : Params → Params
  | .image params => .image (params.mapGeneric change)
  | .sources params => .sources (params.mapGeneric change)

theorem Params.mapGeneric_id (params : Params) : params.mapGeneric id = params := by
  cases params with
  | image params =>
      rw [mapGeneric, ImageParams.mapGeneric, SharedParams.mapGeneric, List.map_id_fun,
        Option.map_id, Option.map_id]
      rfl
  | sources params =>
      rw [mapGeneric, SourcesParams.mapGeneric, SharedParams.mapGeneric, Option.map_id]
      rfl

theorem Params.mapGeneric_sortMembers (params : Params) :
    params.mapGeneric Json.sortMembers = params.ordered := by
  have items : List.map Json.sortMembers = Json.sortItems := by
    funext items
    exact (Json.sortItems_eq_map items).symm
  cases params with
  | image params =>
      rw [mapGeneric, ImageParams.mapGeneric, items]
      rfl
  | sources params => rfl

/-! ## Asking for fields -/

/-- The names of the shared parameters. -/
def SharedParams.fieldNames : List String := SharedParams.default.toMembers.names

/-- The names of the parameters of an image build, the node selectors among them. -/
def ImageParams.fieldNames : List String :=
  ImageParams.default.toMembers.names ++ selectorNames

/-- The names of the parameters of a source container build. -/
def SourcesParams.fieldNames : List String := SourcesParams.default.toMembers.names

instance BuildType.steady_ofJson : Json.Steady BuildType.ofJson := by
  refine Json.steady_of_eq fun {value other} reorders => ?_
  cases reorders with
  | same => rfl
  | array => rfl
  | @object members shuffled others each shuffle =>
      have length : members.length = others.length := by
        rw [← shuffle.length_eq, ← List.length_map Prod.fst, ← each.names, List.length_map]
      match members, others, length with
      | [], [], _ => rfl
      | [(name, value)], [(other, value')], _ =>
          cases each with
          | cons _ head tail =>
              cases tail
              cases List.perm_singleton.1 shuffle.symm
              rw [ofJson, ofJson, head.isNull]
      | _ :: _ :: _, _ :: _ :: _, _ => rfl

section Ask

variable {change : Json → Json} {members others : Members Json}

-- The fields are gone through from the last to the first; those with generic values are apart.
theorem SharedParams.related_ask (corresponds : Corresponds change fieldNames members others) :
    Json.Answer.Related (fun params params' => params' = params.mapGeneric change)
      (ask members) (ask others) := by
  rw [ask, ask]
  repeat refine .seq ?_ (corresponds.steady (by decide +kernel) _)
  refine .seq ?_ (corresponds.generic (by decide +kernel) fun _ => rfl)
  repeat refine .seq ?_ (corresponds.steady (by decide +kernel) _)
  refine .map ?_ (corresponds.steady (by decide +kernel) _)
  repeat rintro _ _ rfl
  rfl

theorem ImageParams.related_ask (corresponds : Corresponds change fieldNames members others) :
    Json.Answer.Related (fun make make' => ∀ shared : SharedParams,
        make' (shared.mapGeneric change) = (make shared).mapGeneric change)
      (ask members) (ask others) := by
  rw [ask, ask]
  repeat refine .seq ?_ (corresponds.steady (by decide +kernel) _)
  refine .seq ?_ (corresponds.generic (by decide +kernel) corresponds.rearrangement.asArray)
  repeat refine .seq ?_ (corresponds.steady (by decide +kernel) _)
  refine .seq ?_ (corresponds.generic (by decide +kernel) fun _ => rfl)
  repeat refine .seq ?_ (corresponds.steady (by decide +kernel) _)
  refine .map ?_ (corresponds.steady (by decide +kernel) _)
  repeat rintro _ _ rfl
  exact fun _ => rfl

theorem SourcesParams.related_ask (corresponds : Corresponds change fieldNames members others) :
    Json.Answer.Related (fun make make' => ∀ shared : SharedParams,
        make' (shared.mapGeneric change) = (make shared).mapGeneric change)
      (ask members) (ask others) := by
  rw [ask, ask]
  refine .seq ?_ (corresponds.steady (by decide +kernel) _)
  refine .map ?_ (corresponds.steady (by decide +kernel) _)
  repeat rintro _ _ rfl
  exact fun _ => rfl

end Ask

/-! ## Reading members -/

/-- Errors that differ at most in which of several faults of a payload they tell, or in how they
write a kind that is no kind. -/
def ParamsError.Alike : ParamsError → ParamsError → Prop
  | .unreadable (.invalid _), .unreadable (.invalid _) => True
  | .unknownKind _, .unknownKind _ => True
  | first, second => first = second

theorem ParamsError.Alike.refl (error : ParamsError) : Alike error error := by
  unfold Alike
  split <;> trivial

section Read

variable {change : Json → Json} {members others : Members Json}

/-- Answers that are settled, with their faults told as those of a payload. -/
theorem related_settle {α β : Type} {relation : α → β → Prop} {first : Json.Answer α}
    {second : Json.Answer β} (related : Json.Answer.Related relation first second) :
    Except.Related relation ParamsError.Alike
      (first.settle.mapError fun fault => ParamsError.unreadable (.invalid fault))
      (second.settle.mapError fun fault => ParamsError.unreadable (.invalid fault)) :=
  related.settle.mapError fun _ _ _ => trivial

theorem ImageParams.checkName_mapGeneric (params : ImageParams) :
    (params.mapGeneric change).checkName = params.checkName.map (mapGeneric change) := by
  rcases params with ⟨⟩
  rw [checkName, checkName, mapGeneric]
  split
  next name found =>
    cases found
    simp only [setName]
    cases BuildId.check name <;> rfl
  next found =>
    cases found
    rfl

theorem ImageParams.related_ofMembers
    (corresponds : Corresponds change fieldNames members others) :
    Except.Related (fun params params' => params' = params.mapGeneric change) ParamsError.Alike
      (ofMembers members) (ofMembers others) := by
  rw [ofMembers, ofMembers]
  refine (related_settle (related_ask corresponds)).bind fun make make' makeAlike => ?_
  refine (related_settle (SharedParams.related_ask (corresponds.mono ?_))).bind ?_
  · exact List.subset_append_of_subset_left _ (List.subset_append_left _ _)
  rintro shared _ rfl
  change Except.Related _ _ (make shared).checkName (make' (shared.mapGeneric change)).checkName
  rw [makeAlike, checkName_mapGeneric]
  exact .of_map _ ParamsError.Alike.refl

theorem SourcesParams.related_ofMembers
    (corresponds : Corresponds change fieldNames members others) :
    Except.Related (fun params params' => params' = params.mapGeneric change) ParamsError.Alike
      (ofMembers members) (ofMembers others) := by
  rw [ofMembers, ofMembers]
  refine (related_settle (related_ask corresponds)).bind fun make make' makeAlike => ?_
  refine (related_settle (SharedParams.related_ask
    (corresponds.mono (List.subset_append_left _ _)))).bind ?_
  rintro shared _ rfl
  exact .ok (makeAlike shared)

namespace Params

/-- The names of the parameters of a kind. -/
def fieldNames (kind : String) : List String :=
  if kind = ImageParams.kind then ImageParams.fieldNames
  else if kind = SourcesParams.kind then SourcesParams.fieldNames
  else []

/-- The names that a payload is asked for: the one of its kind, and those of the parameters of
the kind that it says it has. -/
def knownNames (members : Members Json) : List String :=
  kindKey :: match kindOf members with
    | .ok kind => fieldNames kind
    | .error _ => []

theorem related_kindOf (corresponds : Corresponds change (knownNames members) members others) :
    Except.Related Eq ParamsError.Alike (kindOf members) (kindOf others) := by
  have lookup := corresponds.lookup kindKey List.mem_cons_self
  rw [kindOf, kindOf, lookup]
  cases found : members.lookup kindKey with
  | none => exact .ok rfl
  | some value =>
      have reorders := corresponds.rearrangement.reorders (corresponds.wellFormed_of_found found)
      rw [Option.map_some]
      revert reorders
      generalize change value = other
      rintro ⟨⟩
      case same =>
        cases value with
        | string kind => exact .ok rfl
        | _ => exact .error trivial
      case array => exact .error trivial
      case object => exact .error trivial

theorem related_ofMembers (corresponds : Corresponds change (knownNames members) members others)
    (distinct : members.names.Nodup) (othersDistinct : others.names.Nodup) :
    Except.Related (fun params params' => params' = params.mapGeneric change) ParamsError.Alike
      (ofMembers members) (ofMembers others) := by
  rw [ofMembers, ofMembers]
  refine (related_kindOf corresponds).obtained.bind ?_
  rintro kind _ ⟨known, rfl⟩
  have fields : knownNames members = kindKey :: fieldNames kind := by rw [knownNames, known]
  have rest := (corresponds.takeOut distinct othersDistinct kindKey).mono
    (fields ▸ List.subset_cons_self _ _)
  rw [fieldNames] at rest
  by_cases image : kind = ImageParams.kind
  · rw [if_pos image] at rest ⊢
    rw [if_pos image]
    refine (ImageParams.related_ofMembers rest).bind ?_
    rintro params _ rfl
    exact .ok rfl
  rw [if_neg image] at rest ⊢
  rw [if_neg image]
  by_cases sources : kind = SourcesParams.kind
  · rw [if_pos sources] at rest ⊢
    rw [if_pos sources]
    refine (SourcesParams.related_ofMembers rest).bind ?_
    rintro params _ rfl
    exact .ok rfl
  · rw [if_neg sources, if_neg sources]
    exact .error trivial

end Params
end Read

/-! ## Payloads that load alike -/

namespace Params

/-- Under some names, other members are the same, perhaps in another order. -/
def Rearranged (names : List String) (members others : Members Json) : Prop :=
  (members.filter fun member => names.contains member.1).Perm
    (others.filter fun member => names.contains member.1)

theorem Rearranged.lookup {names : List String} {members others : Members Json}
    (rearranged : Rearranged names members others) (distinct : members.names.Nodup)
    (othersDistinct : others.names.Nodup) {name : String} (known : name ∈ names) :
    others.lookup name = members.lookup name := by
  refine Option.ext fun value => ?_
  have same := rearranged.mem_iff (a := (name, value))
  simp only [List.mem_filter, List.contains_iff_mem, known, and_true] at same
  rw [Members.lookup_eq_some_iff_mem othersDistinct, Members.lookup_eq_some_iff_mem distinct, same]

/-- Two payloads come to the same parameters, and so to the same text when these are emitted, or
neither loads. -/
structure LoadAlike (text changed : String) : Prop where
  load_iff : ∀ params, load changed = .ok params ↔ load text = .ok params
  reemit_iff : ∀ emitted, reemit changed = .ok emitted ↔ reemit text = .ok emitted

/-- The order of members makes no difference to loading, nor do members of unknown names. -/
theorem load_rearranged {text : String} {members others : Members Json}
    (parsed : Json.parse text = .ok (.object members))
    (rearranged : Rearranged (knownNames members) members others) :
    (∀ changed, Json.parse changed = .ok (.object others) → LoadAlike text changed) ∧
      ((Json.object others).Within Json.Tree.levelLimit →
        ∀ spelled, Json.Spells (.object others) spelled →
          LoadAlike text (String.ofList spelled)) := by
  have wellFormed := (Json.within_of_parse parsed).1
  have alike (changed : String) (changedParsed : Json.parse changed = .ok (.object others)) :
      LoadAlike text changed := by
    have othersDistinct := (Json.within_of_parse changedParsed).1.1
    have corresponds : Corresponds id (knownNames members) members others :=
      ⟨Json.rearrangement_id, wellFormed.2, fun name known => by
        rw [rearranged.lookup wellFormed.1 othersDistinct known, Option.map_id_fun, id]⟩
    have related : Except.Related (fun params params' => params' = params.mapGeneric id)
        ParamsError.Alike (load text) (load changed) := by
      rw [load_eq_ofValue parsed, load_eq_ofValue changedParsed]
      exact related_ofMembers corresponds wellFormed.1 othersDistinct
    have emitted : Except.Related (fun payload payload' => payload' = payload) ParamsError.Alike
        (reemit text) (reemit changed) :=
      related.map fun params _ same => congrArg emit (same.trans params.mapGeneric_id)
    exact ⟨related.ok_iff fun params _ same => same.trans params.mapGeneric_id,
      emitted.ok_iff fun _ _ same => same⟩
  refine ⟨alike, fun within spelled spells => ?_⟩
  exact alike _ (Json.parse_of_spells spells within.1 within.2)

/-- A payload with a member that its kind does not name. -/
def withStranger : Members Json :=
  [("kind", .string SourcesParams.kind), ("user", .string "jose"),
    ("git_uri", .number (.integer 1)), ("sources_for_koji_build_id", .number (.integer 7))]

/-- The same payload with another such member, and in another order. -/
def withOtherStranger : Members Json :=
  [("sources_for_koji_build_id", .number (.integer 7)), ("zone", .array []),
    ("user", .string "jose"), ("kind", .string SourcesParams.kind)]

/-- What is emitted for either of them. -/
def withoutStranger : String :=
  "\x7b\"arrangement_version\": 6, \"kind\": \"source_containers_user_params\", " ++
    "\"sources_for_koji_build_id\": 7, \"user\": \"jose\"\x7d"

theorem load_rearranged_withOtherStranger :
    LoadAlike (Json.object withStranger).compact (Json.object withOtherStranger).compact ∧
      reemit (Json.object withStranger).compact = .ok withoutStranger := by
  have parsed : Json.parse (Json.object withStranger).compact = .ok (.object withStranger) := by
    decide +kernel
  have changed : Json.parse (Json.object withOtherStranger).compact =
      .ok (.object withOtherStranger) := by
    decide +kernel
  have rearranged : Rearranged (knownNames withStranger) withStranger withOtherStranger := by
    rw [Rearranged]
    decide +kernel
  exact ⟨(load_rearranged parsed rearranged).1 _ changed, by decide +kernel⟩

end Params

end ContainerBuild
