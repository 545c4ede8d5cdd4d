import ContainerBuild.Proofs.Outcomes
import ContainerBuild.Proofs.Params.Emission

namespace ContainerBuild

/-!
# Parameters survive being emitted

Parameters that were loaded, or made from a request, have a build ID that is one as it stands
(`Params.Obtained.named`) and generic values that leave room for the object around them
(`Params.Obtained.fits`).  So their payload loads if its numbers last, and what comes back are the
parameters in normal form, with generic values sorted (`Params.emit_faithful`).
-/

open Json (ofOption ofNat ofStrings ofTexts)

/-! ## Generic values -/

/-- The generic value among shared parameters, if there is one. -/
def SharedParams.generic (params : SharedParams) : List Json := params.reactorConfigOverride.toList

/-- The generic values among the parameters of an image build.  The remote sources are one
value, an array. -/
def ImageParams.generic (params : ImageParams) : List Json :=
  params.shared.generic ++ params.parentImagesDigests.toList ++
    (params.remoteSources.map Json.array).toList

/-- The generic values among parameters. -/
def Params.generic : Params → List Json
  | .image params => params.generic
  | .sources params => params.shared.generic

section Within

variable {levels : Nat}

theorem within_ofOption {α : Type} {write : α → Json} {value : Option α}
    (each : ∀ x ∈ value, (write x).Within levels) : (ofOption write value).Within levels := by
  cases value with
  | none => exact ⟨trivial, Nat.zero_le _⟩
  | some x => exact each x rfl

theorem within_text (text : String) : (Json.string text).Within levels :=
  ⟨trivial, Nat.zero_le _⟩

theorem within_truth (flag : Bool) : (Json.bool flag).Within levels :=
  ⟨trivial, Nat.zero_le _⟩

theorem within_ofNat {number : Nat} (bound : number < UInt64.size) :
    (ofNat number).Within levels := by
  have size : UInt64.size = 0x10000000000000000 := rfl
  exact ⟨⟨by omega, by omega⟩, Nat.zero_le _⟩

theorem within_word (number : UInt64) : (ofNat number.toNat).Within levels :=
  within_ofNat number.toNat_lt

theorem within_halfWord (number : UInt32) : (ofNat number.toNat).Within levels := by
  have bound : number.toNat < UInt32.size := number.toNat_lt
  have sizes : UInt32.size < UInt64.size := by decide
  exact within_ofNat (bound.trans sizes)

theorem within_texts (texts : List String) : (ofStrings texts).Within (levels + 1) := by
  refine Json.within_array fun item here => ?_
  rcases List.mem_map.1 here with ⟨text, -, rfl⟩
  exact within_text text

theorem within_words (numbers : List UInt64) :
    (Json.array (numbers.map (ofNat ·.toNat))).Within (levels + 1) := by
  refine Json.within_array fun item here => ?_
  rcases List.mem_map.1 here with ⟨number, -, rfl⟩
  exact within_word number

theorem within_dict (texts : Dict String String) : (ofTexts texts).Within (levels + 1) := by
  refine ⟨Json.Codec.texts.wellFormed trivial,
    Nat.succ_le_succ (Json.depthOfMembers_le_iff.2 fun member here => ?_)⟩
  rcases List.mem_map.1 here with ⟨entry, -, rfl⟩
  exact Nat.zero_le _

end Within

namespace SharedParams

theorem within_toMembers {levels : Nat} {params : SharedParams}
    (generic : ∀ value ∈ params.generic, value.Within levels) :
    ∀ member ∈ params.toMembers, member.2.Within levels := by
  have text (value : Option String) : (ofOption .string value).Within levels :=
    within_ofOption fun text _ => within_text text
  have halfWord (value : Option UInt32) : (ofOption (ofNat ·.toNat) value).Within levels :=
    within_ofOption fun number _ => within_halfWord number
  simp only [toMembers, List.forall_mem_cons]
  exact ⟨halfWord _, text _, text _, within_truth _, text _, text _, text _, text _,
    within_ofOption fun number _ => within_word number, text _, halfWord _, text _,
    within_ofOption fun value here => generic value (Option.mem_toList.2 here),
    within_ofOption fun flag _ => within_truth flag, text _, text _, halfWord _,
    List.forall_mem_nil _⟩

end SharedParams

theorem SourcesParams.within_toMembers {levels : Nat} {params : SourcesParams}
    (generic : ∀ value ∈ params.shared.generic, value.Within levels) :
    ∀ member ∈ params.toMembers, member.2.Within levels := by
  simp only [toMembers, List.forall_mem_append, List.forall_mem_cons]
  exact ⟨SharedParams.within_toMembers generic, within_ofOption fun text _ => within_text text,
    within_ofOption fun number _ => within_word number, List.forall_mem_nil _⟩

theorem ImageParams.within_toMembers {levels : Nat} {params : ImageParams}
    (generic : ∀ value ∈ params.generic, value.Within (levels + 1)) :
    ∀ member ∈ params.toMembers, member.2.Within (levels + 1) := by
  have text (value : Option String) : (ofOption .string value).Within (levels + 1) :=
    within_ofOption fun text _ => within_text text
  have truth (value : Option Bool) : (ofOption .bool value).Within (levels + 1) :=
    within_ofOption fun flag _ => within_truth flag
  have texts (value : Option (List String)) : (ofOption ofStrings value).Within (levels + 1) :=
    within_ofOption fun texts _ => within_texts texts
  have word (value : Option UInt64) : (ofOption (ofNat ·.toNat) value).Within (levels + 1) :=
    within_ofOption fun number _ => within_word number
  simp only [ImageParams.generic, List.forall_mem_append] at generic
  simp only [toMembers, List.forall_mem_append, List.forall_mem_cons]
  exact ⟨SharedParams.within_toMembers generic.1.1, texts _, text _,
    within_ofOption fun type _ => within_text type.name,
    within_ofOption fun numbers _ => within_words numbers, text _, texts _, word _,
    within_truth _, text _, within_ofOption fun number _ => within_halfWord number, text _, text _,
    text _, within_truth _, truth _, truth _, text _, text _, text _,
    within_ofOption fun dict _ => within_dict dict, text _, text _,
    within_ofOption fun value here => generic.1.2 value (Option.mem_toList.2 here), texts _, text _,
    within_ofOption fun items here =>
      generic.2 _ (Option.mem_toList.2 (Option.mem_map_of_mem _ here)),
    truth _, truth _, text _, word _, texts _, List.forall_mem_nil _⟩

/-- Parameters whose generic values leave room for the object around them fit. -/
theorem Params.fits_of_generic {params : Params}
    (generic : ∀ value ∈ params.generic, value.Within (Json.Tree.levelLimit - 1)) :
    params.Fits := by
  cases params with
  | image params => exact ImageParams.within_toMembers generic
  | sources params => exact SourcesParams.within_toMembers generic

/-! ## Where parameters come from -/

/-- How a program comes by parameters: it loads them, or makes them from a request whose generic
values leave room for the object around them. -/
inductive Params.Obtained : Params → Prop
  | loaded {text : String} {params : Params} (load : Params.load text = .ok params) :
      Obtained params
  | image {request : ImageRequest} {settings : Settings} {instant : Instant}
      {draws : List UInt32} {params : ImageParams}
      (made : ImageParams.make request settings instant draws = .ok params)
      (room : ∀ value ∈ params.generic, value.Within (Json.Tree.levelLimit - 1)) :
      Obtained (.image params)
  | sources {request : SourcesRequest} {settings : Settings} {instant : Instant}
      {draws : List UInt32} {params : SourcesParams}
      (made : SourcesParams.make request settings instant draws = .ok params)
      (room : ∀ value ∈ params.shared.generic, value.Within (Json.Tree.levelLimit - 1)) :
      Obtained (.sources params)

/-- A build ID that is made is one as it stands. -/
theorem ImageParams.named_of_make {request : ImageRequest} {settings : Settings}
    {instant : Instant} {draws : List UInt32} {params : ImageParams}
    (made : make request settings instant draws = .ok params) :
    ∀ name ∈ params.name, BuildId.check name = .ok name := by
  rw [make] at made
  rcases Except.bind_ok_iff.1 made with ⟨gitUri, -, made⟩
  rcases Except.bind_ok_iff.1 made with ⟨_, -, made⟩
  rcases Except.bind_ok_iff.1 made with ⟨nameLabel, -, made⟩
  rcases Except.bind_ok_iff.1 made with ⟨_, -, made⟩
  rcases Except.bind_ok_iff.1 made with ⟨shared, -, made⟩
  rcases Except.bind_ok_iff.1 made with ⟨named, setName, made⟩
  rcases Except.bind_ok_iff.1 made with ⟨_, -, made⟩
  rw [← Except.ok.inj made]
  exact named_of_setName setName

section Loaded

variable {members : Members Json} {levels : Nat}

/-- What a field is read from is as deep as what would be written for it. -/
theorem within_of_asked {α : Type} {read : Json → Except Json.Fault α} {write : α → Json}
    (inverse : ∀ {value x}, read value = .ok x → value = write x)
    (within : ∀ member ∈ members, member.2.Within levels) {name : String} {x? : Option α}
    (asked : members.optionalField name read = .found x?) :
    ∀ x ∈ x?, (write x).Within levels := by
  rintro x rfl
  rcases Json.defaulted_found_iff.1 asked with ⟨-, none⟩ | ⟨other, found, read⟩
  · cases none
  · rcases Json.orNull_ok_iff.1 read with ⟨-, none⟩ | ⟨-, y, done, same⟩
    · cases none
    · rw [Option.some.inj same, ← inverse done]
      exact within _ (Members.mem_of_lookup_eq_some found)

theorem within_of_askedAny (within : ∀ member ∈ members, member.2.Within levels) {name : String}
    {value? : Option Json} (asked : members.optionalField name Json.asAny = .found value?) :
    ∀ value ∈ value?, value.Within levels :=
  within_of_asked (fun read => Except.ok.inj read) within asked

theorem within_of_askedArray (within : ∀ member ∈ members, member.2.Within levels)
    {name : String} {items? : Option (List Json)}
    (asked : members.optionalField name Json.asArray = .found items?) :
    ∀ items ∈ items?, (Json.array items).Within levels := by
  refine within_of_asked (fun {value items} read => ?_) within asked
  cases value with
  | array others => rw [Except.ok.inj read]
  | _ => cases read

theorem SharedParams.within_of_ask {params : SharedParams}
    (within : ∀ member ∈ members, member.2.Within levels) (asked : ask members = .found params) :
    ∀ value ∈ params.generic, value.Within levels := by
  simp only [ask, Json.Answer.seq_found_iff, Json.Answer.map_found_iff] at asked
  repeat rcases asked with ⟨_, _, asked, _, rfl⟩
  exact fun value here =>
    within_of_askedAny within (by assumption) value (Option.mem_toList.1 here)

theorem ImageParams.within_of_ask {make : SharedParams → ImageParams}
    (within : ∀ member ∈ members, member.2.Within levels) (asked : ask members = .found make)
    (shared : SharedParams) : (make shared).shared = shared ∧
      (∀ value ∈ (make shared).parentImagesDigests, value.Within levels) ∧
      ∀ items ∈ (make shared).remoteSources, (Json.array items).Within levels := by
  simp only [ask, Json.Answer.seq_found_iff, Json.Answer.map_found_iff] at asked
  repeat rcases asked with ⟨_, _, asked, _, rfl⟩
  exact ⟨rfl, within_of_askedAny within (by assumption),
    within_of_askedArray within (by assumption)⟩

theorem ImageParams.within_of_ofMembers {params : ImageParams}
    (within : ∀ member ∈ members, member.2.Within levels)
    (read : ofMembers members = .ok params) : ∀ value ∈ params.generic, value.Within levels := by
  rcases ofMembers_ok_iff.1 read with ⟨make, shared, asked, sharedAsked, checked⟩
  have generic : params.generic = (make shared).generic := by
    rw [(checkName_ok checked).1]
    rfl
  rcases within_of_ask within asked shared with ⟨sameShared, digests, sources⟩
  rw [generic, ImageParams.generic, sameShared]
  simp only [List.forall_mem_append]
  refine ⟨⟨SharedParams.within_of_ask within sharedAsked,
    fun value here => digests value (Option.mem_toList.1 here)⟩, fun value here => ?_⟩
  rcases Option.mem_map.1 (Option.mem_toList.1 here) with ⟨items, present, rfl⟩
  exact sources items present

theorem SourcesParams.within_of_ofMembers {params : SourcesParams}
    (within : ∀ member ∈ members, member.2.Within levels)
    (read : ofMembers members = .ok params) :
    ∀ value ∈ params.shared.generic, value.Within levels := by
  rcases ofMembers_ok_iff.1 read with ⟨make, shared, asked, sharedAsked, rfl⟩
  have sameShared : (make shared).shared = shared := by
    simp only [ask, Json.Answer.seq_found_iff, Json.Answer.map_found_iff] at asked
    repeat rcases asked with ⟨_, _, asked, _, rfl⟩
    rfl
  rw [sameShared]
  exact SharedParams.within_of_ask within sharedAsked

end Loaded

namespace Params

/-- What loading comes to: parameters about which nothing is said, or those of an object. -/
theorem load_ok {text : String} {params : Params} (loaded : load text = .ok params) :
    params = .image .default ∨ ∃ members, Json.parse text = .ok (.object members) ∧
      ofMembers members = .ok params := by
  rw [load] at loaded
  split at loaded
  · exact .inl (Except.ok.inj loaded).symm
  · cases parsed : Json.parse text with
    | error fault =>
        rw [parsed] at loaded
        cases loaded
    | ok value =>
        rw [parsed] at loaded
        cases value with
        | object members => exact .inr ⟨members, rfl, loaded⟩
        | _ => cases loaded

theorem ofMembers_ok {members : Members Json} {params : Params}
    (read : ofMembers members = .ok params) :
    (∃ image, params = .image image ∧
      ImageParams.ofMembers (Members.takeOut kindKey members) = .ok image) ∨
    ∃ sources, params = .sources sources ∧
      SourcesParams.ofMembers (Members.takeOut kindKey members) = .ok sources := by
  rw [ofMembers] at read
  rcases Except.bind_ok_iff.1 read with ⟨kind, -, read⟩
  split at read
  · rcases Except.bind_ok_iff.1 read with ⟨image, done, same⟩
    exact .inl ⟨image, (Except.ok.inj same).symm, done⟩
  · split at read
    · rcases Except.bind_ok_iff.1 read with ⟨sources, done, same⟩
      exact .inr ⟨sources, (Except.ok.inj same).symm, done⟩
    · cases read

theorem named_default : (Params.image .default).Named := fun _ none => nomatch none

theorem Obtained.named {params : Params} (obtained : params.Obtained) : params.Named := by
  cases obtained with
  | loaded load =>
      rcases load_ok load with rfl | ⟨members, -, read⟩
      · exact named_default
      · rcases ofMembers_ok read with ⟨image, rfl, done⟩ | ⟨sources, rfl, -⟩
        · rcases ImageParams.ofMembers_ok_iff.1 done with ⟨make, shared, -, -, checked⟩
          exact (ImageParams.checkName_ok checked).2
        · trivial
  | image made => exact ImageParams.named_of_make made
  | sources => trivial

theorem within_takeOut_kindKey {members : Members Json} {levels : Nat}
    (within : (Json.object members).Within (levels + 1)) :
    ∀ member ∈ Members.takeOut kindKey members, member.2.Within levels := by
  intro member here
  exact within.member member
    (List.mem_of_mem_filter ((Members.takeOut_perm within.1.1).mem_iff.1 here))

theorem Obtained.room {params : Params} (obtained : params.Obtained) :
    ∀ value ∈ params.generic, value.Within (Json.Tree.levelLimit - 1) := by
  cases obtained with
  | loaded load =>
      rcases load_ok load with rfl | ⟨members, parsed, read⟩
      · exact fun value none => nomatch none
      · have within := within_takeOut_kindKey (Json.within_of_parse parsed)
        rcases ofMembers_ok read with ⟨image, rfl, done⟩ | ⟨sources, rfl, done⟩
        · exact ImageParams.within_of_ofMembers within done
        · exact SourcesParams.within_of_ofMembers within done
  | image made room => exact room
  | sources made room => exact room

theorem Obtained.fits {params : Params} (obtained : params.Obtained) : params.Fits :=
  fits_of_generic obtained.room

end Params

/-! ## Equality of what parameters say -/

theorem Json.sortedMembers_congr {members others : Members Json}
    (same : members.map sortWithin = others.map sortWithin) :
    sortedMembers members = sortedMembers others := by
  induction members generalizing others with
  | nil => rw [List.map_eq_nil_iff.1 same.symm]
  | cons member rest inductionHypothesis =>
      cases others with
      | nil => cases same
      | cons other others =>
          rcases member with ⟨name, value⟩
          rcases other with ⟨otherName, otherValue⟩
          rw [List.map_cons, List.map_cons, List.cons.injEq, sortWithin, sortWithin] at same
          rw [sortedMembers, sortedMembers, inductionHypothesis same.2, same.1]

theorem sortMembers_ofOption_map {α : Type} {write : α → Json} {change : α → α} {value : Option α}
    (same : ∀ x ∈ value, (write (change x)).sortMembers = (write x).sortMembers) :
    (ofOption write (value.map change)).sortMembers = (ofOption write value).sortMembers := by
  cases value with
  | none => rfl
  | some x => exact same x rfl

theorem SharedParams.toMembers_ordered {params : SharedParams}
    (wellFormed : ∀ value ∈ params.generic, value.WellFormed) :
    params.ordered.toMembers.map Json.sortWithin = params.toMembers.map Json.sortWithin := by
  have override : (ofOption id (params.reactorConfigOverride.map Json.sortMembers)).sortMembers =
      (ofOption id params.reactorConfigOverride).sortMembers :=
    sortMembers_ofOption_map fun value here =>
      Json.sortMembers_sortMembers (wellFormed value (Option.mem_toList.2 here))
  simp only [toMembers, ordered, List.map_cons, List.map_nil, Json.sortWithin, override]

theorem ImageParams.toMembers_ordered {params : ImageParams}
    (wellFormed : ∀ value ∈ params.generic, value.WellFormed) :
    params.ordered.toMembers.map Json.sortWithin = params.toMembers.map Json.sortWithin := by
  simp only [ImageParams.generic, List.forall_mem_append] at wellFormed
  have shared := SharedParams.toMembers_ordered wellFormed.1.1
  have digests : (ofOption id (params.parentImagesDigests.map Json.sortMembers)).sortMembers =
      (ofOption id params.parentImagesDigests).sortMembers :=
    sortMembers_ofOption_map fun value here =>
      Json.sortMembers_sortMembers (wellFormed.1.2 value (Option.mem_toList.2 here))
  have sources : (ofOption Json.array (params.remoteSources.map Json.sortItems)).sortMembers =
      (ofOption Json.array params.remoteSources).sortMembers :=
    sortMembers_ofOption_map fun items here => Json.sortMembers_sortMembers
      (wellFormed.2 (.array items) (Option.mem_toList.2 (Option.mem_map_of_mem _ here)))
  simp only [toMembers, ordered, List.map_append, shared, List.map_cons, List.map_nil,
    Json.sortWithin, digests, sources]

theorem Params.toMembers_ordered {params : Params}
    (wellFormed : ∀ value ∈ params.generic, value.WellFormed) :
    params.ordered.toMembers.map Json.sortWithin = params.toMembers.map Json.sortWithin := by
  cases params with
  | image params => exact ImageParams.toMembers_ordered wellFormed
  | sources params =>
      have shared := SharedParams.toMembers_ordered wellFormed
      simp only [toMembers, ordered, SourcesParams.toMembers, SourcesParams.ordered,
        List.map_append, shared]

namespace Params

theorem wellFormed_toMembers {params : Params}
    (room : ∀ value ∈ params.generic, value.Within (Json.Tree.levelLimit - 1)) :
    (Json.object params.toMembers).WellFormed :=
  ⟨params.nodup_names_toMembers, Json.wellFormedMembers_iff.2 fun member here =>
    (fits_of_generic room member here).1⟩

/-- Sorting within generic values leaves alone what parameters say. -/
theorem sameValue_ordered {params : Params}
    (room : ∀ value ∈ params.generic, value.Within (Json.Tree.levelLimit - 1)) :
    params.ordered.sameValue params = true := by
  have sorted : (Json.object params.toMembers).sortMembers =
      (Json.object params.ordered.toMembers).sortMembers := by
    rw [Json.sortMembers, Json.sortMembers, Json.sortedMembers_congr
      (toMembers_ordered fun value here => (room value here).1)]
  have orderedWellFormed :=
    Json.wellFormed_of_reorders (Json.reorders_of_sortMembers_eq sorted) (wellFormed_toMembers room)
  have members := Json.sameValue_of_reorders (Json.reorders_of_sortMembers_eq sorted.symm)
    orderedWellFormed
  have kind : params.ordered.kind = params.kind := by cases params <;> rfl
  have selectors : params.ordered.selectors = params.selectors := by cases params <;> rfl
  rw [sameValue, members, kind, selectors, beq_self_eq_true, beq_self_eq_true]
  rfl

/-- The normal form has no generic values but those that were there. -/
theorem mem_generic_of_mem_generic_normal {params : Params} {value : Json}
    (here : value ∈ params.normal.generic) : value ∈ params.generic := by
  have shared {params : SharedParams} (here : value ∈ params.normal.generic) :
      value ∈ params.generic :=
    Option.mem_toList.2 (mem_of_mem_said (Option.mem_toList.1 here))
  cases params with
  | image params =>
      rcases List.mem_append.1 here with others | sources
      · refine List.mem_append_left _ ?_
        rcases List.mem_append.1 others with inShared | digests
        · exact List.mem_append_left _ (shared inShared)
        · refine List.mem_append_right _ (Option.mem_toList.2 ?_)
          exact mem_of_mem_said (Option.mem_toList.1 digests)
      · refine List.mem_append_right _ (Option.mem_toList.2 ?_)
        rcases Option.mem_map.1 (Option.mem_toList.1 sources) with ⟨items, present, rfl⟩
        exact Option.mem_map_of_mem _ (mem_of_mem_said present)
  | sources params => exact shared here

/-! ## What is emitted and what comes back -/

/-- What holds of the payload of parameters, and of loading it. -/
structure Faithful (params : Params) : Prop where
  /-- The payload is an object: its names ascend, the kind is among them once and says what kind
  of parameters they are, every value says something, and no node selector is named. -/
  object : ∃ members : Members Json, params.emit = (Json.object members).spaced ∧
    (Json.object members).Sorted ∧ members.names.Pairwise (· < ·) ∧
    members.names.count kindKey = 1 ∧ (kindKey, Json.string params.kind) ∈ members ∧
    (∀ member ∈ members, member.2.isTruthy = true) ∧
    (∀ name ∈ ImageParams.selectorNames, name ∉ members.names) ∧
    (params.payload.Durable → Json.parse params.emit = .ok (.object members))
  /-- Loading the payload succeeds if its numbers last, with the normal form up to the order in
  generic values. -/
  load : params.payload.Durable → load params.emit = .ok params.normal.ordered
  /-- What is loaded equals the normal form. -/
  same : params.normal.ordered.sameValue params.normal = true
  /-- Each member of the normal form is as it was if it says something, and otherwise that of
  parameters about which nothing is said. -/
  members : params.normal.toMembers =
    List.zipWith saidMember params.toMembers params.defaults.toMembers
  /-- So every member that says something survives. -/
  kept : ∀ member ∈ params.toMembers, member.2.isTruthy = true → member ∈ params.normal.toMembers
  /-- The normal form is of the same kind. -/
  kind : params.normal.kind = params.kind
  /-- The normal form selects no nodes. -/
  selectors : ∀ selector ∈ params.normal.selectors, selector = none

/-- Parameters that a program comes by survive being emitted and loaded. -/
theorem emit_faithful {params : Params} (obtained : params.Obtained) : params.Faithful where
  object := by
    have sorted := Json.sorted_sortMembers (within_payload obtained.fits).1
    refine ⟨params.emitted, params.emit_eq, sorted, sorted.1, ?_, params.kind_mem_emitted,
      params.isTruthy_of_mem_emitted, params.selector_notMem_emitted, parse_emit obtained.fits⟩
    exact List.count_eq_one_of_mem params.nodup_names_emitted
      (List.mem_map.2 ⟨_, params.kind_mem_emitted, rfl⟩)
  load := load_emit obtained.named obtained.fits
  same := sameValue_ordered fun value here =>
    obtained.room value (mem_generic_of_mem_generic_normal here)
  members := params.toMembers_normal
  kept := by
    intro member here truthy
    have length := congrArg List.length params.names_toMembers
    rw [Members.names, Members.names, List.length_map, List.length_map] at length
    rw [toMembers_normal]
    exact mem_zipWith_saidMember length here truthy
  kind := by cases params <;> rfl
  selectors := by
    cases params <;> simp [selectors, normal, ImageParams.normal]

/-- A payload of which many members say nothing. -/
def sayingLittle : String :=
  "\x7b\"name\": \"b-1\", \"user\": \"\", \"git_ref\": \"\", \"arrangement_version\": 0, " ++
    "\"platform_node_selector\": \x7b\"arch\": \"s390x\"\x7d, " ++
    "\"reactor_config_override\": \x7b\"b\": false, \"a\": []\x7d\x7d"

/-- What of it is emitted. -/
def whatItSays : String :=
  "\x7b\"customize_conf\": \"prod_customize.json\", \"kind\": \"build_user_params\", " ++
    "\"name\": \"b-1\", \"reactor_config_override\": \x7b\"a\": [], \"b\": false\x7d\x7d"

theorem emit_faithful_sayingLittle : ∃ params, Params.load sayingLittle = .ok params ∧
    params.payload.Durable ∧ params.Faithful ∧ params.emit = whatItSays := by
  have evaluated : (Params.load sayingLittle).toOption.any (fun params =>
      params.payload.Durable ∧ params.emit = whatItSays) = true := by
    decide +kernel
  rcases Except.exists_ok_of_any evaluated with ⟨params, loaded, known⟩
  have facts := of_decide_eq_true known
  exact ⟨params, loaded, facts.1, emit_faithful (.loaded loaded), facts.2⟩

/-- A payload with a number that does not last. -/
def overridingUnsteadily : String := "\x7b\"reactor_config_override\": 5e32\x7d"

/-- Parameters of such a payload are loaded as others once they are emitted. -/
theorem emit_unsteady : ∃ params loaded, Params.load overridingUnsteadily = .ok params ∧
    Params.load params.emit = .ok loaded ∧ loaded.sameValue params.normal = false := by
  have evaluated : (Params.load overridingUnsteadily).toOption.any (fun params =>
      (Params.load params.emit).toOption.any fun loaded =>
        loaded.sameValue params.normal = false) = true := by
    decide +kernel
  rcases Except.exists_ok_of_any evaluated with ⟨params, first, emitted⟩
  rcases Except.exists_ok_of_any emitted with ⟨loaded, second, differs⟩
  exact ⟨params, loaded, first, second, of_decide_eq_true differs⟩

end Params

end ContainerBuild
