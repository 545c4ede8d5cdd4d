import ContainerBuild.Proofs.Params.Reloading

namespace ContainerBuild

/-!
# Emitting parameters again

Emitting leaves out what says nothing, and loading puts defaults in its place.  A few defaults say
something.  So a payload that was emitted without one of them is loaded and emitted with the
default in its place (`Params.reemit_emit`), and that payload is one that stays as it is
(`Params.reemit_emit_normal`).  Both ask for numbers that last.  Payloads of parameters that say
all of these stay as they are from the start, and no others do (`Params.emit_normal_eq_iff`).
-/

open Json (ofOption ofNat sortedMembers sortWithin)

/-! ## Members and their defaults -/

/-- A member says something if its default does. -/
def Covers (member default : String × Json) : Prop :=
  default.2.isTruthy = true → member.2.isTruthy = true

theorem filter_saidMember_of_covers {members defaults : Members Json}
    (covers : List.Forall₂ Covers members defaults) :
    (List.zipWith saidMember members defaults).filter (·.2.isTruthy) =
      members.filter (·.2.isTruthy) := by
  induction covers with
  | nil => rfl
  | @cons member default members defaults covered _ inductionHypothesis =>
      rw [List.zipWith_cons_cons, List.filter_cons, List.filter_cons, inductionHypothesis,
        saidMember]
      by_cases truthy : member.2.isTruthy = true
      · rw [if_pos truthy]
      · have falsy : ¬ default.2.isTruthy = true := mt covered truthy
        rw [if_neg truthy, if_neg falsy, if_neg truthy]

theorem length_filter_le_saidMember {members defaults : Members Json}
    (length : members.length = defaults.length) :
    (members.filter (·.2.isTruthy)).length ≤
      ((List.zipWith saidMember members defaults).filter (·.2.isTruthy)).length := by
  induction members generalizing defaults with
  | nil => exact Nat.zero_le _
  | cons member members inductionHypothesis =>
      cases defaults with
      | nil => cases length
      | cons default defaults =>
          have rest := inductionHypothesis (Nat.succ.inj length)
          rw [List.zipWith_cons_cons, List.filter_cons, List.filter_cons, saidMember]
          by_cases truthy : member.2.isTruthy = true
          · simpa only [if_pos truthy, List.length_cons, Nat.succ_le_succ_iff] using rest
          · rw [if_neg truthy, if_neg truthy]
            split
            · exact Nat.le_succ_of_le rest
            · exact rest

/-- A default that is put in makes for one more member. -/
theorem covers_of_length_filter {members defaults : Members Json}
    (length : members.length = defaults.length)
    (same : ((List.zipWith saidMember members defaults).filter (·.2.isTruthy)).length =
      (members.filter (·.2.isTruthy)).length) : List.Forall₂ Covers members defaults := by
  induction members generalizing defaults with
  | nil =>
      rw [List.length_eq_zero_iff.1 length.symm]
      exact .nil
  | cons member members inductionHypothesis =>
      cases defaults with
      | nil => cases length
      | cons default defaults =>
          have atLeast := length_filter_le_saidMember (Nat.succ.inj length)
          rw [List.zipWith_cons_cons, List.filter_cons, List.filter_cons, saidMember] at same
          by_cases truthy : member.2.isTruthy = true
          · simp only [if_pos truthy, List.length_cons, Nat.succ.injEq] at same
            exact .cons (fun _ => truthy) (inductionHypothesis (Nat.succ.inj length) same)
          · rw [if_neg truthy, if_neg truthy] at same
            split at same
            next =>
              rw [List.length_cons] at same
              omega
            next falsy =>
              exact .cons (fun default => absurd default falsy)
                (inductionHypothesis (Nat.succ.inj length) same)

/-- A default that is put in says what it said. -/
theorem covers_zipWith_saidMember {members defaults : Members Json}
    (length : members.length = defaults.length) :
    List.Forall₂ Covers (List.zipWith saidMember members defaults) defaults := by
  induction members generalizing defaults with
  | nil =>
      rw [List.length_eq_zero_iff.1 length.symm]
      exact .nil
  | cons member members inductionHypothesis =>
      cases defaults with
      | nil => cases length
      | cons default defaults =>
          refine .cons (fun backed => ?_) (inductionHypothesis (Nat.succ.inj length))
          rw [saidMember]
          split
          next truthy => exact truthy
          next => exact backed

namespace Params

/-- What a payload becomes when it is loaded and emitted. -/
def reemit (text : String) : Except ParamsError String := (load text).map emit

/-- Every parameter that has something to say by default says something: the arrangement, and for
an image build the customization and the commit. -/
def Settled : Params → Prop
  | .image params => (∃ version ∈ params.shared.arrangementVersion, version ≠ 0) ∧
      (∃ conf ∈ params.customizeConf, conf ≠ "") ∧ ∃ ref ∈ params.gitRef, ref ≠ ""
  | .sources params => ∃ version ∈ params.shared.arrangementVersion, version ≠ 0

theorem isTruthy_halfWord_iff {value : Option UInt32} :
    (ofOption (ofNat ·.toNat) value).isTruthy = true ↔ ∃ number ∈ value, number ≠ 0 := by
  cases value with
  | none => simp [ofOption, Json.isTruthy]
  | some number =>
      have same : number.toNat = 0 ↔ number = 0 := @UInt32.toNat_inj number 0
      simp [ofOption, ofNat, Json.isTruthy, Json.Number.isZero, same]

theorem isTruthy_text_iff {value : Option String} :
    (ofOption .string value).isTruthy = true ↔ ∃ text ∈ value, text ≠ "" := by
  cases value with
  | none => simp [ofOption, Json.isTruthy]
  | some text => simp [ofOption, Json.isTruthy]

section Covers

variable {name : String} {value default : Json}

theorem covers_absent {α : Type} (write : α → Json) :
    Covers (name, value) (name, ofOption write none) ↔ True :=
  iff_true_intro fun truthy => (by cases truthy)

theorem covers_false : Covers (name, value) (name, .bool false) ↔ True :=
  iff_true_intro fun truthy => (by cases truthy)

theorem covers_said (truthy : default.isTruthy = true) :
    Covers (name, value) (name, default) ↔ value.isTruthy = true :=
  imp_iff_right truthy

end Covers

theorem isTruthy_defaultArrangement :
    (ofOption (ofNat ·.toNat) (some SharedParams.defaultArrangement)).isTruthy = true := by
  decide

theorem settled_iff_covers {params : Params} : params.Settled ↔
    List.Forall₂ Covers params.toMembers params.defaults.toMembers := by
  cases params with
  | image params =>
      have conf : (ofOption .string (some ImageParams.defaultCustomizeConf)).isTruthy = true := by
        decide
      have ref : (ofOption .string (some ImageParams.defaultGitRef)).isTruthy = true := by decide
      simp only [Settled, toMembers, defaults, ImageParams.toMembers, SharedParams.toMembers,
        ImageParams.default, SharedParams.default, List.cons_append, List.nil_append,
        List.forall₂_cons, covers_absent, covers_false, covers_said isTruthy_defaultArrangement,
        covers_said conf, covers_said ref, List.forall₂_nil_left_iff, true_and, and_true,
        isTruthy_halfWord_iff, isTruthy_text_iff]
  | sources params =>
      simp only [Settled, toMembers, defaults, SourcesParams.toMembers, SharedParams.toMembers,
        SourcesParams.default, SharedParams.default, List.cons_append, List.nil_append,
        List.forall₂_cons, covers_absent, covers_false, covers_said isTruthy_defaultArrangement,
        List.forall₂_nil_left_iff, and_true, isTruthy_halfWord_iff]

/-! ## Emitting the normal form -/

section Emission

variable {params : Params}

theorem length_toMembers : params.toMembers.length = params.defaults.toMembers.length := by
  have names := congrArg List.length params.names_toMembers
  rwa [Members.names, Members.names, List.length_map, List.length_map] at names

/-- Sorting within generic values leaves the payload as it is. -/
theorem emitted_ordered (room : ∀ value ∈ params.generic, value.WellFormed) :
    params.ordered.emitted = params.emitted := by
  have kind : params.ordered.kind = params.kind := by cases params <;> rfl
  have truthy : (fun member : String × Json => member.2.isTruthy) =
      (fun member => member.2.isTruthy) ∘ sortWithin := by
    funext member
    exact (Json.isTruthy_sortMembers member.2).symm
  have saying : params.ordered.saying.map sortWithin = params.saying.map sortWithin := by
    rw [Params.saying, Params.saying, truthy, ← List.filter_map, ← List.filter_map,
      toMembers_ordered room]
  apply Json.sortedMembers_congr
  rw [List.map_append, List.map_append, saying, kind]

theorem emit_ordered (room : ∀ value ∈ params.generic, value.WellFormed) :
    params.ordered.emit = params.emit := by
  rw [emit_eq, emit_eq, emitted_ordered room]

theorem length_emitted : params.emitted.length = params.saying.length + 1 := by
  rw [emitted, (Json.sortedMembers_perm _).length_eq, List.length_map, List.length_append]
  rfl

theorem emit_normal_of_settled (settled : params.Settled) : params.normal.emit = params.emit := by
  have kind : params.normal.kind = params.kind := by cases params <;> rfl
  have saying : params.normal.saying = params.saying := by
    rw [Params.saying, toMembers_normal]
    exact filter_saidMember_of_covers (settled_iff_covers.1 settled)
  rw [emit_eq, emit_eq, emitted, emitted, saying, kind]

theorem settled_normal : params.normal.Settled := by
  have defaults : params.normal.defaults = params.defaults := by cases params <;> rfl
  rw [settled_iff_covers, defaults, toMembers_normal]
  exact covers_zipWith_saidMember length_toMembers

theorem durable_payload_iff :
    params.payload.Durable ↔ ∀ member ∈ params.saying, member.2.Durable := by
  rw [payload, Json.durable_object_iff, List.forall_mem_append, List.forall_mem_singleton]
  exact and_iff_left (Json.durable_of_floats_eq_nil rfl)

/-- Defaults are no floating-point numbers. -/
theorem durable_defaults : ∀ member ∈ params.defaults.toMembers, member.2.Durable := by
  have none : ∀ member ∈ params.defaults.toMembers, member.2.floats = [] := by
    cases params <;> simp only [defaults] <;> decide +kernel
  exact fun member here => Json.durable_of_floats_eq_nil (none member here)

/-- A default that is put in lasts. -/
theorem durable_normal (durable : params.payload.Durable) : params.normal.payload.Durable := by
  refine durable_payload_iff.2 fun member here => ?_
  rcases List.mem_filter.1 here with ⟨inNormal, -⟩
  rw [toMembers_normal, ← List.map_uncurry_zip_eq_zipWith] at inNormal
  rcases List.mem_map.1 inNormal with ⟨⟨said, default⟩, together, rfl⟩
  rcases List.of_mem_zip together with ⟨saidHere, defaultHere⟩
  rw [Function.uncurry_apply_pair, saidMember]
  split
  next truthy =>
    exact durable_payload_iff.1 durable said (List.mem_filter.2 ⟨saidHere, truthy⟩)
  next => exact durable_defaults default defaultHere

theorem settled_ordered_iff : params.ordered.Settled ↔ params.Settled := by
  cases params <;> exact Iff.rfl

end Emission

/-! ## Loading and emitting again -/

section Obtained

variable {params : Params}

theorem Obtained.room_normal (obtained : params.Obtained) :
    ∀ value ∈ params.normal.generic, value.Within (Json.Tree.levelLimit - 1) := fun value here =>
  obtained.room value (mem_generic_of_mem_generic_normal here)

theorem Obtained.wellFormed_normal (obtained : params.Obtained) :
    params.normal.payload.WellFormed :=
  (within_payload (fits_of_generic obtained.room_normal)).1

theorem Obtained.emit_ordered_normal (obtained : params.Obtained) :
    params.normal.ordered.emit = params.normal.emit :=
  emit_ordered fun value here => (obtained.room_normal value here).1

/-- The normal form has the same payload exactly if no default is put in. -/
theorem emit_normal_eq_iff (obtained : params.Obtained) :
    params.normal.emit = params.emit ↔ params.Settled := by
  refine ⟨fun same => ?_, emit_normal_of_settled⟩
  have wellFormed := (within_payload obtained.fits).1
  have reorders := (Json.payload_spaced_eq_iff wellFormed obtained.wellFormed_normal).1 same.symm
  have members : params.emitted = params.normal.emitted :=
    Json.object.inj ((Json.reorders_iff_sortMembers_eq wellFormed).1 reorders)
  have length := congrArg List.length members
  rw [length_emitted, length_emitted, Nat.add_right_cancel_iff, saying, saying,
    toMembers_normal] at length
  exact settled_iff_covers.2 (covers_of_length_filter length_toMembers length.symm)

variable (obtained : params.Obtained) (durable : params.payload.Durable)

include obtained durable

theorem reemit_emit : reemit params.emit = .ok params.normal.emit := by
  rw [reemit, load_emit obtained.named obtained.fits durable]
  exact congrArg Except.ok obtained.emit_ordered_normal

/-- The second payload stays as it is. -/
theorem reemit_emit_normal : reemit params.normal.emit = .ok params.normal.emit := by
  have again : params.normal.ordered.Obtained :=
    .loaded (load_emit obtained.named obtained.fits durable)
  have settled : params.normal.ordered.Settled := settled_ordered_iff.2 settled_normal
  have reorders := (Json.payload_spaced_eq_iff (within_payload again.fits).1
    obtained.wellFormed_normal).1 obtained.emit_ordered_normal
  have stillDurable : params.normal.ordered.payload.Durable :=
    (Json.durable_iff_of_reorders reorders).2 (durable_normal durable)
  rw [← obtained.emit_ordered_normal, reemit_emit again stillDurable,
    emit_normal_of_settled settled]

end Obtained

end Params
end ContainerBuild
