import ContainerBuild.Proofs.Params.Rearranging
import ContainerBuild.Proofs.Record.Storing

namespace ContainerBuild

/-!
# Parameters that are spelled anew

Spelling the payload of a record's parameters anew keeps the value that it holds, if its numbers
last, up to the order of members, and the spaced style changes that order.  So the parameters and
the image tag are the same as before if there are any (`Record.respelled_of_normalizeParams`).  If
the payload has several faults, which of them is reported depends on the order, and so the report
can change; and a number that does not last is another one after every time
(`Record.normalizeParams_changes`).
-/

open Json (Corresponds Rearrangement Reorders)

/-! ## The order of a style -/

namespace Json

theorem rearrangement_sortMembers : Rearrangement sortMembers :=
  ⟨reorders_sortMembers, fun items => by rw [sortMembers, sortItems_eq_map]⟩

namespace PayloadStyle

/-- A value with its members in the order in which a style writes them. -/
def order : PayloadStyle → Json → Json
  | .compact => id
  | .spaced => sortMembers

variable (style : PayloadStyle)

theorem rearrangement : Rearrangement style.order := by
  cases style with
  | compact => exact rearrangement_id
  | spaced => exact rearrangement_sortMembers

theorem parse_payload {value : Json} (within : value.Within Tree.levelLimit)
    (durable : value.Durable) : parse (value.payload style) = .ok (style.order value) := by
  cases style with
  | compact => exact parse_compact within.1 durable within.2
  | spaced => exact parse_spaced within.1 durable within.2

/-- Ordering an object orders the value that each of its names finds. -/
theorem order_object {members : Members Json} (distinct : members.names.Nodup) :
    ∃ others : Members Json, style.order (.object members) = .object others ∧
      others.names.Nodup ∧ ∀ name, others.lookup name = (members.lookup name).map style.order := by
  cases style with
  | compact => exact ⟨members, rfl, distinct, fun name => by rw [order, Option.map_id, id]⟩
  | spaced =>
      have within : (Members.names (members.map sortWithin)).Nodup := by
        rwa [Members.names, names_sortWithin]
      have shuffle := (sortedMembers_perm members).symm
      refine ⟨sortedMembers members, rfl, (shuffle.map Prod.fst).nodup_iff.1 within, fun name => ?_⟩
      rw [← Members.lookup_perm within shuffle]
      exact Members.lookup_map sortMembers members name

end PayloadStyle
end Json

/-! ## Parameters of an ordered payload -/

namespace Params

variable (style : Json.PayloadStyle)

theorem related_ofValue_order {value : Json} (wellFormed : value.WellFormed) :
    Except.Related (fun params params' => params' = params.mapGeneric style.order)
      ParamsError.Alike (ofValue value) (ofValue (style.order value)) := by
  cases value with
  | object members =>
      rcases style.order_object wellFormed.1 with ⟨others, ordered, distinct, lookup⟩
      rw [ordered]
      exact related_ofMembers ⟨style.rearrangement, wellFormed.2, fun name _ => lookup name⟩
        wellFormed.1 distinct
  | _ => cases style <;> exact .error rfl

theorem sameValue_mapGeneric_order {params : Params} (obtained : params.Obtained) :
    (params.mapGeneric style.order).sameValue params = true := by
  cases style with
  | compact =>
      rw [Json.PayloadStyle.order, mapGeneric_id, sameValue,
        Json.sameValue_self (wellFormed_toMembers obtained.room), beq_self_eq_true,
        beq_self_eq_true]
      rfl
  | spaced =>
      rw [Json.PayloadStyle.order, mapGeneric_sortMembers]
      exact sameValue_ordered obtained.room

theorem imageTag_mapGeneric (params : Params) (change : Json → Json) :
    (params.mapGeneric change).shared.imageTag = params.shared.imageTag := by
  cases params <;> rfl

end Params

namespace Record

variable {record after : Record} {style : Json.PayloadStyle} {changed : Bool}

/-! ## Payloads of one value -/

/-- Two records carry payloads of one value that lasts, the second in a style, or neither carries
one. -/
inductive Carry (style : Json.PayloadStyle) (record after : Record) : Prop
  | nothing (before : record.paramsText? = none) (later : after.paramsText? = none)
  | value {text : String} {value : Json} (before : record.paramsText? = some text)
      (parsed : Json.parse text = .ok value) (durable : value.Durable)
      (later : after.paramsText? = some (value.payload style))

theorem carry_of_normalizeParams (done : record.normalizeParams style = .ok (changed, after))
    (durable : ∀ text ∈ record.paramsText?, Json.DurableText text) :
    Carry style record after := by
  rcases normalizeParams_ok done with
    ⟨none | ⟨text, value, carried, parsed, same⟩, -, rfl⟩ |
      ⟨custom, text, value, -, carried, parsed, -, -, rfl⟩
  · exact .nothing none none
  · exact .value carried parsed (durable text carried value parsed) (same ▸ carried)
  · exact .value carried parsed (durable text carried value parsed) (custom.envValue?_setEnv _ _)

namespace Carry

theorem values (carry : Carry style record after) : Option.Rel
    (fun text later => ∃ value other, Json.parse text = .ok value ∧
      Json.parse later = .ok other ∧ Reorders value other)
    record.paramsText? after.paramsText? := by
  cases carry with
  | nothing before later =>
      rw [before, later]
      exact .none
  | @value text value before parsed durable later =>
      have within := Json.within_of_parse parsed
      rw [before, later]
      exact .some ⟨value, _, parsed, style.parse_payload within durable,
        style.rearrangement.reorders within.1⟩

theorem related_params (carry : Carry style record after) : Except.Related
    (Option.Rel fun params params' => params.Obtained ∧ params' = params.mapGeneric style.order)
    ParamsError.Alike record.params after.params := by
  cases carry with
  | nothing before later =>
      rw [params, params, before, later]
      exact .ok .none
  | @value text value before parsed durable later =>
      have within := Json.within_of_parse parsed
      have related := Params.related_ofValue_order style within.1
      rw [← Params.load_eq_ofValue parsed,
        ← Params.load_eq_ofValue (style.parse_payload within durable)] at related
      rw [params, params, before, later]
      exact related.obtained.map fun params _ both => .some ⟨.loaded both.1, both.2⟩

theorem params_compact (carry : Carry .compact record after) : after.params = record.params := by
  cases carry with
  | nothing before later => rw [params, params, before, later]
  | @value text value before parsed durable later =>
      have spelled :=
        Json.PayloadStyle.compact.parse_payload (Json.within_of_parse parsed) durable
      have same : Params.load (value.payload .compact) = Params.load text :=
        (Params.load_eq_ofValue spelled).trans (Params.load_eq_ofValue parsed).symm
      rw [params, params, before, later]
      exact congrArg (·.map some) same

theorem again (carry : Carry style record after) :
    after.normalizeParams style = .ok (false, after) := by
  cases carry with
  | nothing before later =>
      rw [normalizeParams]
      split
      next carried =>
        rw [later] at carried
        cases carried
      next => rfl
  | @value text value before parsed durable later =>
      have within := Json.within_of_parse parsed
      have spelled := Json.payload_of_parse within.1 durable within.2 style
      rw [style.parse_payload within durable] at spelled
      exact (normalizeParams_unchanged_iff later style).2
        ⟨_, style.parse_payload within durable, Except.ok.inj spelled⟩

end Carry

/-! ## Spelling anew -/

/-- What holds of a record whose parameters were spelled anew. -/
structure Respelled (style : Json.PayloadStyle) (record after : Record) : Prop where
  /-- The payload holds the value that it held, up to the order of members; or there is none. -/
  values : Option.Rel (fun text later => ∃ value other, Json.parse text = .ok value ∧
    Json.parse later = .ok other ∧ Reorders value other) record.paramsText? after.paramsText?
  /-- The same parameters are loaded, or none both times, or neither payload loads. -/
  params : Except.Related (Option.Rel fun params params' => params'.sameValue params = true)
    ParamsError.Alike record.params after.params
  /-- The image has the same tag, or none both times, or neither payload loads. -/
  imageTag : Except.Related Eq ParamsError.Alike record.imageTag after.imageTag
  /-- The compact style leaves even the report of a fault alone. -/
  compact : style = .compact → after.params = record.params ∧ after.imageTag = record.imageTag
  /-- A second time changes nothing. -/
  again : after.normalizeParams style = .ok (false, after)

theorem changed_iff_of_normalizeParams
    (done : record.normalizeParams style = .ok (changed, after)) :
    changed = true ↔ after.paramsText? ≠ record.paramsText? := by
  rcases normalizeParams_ok done with
    ⟨-, rfl, rfl⟩ | ⟨custom, text, value, -, carried, -, differs, rfl, rfl⟩
  · exact iff_of_false Bool.false_ne_true (not_not_intro rfl)
  · have stored : (record.withCustom
        (custom.setEnv paramsVariable (value.payload style))).paramsText? =
          some (value.payload style) := custom.envValue?_setEnv _ _
    rw [stored, carried]
    exact iff_of_true rfl fun same => differs (Option.some.inj same)

/-- Spelling parameters anew tells whether their text changed.  It keeps their value if its numbers
last, and then a second time changes nothing. -/
theorem respelled_of_normalizeParams
    (done : record.normalizeParams style = .ok (changed, after)) :
    (changed = true ↔ after.paramsText? ≠ record.paramsText?) ∧
      ((∀ text ∈ record.paramsText?, Json.DurableText text) → Respelled style record after) := by
  refine ⟨changed_iff_of_normalizeParams done, fun durable => ?_⟩
  have carry := carry_of_normalizeParams done durable
  refine ⟨carry.values, carry.related_params.mono ?_, carry.related_params.map ?_, ?_, carry.again⟩
  · rintro _ _ (⟨⟨obtained, rfl⟩⟩ | ⟨⟩)
    · exact .some (Params.sameValue_mapGeneric_order style obtained)
    · exact .none
  · rintro _ _ (⟨⟨-, rfl⟩⟩ | ⟨⟩)
    · exact (Params.imageTag_mapGeneric _ _).symm
    · rfl
  · rintro rfl
    exact ⟨carry.params_compact, by rw [Record.imageTag, carry.params_compact, Record.imageTag]⟩

/-- A payload with its members out of order, also within a generic value. -/
def overriding : String :=
  "\x7b\"reactor_config_override\":\x7b\"b\":1,\"a\":[]\x7d,\"image_tag\":\"jose/c:1\"\x7d"

/-- The same payload in order. -/
def overridingSorted : String :=
  "\x7b\"image_tag\": \"jose/c:1\", \"reactor_config_override\": " ++
    "\x7b\"a\": [], \"b\": 1\x7d\x7d"

theorem respelled_of_normalizeParams_overriding :
    (carrying overriding).normalizeParams .spaced = .ok (true, carrying overridingSorted) ∧
      Json.DurableText overriding ∧
      Respelled .spaced (carrying overriding) (carrying overridingSorted) ∧
      (carrying overridingSorted).imageTag = .ok (some "jose/c:1") := by
  have done : (carrying overriding).normalizeParams .spaced =
      .ok (true, carrying overridingSorted) := by decide +kernel
  have durable : Json.DurableText overriding := by decide +kernel
  refine ⟨done, durable, (respelled_of_normalizeParams done).2 ?_, by decide +kernel⟩
  rw [paramsText?_carrying]
  exact fun text here => Option.some.inj here ▸ durable

/-- A payload with a name that is a number and a version that is negative. -/
def twoFaults : String := "\x7b\"user\": 3, \"arrangement_version\": -1\x7d"

/-- The same payload with its members in order. -/
def twoFaultsSorted : String := "\x7b\"arrangement_version\": -1, \"user\": 3\x7d"

/-- A payload of a number. -/
def holding (number : String) : String := "\x7b\"x\": " ++ number ++ "\x7d"

/-- Of several faults that which comes first is reported, and in order it can be another one.  And
a number that does not last changes with every time. -/
theorem normalizeParams_changes :
    ((carrying twoFaults).normalizeParams .spaced = .ok (true, carrying twoFaultsSorted) ∧
      (carrying twoFaults).imageTag = .error (.unreadable (.invalid .wrongType)) ∧
      (carrying twoFaultsSorted).imageTag = .error (.unreadable (.invalid .outOfRange))) ∧
    (carrying (holding "5e+32")).normalizeParams .spaced =
        .ok (true, carrying (holding "5.0000000000000004e+32")) ∧
      (carrying (holding "5.0000000000000004e+32")).normalizeParams .spaced =
        .ok (true, carrying (holding "5e+32")) := by
  decide +kernel

end Record
end ContainerBuild
