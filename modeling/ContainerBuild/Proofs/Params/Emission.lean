import ContainerBuild.Params.Request
import ContainerBuild.Proofs.Json.Parsing
import ContainerBuild.Proofs.Json.Payload
import ContainerBuild.Proofs.Naming.BuildId
import ContainerBuild.Proofs.Params.Loading

namespace ContainerBuild

/-!
# Emitting and loading parameters

A payload has the members that say something, sorted, and the kind (`Params.emitted`).  Taking the
kind out leaves what the fields were written to (`Params.sent_emitted`), and so loading a payload
comes to the normal form (`Params.load_emit`).  That asks for three things: a build ID that is one
as it stands, since a loaded one is cut and checked again; values that leave room for the object
around them, since reading stops at a level; and numbers that last.
-/

open Json (sortedMembers sortWithin)

namespace Json

theorem isTruthy_sortMembers (value : Json) : value.sortMembers.isTruthy = value.isTruthy := by
  cases value with
  | array items =>
      rw [sortMembers, isTruthy, isTruthy, sortItems_eq_map, List.isEmpty_map]
  | object members =>
      rw [sortMembers, isTruthy, isTruthy, (sortedMembers_perm members).isEmpty_eq,
        List.isEmpty_map]
  | _ => rfl

end Json

namespace Params

/-! ## The payload -/

section Payload

variable (params : Params)

theorem names_toMembers : params.toMembers.names = params.defaults.toMembers.names := by
  cases params <;> rfl

theorem nodup_names_toMembers : params.toMembers.names.Nodup := by
  rw [names_toMembers]
  cases params <;> simp only [defaults] <;> decide +kernel

/-- The kind and the node selectors are no members of their own. -/
theorem notMem_names_toMembers : ∀ name ∈ kindKey :: ImageParams.selectorNames,
    name ∉ params.toMembers.names := by
  rw [names_toMembers]
  cases params <;> simp only [defaults] <;> decide +kernel

/-- The members that say something. -/
def saying : Members Json := params.toMembers.filter fun member => member.2.isTruthy

/-- The members of a payload as they are emitted: those that say something and the kind. -/
def emitted : Members Json := sortedMembers (params.saying ++ [(kindKey, .string params.kind)])

theorem emit_eq : params.emit = (Json.object params.emitted).spaced := rfl

theorem nodup_names_saying : params.saying.names.Nodup :=
  params.nodup_names_toMembers.sublist (List.filter_sublist.map Prod.fst)

theorem lookup_saying (name : String) :
    params.saying.lookup name = (params.toMembers.lookup name).filter Json.isTruthy :=
  Members.lookup_filter params.nodup_names_toMembers Json.isTruthy name

theorem notMem_names_saying : ∀ name ∈ kindKey :: ImageParams.selectorNames,
    name ∉ params.saying.names := fun name reserved here =>
  params.notMem_names_toMembers name reserved ((List.filter_sublist.map Prod.fst).subset here)

theorem nodup_names_payload :
    Members.names (params.saying ++ [(kindKey, .string params.kind)]) |>.Nodup := by
  rw [← Members.put_of_notMem (params.notMem_names_saying kindKey List.mem_cons_self)]
  exact Members.nodup_names_put _ _ params.nodup_names_saying

theorem names_sortedMembers_perm (members : Members Json) :
    (Members.names (sortedMembers members)).Perm members.names := by
  rw [Members.names, Members.names, ← Json.names_sortWithin members]
  exact (Json.sortedMembers_perm members).map Prod.fst

theorem nodup_names_emitted : params.emitted.names.Nodup :=
  (names_sortedMembers_perm _).nodup_iff.2 params.nodup_names_payload

/-- Taking the kind out of a payload leaves the members that say something. -/
theorem takeOut_kindKey_perm :
    (Members.takeOut kindKey params.emitted).Perm (params.saying.map sortWithin) := by
  have others : (params.saying.map sortWithin).filter (fun member => member.1 != kindKey) =
      params.saying.map sortWithin := by
    refine List.filter_eq_self.2 fun member here => bne_iff_ne.2 fun same => ?_
    rcases List.mem_map.1 here with ⟨source, sourceHere, rfl⟩
    exact params.notMem_names_saying kindKey List.mem_cons_self
      (List.mem_map.2 ⟨source, sourceHere, same⟩)
  refine (Members.takeOut_perm params.nodup_names_emitted).trans ?_
  refine ((Json.sortedMembers_perm _).filter _).trans ?_
  rw [List.map_append, List.filter_append, others, List.map_singleton, sortWithin,
    List.filter_cons_of_neg (by simp), List.filter_nil, List.append_nil]

theorem nodup_names_sortedSaying : (Members.names (params.saying.map sortWithin)).Nodup := by
  rw [Members.names, Json.names_sortWithin]
  exact params.nodup_names_saying

/-- What a payload has apart from its kind. -/
theorem lookup_takeOut_kindKey (name : String) :
    (Members.takeOut kindKey params.emitted).lookup name =
      (params.saying.map sortWithin).lookup name :=
  (Members.lookup_perm params.nodup_names_sortedSaying params.takeOut_kindKey_perm.symm name).symm

/-- What says something is emitted, with the members of every object sorted. -/
theorem lookup_emitted {name : String} (other : name ≠ kindKey) :
    params.emitted.lookup name = (params.saying.lookup name).map Json.sortMembers := by
  have apart := Members.lookup_takeOut params.nodup_names_emitted kindKey name
  rw [if_neg other] at apart
  rw [← apart, lookup_takeOut_kindKey]
  exact Members.lookup_map Json.sortMembers params.saying name

theorem sent_emitted :
    ∀ member ∈ params.toMembers, Sent (Members.takeOut kindKey params.emitted) member := by
  intro member here
  rw [Sent, lookup_takeOut_kindKey]
  split
  next truthy =>
    rw [Members.lookup_eq_some_iff_mem params.nodup_names_sortedSaying]
    exact List.mem_map.2 ⟨member, List.mem_filter.2 ⟨here, truthy⟩, rfl⟩
  next falsy =>
    rw [Members.lookup_eq_none_iff_notMem, Members.names, Json.names_sortWithin]
    intro named
    rcases List.mem_map.1 named with ⟨other, otherHere, same⟩
    rcases List.mem_filter.1 otherHere with ⟨otherThere, truthy⟩
    rw [List.inj_on_of_nodup_map params.nodup_names_toMembers otherThere here same] at truthy
    exact falsy truthy

theorem free_emitted : ∀ name ∈ ImageParams.selectorNames,
    (Members.takeOut kindKey params.emitted).lookup name = none := by
  intro name here
  rw [lookup_takeOut_kindKey, Members.lookup_eq_none_iff_notMem, Members.names,
    Json.names_sortWithin]
  exact params.notMem_names_saying name (List.mem_cons_of_mem _ here)

theorem kind_mem_emitted : (kindKey, Json.string params.kind) ∈ params.emitted := by
  rw [emitted, (Json.sortedMembers_perm _).mem_iff]
  exact List.mem_map.2 ⟨(kindKey, .string params.kind), List.mem_append_right _
    (List.mem_singleton.2 rfl), rfl⟩

theorem kindOf_emitted : kindOf params.emitted = .ok params.kind := by
  rw [kindOf, (Members.lookup_eq_some_iff_mem params.nodup_names_emitted).2
    params.kind_mem_emitted]

theorem isTruthy_of_mem_emitted : ∀ member ∈ params.emitted, member.2.isTruthy = true := by
  intro member here
  rw [emitted, (Json.sortedMembers_perm _).mem_iff] at here
  rcases List.mem_map.1 here with ⟨source, sourceHere, rfl⟩
  rw [sortWithin, Json.isTruthy_sortMembers]
  rcases List.mem_append.1 sourceHere with saying | kind
  · exact (List.mem_filter.1 saying).2
  · rw [List.mem_singleton.1 kind]
    cases params <;> rfl

theorem selector_notMem_emitted : ∀ name ∈ ImageParams.selectorNames,
    name ∉ params.emitted.names := by
  intro name here named
  have inPayload := (names_sortedMembers_perm _).mem_iff.1 named
  rw [Members.names, List.map_append, List.mem_append, List.map_singleton,
    List.mem_singleton] at inPayload
  rcases inPayload with saying | kind
  · exact params.notMem_names_saying name (List.mem_cons_of_mem _ here) saying
  · have apart : kindKey ∉ ImageParams.selectorNames := by decide
    rw [kind] at here
    exact apart here

end Payload

/-! ## Loading -/

/-- Whether the build ID, if there is one, is one as it stands. -/
def Named : Params → Prop
  | .image params => ∀ name ∈ params.name, BuildId.check name = .ok name
  | .sources _ => True

/-- Whether all members are well formed and leave room for the object around them. -/
def Fits (params : Params) : Prop :=
  ∀ member ∈ params.toMembers, member.2.Within (Json.Tree.levelLimit - 1)

theorem within_payload {params : Params} (fits : params.Fits) :
    params.payload.Within Json.Tree.levelLimit := by
  have each : ∀ member ∈ params.saying ++ [(kindKey, Json.string params.kind)],
      member.2.Within (Json.Tree.levelLimit - 1) := by
    intro member here
    rcases List.mem_append.1 here with saying | kind
    · exact fits member (List.mem_filter.1 saying).1
    · rw [List.mem_singleton.1 kind]
      exact ⟨trivial, Nat.zero_le _⟩
  have within := Json.within_object_ofPairs each
  rwa [Members.ofPairs_of_nodup params.nodup_names_payload] at within

theorem parse_emit {params : Params} (fits : params.Fits) (durable : params.payload.Durable) :
    Json.parse params.emit = .ok (.object params.emitted) :=
  have within := within_payload fits
  Json.parse_spaced within.1 durable within.2

end Params

namespace ImageParams

theorem setName_ok_iff {params made : ImageParams} {name : String} :
    params.setName name = .ok made ↔
      ∃ id, BuildId.check name = .ok id ∧ made = { params with name := some id } := by
  rw [setName]
  cases BuildId.check name with
  | ok id => simp [eq_comm]
  | error judged => simp

/-- A build ID that is set is one as it stands. -/
theorem named_of_setName {params made : ImageParams} {name : String}
    (done : params.setName name = .ok made) :
    ∀ id ∈ made.name, BuildId.check id = .ok id := by
  rcases setName_ok_iff.1 done with ⟨id, valid, rfl⟩
  intro other here
  rw [← Option.some.inj here]
  exact BuildId.check_of_check valid

/-- The parameters with their build ID cut and checked. -/
def checkName (params : ImageParams) : Except ParamsError ImageParams :=
  match params.name with
  | some name => ({ params with name := none } : ImageParams).setName name
  | none => .ok params

/-- A build ID that is one as it stands is kept. -/
theorem checkName_of_named {params : ImageParams}
    (named : ∀ name ∈ params.name, BuildId.check name = .ok name) :
    params.checkName = .ok params := by
  rcases params with ⟨⟩
  rw [checkName]
  split
  next name found =>
    cases found
    exact setName_ok_iff.2 ⟨name, named name rfl, rfl⟩
  next => rfl

/-- What is checked has a build ID that is one, and is otherwise the same. -/
theorem checkName_ok {params made : ImageParams} (checked : params.checkName = .ok made) :
    made = { params with name := made.name } ∧
      ∀ name ∈ made.name, BuildId.check name = .ok name := by
  rw [checkName] at checked
  split at checked
  next name found =>
    refine ⟨?_, named_of_setName checked⟩
    rcases setName_ok_iff.1 checked with ⟨id, -, rfl⟩
    rfl
  next found =>
    rw [← Except.ok.inj checked]
    exact ⟨rfl, fun name here => by rw [found] at here; cases here⟩

theorem ofMembers_ok_iff {members : Members Json} {params : ImageParams} :
    ofMembers members = .ok params ↔ ∃ make shared, ask members = .found make ∧
      SharedParams.ask members = .found shared ∧ (make shared).checkName = .ok params := by
  rw [ofMembers]
  cases ask members with
  | found make =>
      cases SharedParams.ask members with
      | found shared =>
          change (make shared).checkName = .ok params ↔ _
          simp
      | _ => simp [Json.Answer.settle, Except.mapError, bind, Except.bind]
  | _ => simp [Json.Answer.settle, Except.mapError, bind, Except.bind]

end ImageParams

theorem SourcesParams.ofMembers_ok_iff {members : Members Json} {params : SourcesParams} :
    ofMembers members = .ok params ↔ ∃ make shared, ask members = .found make ∧
      SharedParams.ask members = .found shared ∧ make shared = params := by
  rw [ofMembers]
  cases ask members with
  | found make =>
      cases SharedParams.ask members with
      | _ => simp [Json.Answer.settle, Except.mapError, bind, Except.bind]
  | _ => simp [Json.Answer.settle, Except.mapError, bind, Except.bind]

namespace Params

theorem ofMembers_emitted {params : Params} (named : params.Named) :
    ofMembers params.emitted = .ok params.normal.ordered := by
  have sent := params.sent_emitted
  rw [ofMembers, kindOf_emitted]
  cases params with
  | image params =>
      have shared : ∀ member ∈ params.shared.toMembers, Sent
          (Members.takeOut kindKey (Params.image params).emitted) member :=
        fun member here => sent member (List.mem_append_left _ here)
      have checked : params.normal.ordered.checkName = .ok params.normal.ordered :=
        ImageParams.checkName_of_named fun name here => named name (mem_of_mem_said here)
      have read : ImageParams.ofMembers
          (Members.takeOut kindKey (Params.image params).emitted) = .ok params.normal.ordered :=
        ImageParams.ofMembers_ok_iff.2 ⟨_, _, ImageParams.ask_of_sent sent (free_emitted _),
          SharedParams.ask_of_sent shared, checked⟩
      simp only [bind, Except.bind, kind, read]
      rfl
  | sources params =>
      have shared : ∀ member ∈ params.shared.toMembers, Sent
          (Members.takeOut kindKey (Params.sources params).emitted) member :=
        fun member here => sent member (List.mem_append_left _ here)
      have read : SourcesParams.ofMembers
          (Members.takeOut kindKey (Params.sources params).emitted) = .ok params.normal.ordered :=
        SourcesParams.ofMembers_ok_iff.2 ⟨_, _, SourcesParams.ask_of_sent sent,
          SharedParams.ask_of_sent shared, rfl⟩
      have apart : SourcesParams.kind ≠ ImageParams.kind := by decide
      simp only [bind, Except.bind, kind, if_neg apart, read]
      rfl

/-- Read parameters from the value of a payload. -/
def ofValue : Json → Except ParamsError Params
  | .object members => ofMembers members
  | _ => .error .notAnObject

theorem load_eq_ofValue {text : String} {value : Json} (parsed : Json.parse text = .ok value) :
    load text = ofValue value := by
  rw [load, Json.not_blank_of_parse parsed, if_neg Bool.false_ne_true, parsed]
  cases value <;> rfl

theorem load_emit {params : Params} (named : params.Named) (fits : params.Fits)
    (durable : params.payload.Durable) : load params.emit = .ok params.normal.ordered :=
  (load_eq_ofValue (parse_emit fits durable)).trans (ofMembers_emitted named)

end Params

end ContainerBuild
