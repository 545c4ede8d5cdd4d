import ContainerBuild.Proofs.Json.Codec
import ContainerBuild.Proofs.Json.ReadingBack
import ContainerBuild.Proofs.Outcomes
import ContainerBuild.Proofs.Time.Exact
import ContainerBuild.Record.Anomaly
import ContainerBuild.Record.Codec

namespace ContainerBuild
namespace Anomaly

/-!
# Anomalies read back

What a report says of a record is said by scalars: names of phases, texts, exact instants and
unsigned integers of 64 bits.  Each is read back from its value, so a reader that finds the fields
of an anomaly where they were written (`Finds`) finds the anomaly (`askFields_found`).
-/

open Json (Answer Fault Tree)

theorem instantOfJson_exactText (instant : Instant) :
    instantOfJson (.string instant.exactText) = .ok instant := by
  simp only [instantOfJson, Json.asString, bind, Except.bind, Instant.parseLoose_exactText]

theorem ofJson_toJson_phase (phase : Phase) : Phase.ofJson phase.toJson = .ok phase :=
  congrArg Except.ok phase.ofName_name

theorem asUInt64_ofNat (value : UInt64) : Json.asUInt64 (.ofNat value.toNat) = .ok value := by
  rw [Json.asUInt64, Json.Codec.asNat_iff.2 ⟨value.toNat_lt, rfl⟩, Except.map, UInt64.ofNat_toNat]

/-! ## Fields -/

/-- An asker finds each field of an anomaly by its name and its place, if its value can be read. -/
def Finds (ask : AskField) (anomaly : Anomaly) : Prop :=
  ∀ {α : Type} (name : String) (place : Nat) (read : Json → Except Fault α) (value : Json) (x : α),
    anomaly.fields[place]? = some (name, value) → read value = .ok x →
      ask name place read = .found x

theorem askFields_found {ask : AskField} {anomaly : Anomaly} (finds : Finds ask anomaly) :
    askFields ask anomaly.kind = .ok (.found anomaly) := by
  cases anomaly with
  | phaseReasonMismatch phase reason =>
      have first := finds "phase" 0 Phase.ofJson _ _ rfl (ofJson_toJson_phase phase)
      have second := finds "reason" 1 Json.asString (.string reason) _ rfl rfl
      simp only [kind, askFields, first, second]
      rfl
  | completionBeforeStart start completion =>
      have first := finds "start" 0 instantOfJson _ _ rfl (instantOfJson_exactText start)
      have second := finds "completion" 1 instantOfJson _ _ rfl (instantOfJson_exactText completion)
      simp only [kind, askFields, first, second]
      rfl
  | durationMismatch recorded computed =>
      have first := finds "recorded" 0 Json.asUInt64 _ _ rfl (asUInt64_ofNat recorded)
      have second := finds "computed" 1 Json.asUInt64 _ _ rfl (asUInt64_ofNat computed)
      simp only [kind, askFields, first, second]
      rfl
  | outputReferenceMismatch requested resolved =>
      have first := finds "requested" 0 Json.asString (.string requested) _ rfl rfl
      have second := finds "resolved" 1 Json.asString (.string resolved) _ rfl rfl
      simp only [kind, askFields, first, second]
      rfl
  | missingCompletion phase =>
      have first := finds "phase" 0 Phase.ofJson _ _ rfl (ofJson_toJson_phase phase)
      simp only [kind, askFields, first]
      rfl

/-! ## Values -/

/-- The members of an anomaly as a value. -/
def members (anomaly : Anomaly) : Members Json := (kindKey, .string anomaly.kind) :: anomaly.fields

theorem nodup_names_members (anomaly : Anomaly) : anomaly.members.names.Nodup := by
  cases anomaly <;> simp [members, kindKey, fields, Members.names]

theorem within_fields (anomaly : Anomaly) : ∀ member ∈ anomaly.fields, member.2.Within 0 := by
  have word (value : UInt64) : (Json.ofNat value.toNat).Within 0 := by
    have bound := value.toNat_lt
    exact ⟨⟨by omega, by omega⟩, Nat.le_refl 0⟩
  have text (value : String) : (Json.string value).Within 0 := ⟨trivial, Nat.le_refl 0⟩
  cases anomaly <;> simp [fields, Phase.toJson, word, text]

theorem within_members (anomaly : Anomaly) : ∀ member ∈ anomaly.members, member.2.Within 0 :=
  List.forall_mem_cons.2 ⟨⟨trivial, Nat.le_refl 0⟩, anomaly.within_fields⟩

/-- The fields of an anomaly are found among its members, each under its name. -/
theorem finds_members (anomaly : Anomaly) : Finds
    (fun name _ read => (Tree.Fields.ofMembers anomaly.members).required name (Tree.scalar read))
    anomaly := by
  intro α name place read value x there readable
  have member : (name, value) ∈ anomaly.fields := List.mem_of_getElem? there
  have found : anomaly.members.lookup name = some value :=
    (Members.lookup_eq_some_iff_mem anomaly.nodup_names_members).2 (List.mem_cons_of_mem _ member)
  have within := anomaly.within_fields (name, value) member
  refine (Tree.Fields.once_ofMembers_iff anomaly.nodup_names_members).2 (.inr ⟨value, found, ?_⟩)
  exact Tree.scalar_ok_iff.2 ⟨value, Json.value?_toTree within.1 within.2, readable⟩

theorem readKind_toTree (anomaly : Anomaly) :
    readKind (Json.string anomaly.kind).toTree = .ok anomaly.kind := by
  cases anomaly <;> rfl

/-- An anomaly is read from its members.  The kind is read first, from among all of them. -/
theorem ofFields_members (anomaly : Anomaly) :
    ofFields (Tree.Fields.ofMembers anomaly.members) = .ok anomaly := by
  have kind : (Tree.Fields.ofMembers anomaly.members).required kindKey readKind =
      .found anomaly.kind :=
    (Tree.Fields.once_ofMembers_iff anomaly.nodup_names_members).2
      (.inr ⟨_, List.lookup_cons_self, readKind_toTree anomaly⟩)
  have others : (Tree.Fields.ofMembers anomaly.members).others [kindKey]
      (Tree.generic (Tree.levelLimit - 1)) = .found (anomaly.members.unknown [kindKey]) :=
    Tree.Fields.others_ofMembers fun member here =>
      have within := anomaly.within_members member (List.mem_filter.1 here).1
      ⟨within.1, within.2.trans (Nat.zero_le _)⟩
  have asked := askFields_found anomaly.finds_members
  rw [ofFields, kind, others]
  change (askFields _ anomaly.kind >>= Answer.settle) = _
  rw [asked]
  rfl

theorem wellFormed_toJson (anomaly : Anomaly) : anomaly.toJson.WellFormed :=
  (Json.within_object anomaly.nodup_names_members anomaly.within_members).1

/-- The numbers that an anomaly reports are integers. -/
theorem durable_toJson (anomaly : Anomaly) : anomaly.toJson.Durable := by
  refine Json.durable_of_floats_eq_nil ?_
  cases anomaly <;> rfl

/-- An anomaly is read from every text that spells its value. -/
theorem parse_of_spells {anomaly : Anomaly} {text : List Char}
    (spelled : Json.Spells anomaly.toJson text) : parse (String.ofList text) = .ok anomaly := by
  rw [parse, Json.ofText_of_spells spelled]
  exact Json.Document.read_ok_iff.2 ⟨anomaly.ofFields_members, rfl⟩

end Anomaly

namespace Record

/-- Whatever is reported of a record is read back from its text, in every layout: the kind, the
name of a phase, the whole range of durations and the instants to the nanosecond. -/
theorem anomalies_readBack (record : Record) (layout : Json.Layout) :
    ∀ anomaly ∈ record.anomalies,
      Anomaly.parse (Json.document layout anomaly.toJson) = .ok anomaly := by
  intro anomaly _
  rcases Json.exists_spells_document layout anomaly.wellFormed_toJson anomaly.durable_toJson with
    ⟨text, spelled, same⟩
  rw [same]
  exact Anomaly.parse_of_spells spelled

/-- A build that starts within a leap second and is complete before that. -/
def endingEarly : String :=
  "\x7b\"apiVersion\":\"v1\",\"kind\":\"Build\",\"metadata\":\x7b\"name\":\"b\"\x7d," ++
  "\"spec\":\x7b\"strategy\":\x7b\"type\":\"Custom\"\x7d\x7d,\"status\":" ++
  "\x7b\"phase\":\"Complete\",\"startTimestamp\":\"2015-06-30T23:59:60.125Z\"," ++
  "\"completionTimestamp\":\"2015-06-30T23:59:58.000000002Z\"\x7d\x7d"

/-- What is off about it. -/
def endedEarly : Anomaly :=
  .completionBeforeStart ⟨16616, 86399, 1125000000, by decide, by decide⟩
    ⟨16616, 86398, 2, by decide, by decide⟩

theorem anomalies_readBack_endingEarly : ∃ record, decode endingEarly = .ok record ∧
    endedEarly ∈ record.anomalies ∧
    Anomaly.parse (Json.document .pretty endedEarly.toJson) = .ok endedEarly := by
  have evaluated : (decode endingEarly).toOption.map anomalies = some [endedEarly] := by
    decide +kernel
  rcases Except.exists_ok_of_map evaluated with ⟨record, decoded, found⟩
  have reported : endedEarly ∈ record.anomalies := by
    rw [found]
    exact List.mem_cons_self
  exact ⟨record, decoded, reported, anomalies_readBack record .pretty endedEarly reported⟩

end Record
end ContainerBuild
