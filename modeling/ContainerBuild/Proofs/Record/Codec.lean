import ContainerBuild.Command.Run
import ContainerBuild.Proofs.Json.Parsing
import ContainerBuild.Proofs.Json.Spelling
import ContainerBuild.Proofs.Outcomes
import ContainerBuild.Proofs.Record.Codecs

namespace ContainerBuild
namespace Record

/-!
# Records read and written

A record is sound if its fields can be read back and its remembered nulls lie in lenient fields.
What is decoded is sound, and a sound record whose numbers last is decoded from its own text, except
that nulls without a place are forgotten (`decode_encode`).  A decoded record has a place for all
of them, which is why nothing is lost on the way through a record (`roundtrip_faithful`).
-/

open Json (Reorders Pointer Lost)

/-- A record whose fields can be read back and whose nulls are where nulls can be dropped. -/
structure Sound (record : Record) : Prop where
  fields : codec.Sound { record with nulls := [] }
  ascending : Pointer.Ascending record.nulls
  slots : ∀ pointer ∈ record.nulls, Json.Shape.Slot pointer.tokens codec.shape

namespace Sound

variable {record : Record}

theorem wellFormed (sound : record.Sound) : record.toJson.WellFormed := by
  have written := codec.wellFormed sound.fields
  exact written

theorem wellFormed_document (sound : record.Sound) : record.document.WellFormed :=
  Json.wellFormed_restoreNulls record.nulls sound.wellFormed

theorem keeps_document (sound : record.Sound) :
    codec.shape.Keeps record.document record.toJson := by
  have self := codec.self sound.fields
  exact Json.Shape.keeps_restoreNulls codec.distinct sound.slots self

theorem ofJson_document (sound : record.Sound) :
    ofJson record.document = .ok { record with nulls := [] } :=
  (codec.read_iff sound.wellFormed_document).2 ⟨sound.fields, sound.keeps_document⟩

theorem droppedNulls_document (sound : record.Sound) :
    Json.droppedNulls record.document record.toJson =
      record.nulls.filter fun pointer => record.toJson.Vacant pointer.tokens :=
  Json.droppedNulls_restoreNulls sound.wellFormed sound.ascending

end Sound

/-! ## Reading -/

/-- What can be read as a record has every key that a document has to have. -/
theorem missingKey?_of_ofJson {members : Members Json} {record : Record}
    (read : ofJson (.object members) = .ok record) : missingKey? members = none := by
  rcases Json.askObject_ok_iff.1 read with ⟨_, same, asked⟩
  rw [← Json.object.inj same] at asked
  simp only [Json.Answer.seq_found_iff, Json.Answer.map_found_iff, Json.required_found_iff] at asked
  rcases asked with ⟨_, _, ⟨_, _, ⟨_, _, ⟨_, _, ⟨_, _, ⟨_, ⟨_, apiVersion, -⟩, -⟩, ⟨_, kind, -⟩, -⟩,
    ⟨_, metadata, -⟩, -⟩, ⟨_, spec, -⟩, -⟩, ⟨_, status, -⟩, -⟩, -⟩
  simp [missingKey?, fieldNames, apiVersion, kind, metadata, spec, status]

theorem nulls_of_ofJson {value : Json} {record : Record} (read : ofJson value = .ok record) :
    record.nulls = [] := by
  rcases Json.askObject_ok_iff.1 read with ⟨_, -, asked⟩
  simp only [Json.Answer.seq_found_iff, Json.Answer.map_found_iff] at asked
  rcases asked with ⟨_, _, ⟨_, _, ⟨_, _, ⟨_, _, ⟨_, _, ⟨_, -, rfl⟩, -, rfl⟩, -, rfl⟩, -, rfl⟩, -,
    rfl⟩, -, rfl⟩
  rfl

/-- A document is read by its fields, and the nulls that these do not keep are remembered. -/
theorem ofDocument_ok_iff {value : Json} {record : Record} :
    ofDocument value = .ok record ↔
      ofJson value = .ok { record with nulls := [] } ∧
        record.nulls = Json.droppedNulls value record.toJson := by
  cases value with
  | object members =>
      rw [ofDocument]
      cases read : ofJson (.object members) with
      | error fault =>
          refine ⟨fun accepted => ?_, fun both => (by cases both.1)⟩
          split at accepted
          · cases accepted
          · cases accepted
      | ok base =>
          rw [missingKey?_of_ofJson read]
          change Except.ok { base with nulls := Json.droppedNulls _ base.toJson } = _ ↔ _
          rw [Except.ok.injEq, Except.ok.injEq]
          have forgotten := nulls_of_ofJson read
          rcases base with ⟨apiVersion, kind, metadata, spec, status, extra, nulls⟩
          rcases record with ⟨_, _, _, _, _, _, recordNulls⟩
          subst forgotten
          simp only [Record.mk.injEq, and_true]
          constructor
          · rintro ⟨rfl, rfl, rfl, rfl, rfl, rfl, rfl⟩
            exact ⟨⟨rfl, rfl, rfl, rfl, rfl, rfl⟩, rfl⟩
          · rintro ⟨⟨rfl, rfl, rfl, rfl, rfl, rfl⟩, dropped⟩
            exact ⟨rfl, rfl, rfl, rfl, rfl, rfl, dropped.symm⟩
  | _ => exact ⟨fun accepted => (by cases accepted), fun both => (by cases both.1)⟩

theorem decode_ok_iff {text : String} {record : Record} :
    decode text = .ok record ↔
      ∃ value, Json.parse text = .ok value ∧ ofDocument value = .ok record := by
  rw [decode]
  cases Json.parse text with
  | error fault => simp [ReadError.ofFault, Except.mapError, bind, Except.bind]
  | ok value => simp [ReadError.ofFault, Except.mapError, bind, Except.bind]

/-- What is read of a document is sound. -/
theorem sound_of_ofDocument {value : Json} {record : Record} (wellFormed : value.WellFormed)
    (accepted : ofDocument value = .ok record) :
    record.Sound ∧ codec.shape.Keeps value record.toJson ∧
      record.nulls = Json.droppedNulls value record.toJson := by
  rcases ofDocument_ok_iff.1 accepted with ⟨read, nulls⟩
  rcases (codec.read_iff wellFormed).1 read with ⟨fields, kept⟩
  have keeps : codec.shape.Keeps value record.toJson := kept
  refine ⟨⟨fields, ?_, fun pointer here => ?_⟩, keeps, nulls⟩
  · rw [nulls]
    exact Json.ascending_droppedNulls wellFormed
  · rw [nulls, Json.mem_droppedNulls wellFormed (Json.Shape.prunes_of_keeps keeps)] at here
    exact Json.Shape.slot_of_lost keeps here

theorem sound_of_decode {text : String} {record : Record} (decoded : decode text = .ok record) :
    record.Sound := by
  rcases decode_ok_iff.1 decoded with ⟨value, parsed, accepted⟩
  exact (sound_of_ofDocument (Json.within_of_parse parsed).1 accepted).1

/-- The document of a record is the value that it was read from, up to the order of members. -/
theorem reorders_document {value : Json} {record : Record} (wellFormed : value.WellFormed)
    (accepted : ofDocument value = .ok record) : Reorders value record.document := by
  rcases sound_of_ofDocument wellFormed accepted with ⟨sound, keeps, nulls⟩
  have reorders := Json.reorders_restoreNulls wellFormed sound.wellFormed
    (Json.Shape.prunes_of_keeps keeps)
  rwa [← nulls] at reorders

/-! ## There and back -/

/-- A sound record is decoded from its own text, if its numbers last.  Nulls that have no place in
it are forgotten. -/
theorem decode_encode {record : Record} (sound : record.Sound) (durable : record.document.Durable)
    (shallow : record.document.depth ≤ Json.Tree.levelLimit) (layout : Json.Layout) :
    decode (record.encode layout) = .ok { record with
      nulls := record.nulls.filter fun pointer => record.toJson.Vacant pointer.tokens } := by
  refine decode_ok_iff.2 ⟨record.document,
    Json.parse_document layout sound.wellFormed_document durable shallow,
    ofDocument_ok_iff.2 ⟨?_, ?_⟩⟩
  · exact sound.ofJson_document
  · exact sound.droppedNulls_document.symm

/-- The text of a record that was read from a document is parsed as its own document, if its
numbers last. -/
theorem parse_encode {value : Json} {record : Record} (within : value.Within Json.Tree.levelLimit)
    (accepted : ofDocument value = .ok record) (durable : record.document.Durable)
    (layout : Json.Layout) : Json.parse (record.encode layout) = .ok record.document := by
  have shallow := within.2
  rw [← Json.depth_of_reorders (reorders_document within.1 accepted)] at shallow
  have sound := (sound_of_ofDocument within.1 accepted).1
  exact Json.parse_document layout sound.wellFormed_document durable shallow

/-- A decoded record is the text that it was read from: it says the same value, with no null
gained or lost anywhere, it is decoded again, and writing that gives the same text.  This is about
texts whose numbers last. -/
theorem roundtrip_faithful {text : String} {record : Record} (decoded : decode text = .ok record)
    (durable : Json.DurableText text) (layout : Json.Layout) :
    (∃ before after, Json.parse text = .ok before ∧
        Json.parse (record.encode layout) = .ok after ∧ Reorders before after) ∧
      (∀ path, Command.reencode path text layout = .ok (record.encode layout)) ∧
      decode (record.encode layout) = .ok record ∧
      (decode (record.encode layout)).map (encode layout) = .ok (record.encode layout) := by
  rcases decode_ok_iff.1 decoded with ⟨before, parsed, accepted⟩
  have within := Json.within_of_parse parsed
  rcases sound_of_ofDocument within.1 accepted with ⟨sound, keeps, nulls⟩
  have reorders := reorders_document within.1 accepted
  have stillDurable : record.document.Durable :=
    (Json.durable_iff_of_reorders reorders).1 (durable before parsed)
  have shallow : record.document.depth ≤ Json.Tree.levelLimit := by
    rw [Json.depth_of_reorders reorders]
    exact within.2
  have parsedAgain := parse_encode within accepted stillDurable layout
  have same : before.sameValue record.document = true :=
    Json.sameValue_of_reorders reorders within.1
  have vacant : ∀ pointer ∈ record.nulls, record.toJson.Vacant pointer.tokens := by
    have prunes := Json.Shape.prunes_of_keeps keeps
    intro pointer here
    rw [nulls, Json.mem_droppedNulls within.1 prunes] at here
    exact prunes.vacant_of_lost here
  have again : decode (record.encode layout) = .ok record := by
    rw [decode_encode sound stillDurable shallow layout,
      List.filter_eq_self.2 (by simpa using vacant)]
  refine ⟨⟨before, record.document, parsed, parsedAgain, reorders⟩, fun path => ?_, again, ?_⟩
  · simp [Command.reencode, Command.decode, decoded, parsed, parsedAgain, same, Except.mapError,
      bind, Except.bind]
  · rw [again]
    rfl

/-- A document with nulls of all sorts: of an unknown name, below an item of an array, in a
lenient field, and in the field that tells null from absence. -/
def withNulls : String :=
  "\x7b\"apiVersion\":\"v1\",\"kind\":\"Build\",\"note\":null," ++
  "\"metadata\":\x7b\"name\":null\x7d," ++
  "\"spec\":\x7b\"strategy\":\x7b\"type\":\"Custom\",\"customStrategy\":\x7b\"from\":" ++
  "\x7b\"name\":\"i\"\x7d,\"env\":[\x7b\"value\":null,\"name\":\"A\"\x7d]\x7d\x7d," ++
  "\"triggeredBy\":null\x7d," ++
  "\"status\":\x7b\"phase\":\"New\"\x7d\x7d"

theorem roundtrip_faithful_withNulls : ∃ record, decode withNulls = .ok record ∧
    Json.DurableText withNulls ∧
    record.nulls = [⟨["metadata", "name"]⟩,
      ⟨["spec", "strategy", "customStrategy", "env", "0", "value"]⟩] ∧
    Command.reencode "a.json" withNulls .pretty = .ok (record.encode .pretty) ∧
    decode (record.encode .pretty) = .ok record := by
  have evaluated : (decode withNulls).toOption.map nulls = some [⟨["metadata", "name"]⟩,
      ⟨["spec", "strategy", "customStrategy", "env", "0", "value"]⟩] := by decide +kernel
  have durable : Json.DurableText withNulls := by decide +kernel
  rcases Except.exists_ok_of_map evaluated with ⟨record, decoded, remembered⟩
  have faithful := roundtrip_faithful decoded durable .pretty
  exact ⟨record, decoded, durable, remembered, faithful.2.1 "a.json", faithful.2.2.1⟩

end Record
end ContainerBuild
