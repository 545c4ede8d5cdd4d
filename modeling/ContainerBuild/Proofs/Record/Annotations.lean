import ContainerBuild.Proofs.Json.ReadingBack
import ContainerBuild.Proofs.Outcomes
import ContainerBuild.Record.Metadata

namespace ContainerBuild

/-!
# The source image that an annotation carries

A reference to an image is written into an annotation as a text, and read from that text when it is
asked for.  A reference that holds no modelled name among its further members is read back whole if
its numbers last (`SourceImage.parse_text`), and every reference that is read has no such name
(`SourceImage.sound_of_parse`).  Setting one annotation leaves all the others alone.
-/

/-! ## References to images -/

namespace SourceImage

open Json (Fault Tree)

/-- A reference whose further members have names of their own and leave room for the object around
them. -/
def Sound (image : SourceImage) : Prop :=
  ∀ member ∈ image.extra.entries, member.1 ∉ fieldNames ∧ member.2.Within (Tree.levelLimit - 1)

/-- The fields of a reference. -/
def fields : List (Json.Field SourceImage) :=
  [.required "kind" .text kind, .required "name" .text name, .optional "namespace" .text nameSpace]

/-- The members of a reference. -/
def members (image : SourceImage) : Members Json := Json.writeFields fields extra image

theorem toJson_eq (image : SourceImage) : image.toJson = .object image.members := by
  simp [toJson, members, fields, Json.writeFields, Members.optional]

section Sound

variable {image : SourceImage}

theorem Sound.isRest (sound : image.Sound) :
    Json.IsRest (fields.map Json.Field.name) image.extra :=
  fun member here => ⟨(sound member here).1, (sound member here).2.1⟩

theorem Sound.wellFormed (sound : image.Sound) : (Json.object image.members).WellFormed := by
  refine Json.wellFormed_writeFields (by decide) (fun field here => ?_) sound.isRest
  simp only [fields, List.mem_cons, List.not_mem_nil, or_false] at here
  rcases here with rfl | rfl | rfl <;> simp

theorem Sound.lookup (sound : image.Sound) {field : Json.Field SourceImage}
    (here : field ∈ fields) : image.members.lookup field.name = field.written image :=
  Json.lookup_writeFields_of_mem (by decide) sound.isRest here

theorem Sound.unknown (sound : image.Sound) :
    Members.unknown image.members fieldNames = image.extra.entries :=
  Json.Tree.unknown_writeFields sound.isRest

/-- A reference is read from the tree of its value. -/
theorem ofTree_toTree (sound : image.Sound) : ofTree image.toJson.toTree = .ok image := by
  have distinct : image.members.names.Nodup := sound.wellFormed.1
  have kind : (Tree.Fields.ofMembers image.members).required "kind" (Tree.scalar Json.asString) =
      .found image.kind := by
    have written := sound.lookup (List.mem_cons_self : Json.Field.required "kind" _ _ ∈ fields)
    exact (Tree.Fields.once_ofMembers_iff distinct).2 (.inr ⟨_, written, rfl⟩)
  have name : (Tree.Fields.ofMembers image.members).required "name" (Tree.scalar Json.asString) =
      .found image.name := by
    have written := sound.lookup
      (by simp [fields] : Json.Field.required "name" .text name ∈ fields)
    exact (Tree.Fields.once_ofMembers_iff distinct).2 (.inr ⟨_, written, rfl⟩)
  have nameSpace : (Tree.Fields.ofMembers image.members).optional "namespace"
      (Tree.scalar Json.asString) = .found image.nameSpace := by
    have written := sound.lookup
      (by simp [fields] : Json.Field.optional "namespace" .text nameSpace ∈ fields)
    refine (Tree.Fields.once_ofMembers_iff distinct).2 ?_
    cases given : image.nameSpace with
    | none => exact .inl ⟨by rw [Json.Field.optional_name] at written; simp [written, given], rfl⟩
    | some text => exact .inr ⟨.string text, by simpa [given] using written, rfl⟩
  have extra : (Tree.Fields.ofMembers image.members).others fieldNames
      (Tree.generic (Tree.levelLimit - 1)) = .found image.extra.entries := by
    rw [← sound.unknown]
    refine Tree.Fields.others_ofMembers fun member here => ?_
    rw [sound.unknown] at here
    exact (sound member here).2
  rw [toJson_eq, Json.toTree, ofTree]
  refine Tree.askObject_ok_iff.2 ⟨_, _, rfl, ?_⟩
  simp only [Json.Answer.seq_found_iff, Json.Answer.map_found_iff]
  exact ⟨_, _, ⟨_, _, ⟨_, _, ⟨_, kind, rfl⟩, name, rfl⟩, nameSpace, rfl⟩, ⟨_, extra, rfl⟩,
    by rw [Dict.ofList_entries]⟩

/-- The text of a reference is read as the reference, if its numbers last. -/
theorem parse_text (sound : image.Sound) (durable : image.toJson.Durable) :
    parse image.text = .ok image := by
  have wellFormed : image.toJson.WellFormed := toJson_eq image ▸ sound.wellFormed
  rw [parse, text, Json.compact,
    Json.ofText_of_spells (Json.spells_write Json.legible_dense wellFormed durable)]
  exact Json.Document.read_ok_iff.2 ⟨ofTree_toTree sound, rfl⟩

/-- A reference that is read from a text is sound. -/
theorem sound_of_parse {text : String} (read : parse text = .ok image) : image.Sound := by
  rcases Tree.askObject_ok_iff.1 (Json.Document.read_ok_iff.1 read).1 with
    ⟨members, closed, whole, asked⟩
  have fits := Tree.fits_ofText text
  simp only [Json.Answer.seq_found_iff, Json.Answer.map_found_iff] at asked
  rcases asked with ⟨_, _, ⟨_, _, ⟨_, _, ⟨_, -, rfl⟩, -, rfl⟩, -, rfl⟩, ⟨pairs, found, rfl⟩, rfl⟩
  rcases Tree.Fields.others_found_iff.1 found with ⟨-, named, sameMembers, each⟩
  have namedFits : ∀ member ∈ named, member.2.Fits := by
    rw [whole] at fits
    exact Tree.fits_of_fitsMembers (sameMembers ▸ fits)
  have chosen : ∀ member ∈ named.filter fun member => !fieldNames.contains member.1,
      member.1 ∉ fieldNames ∧ member.2.Fits := by
    intro member here
    have parts := List.mem_filter.1 here
    exact ⟨by simpa using parts.2, namedFits member parts.1⟩
  have both := (List.forall₂_and_left _ _).2 ⟨chosen, each⟩
  intro member here
  rcases Json.exists_of_forall₂ (List.Forall₂.flip both) (Dict.mem_of_mem_ofList here) with
    ⟨tree, ⟨unknown, treeFits⟩, sameName, value⟩
  exact ⟨sameName ▸ unknown, Tree.within_of_value? treeFits (Tree.generic_ok_iff.1 value)⟩

end Sound

end SourceImage

/-! ## Annotations -/

namespace Metadata

variable (metadata : Metadata)

theorem annotation?_annotate_self (key value : String) :
    (metadata.annotate key value).annotation? key = some value :=
  Dict.get?_insert_self _ key value

theorem annotation?_annotate_of_ne {key other : String} (value : String) (different : other ≠ key) :
    (metadata.annotate key value).annotation? other = metadata.annotation? other := by
  refine (Dict.get?_insert_of_ne (metadata.annotations.getD .empty) value different).trans ?_
  rw [annotation?]
  cases metadata.annotations <;> rfl

/-- An annotation that is there can be set again. -/
theorem annotate_of_annotation? {metadata : Metadata} {key value : String}
    (there : metadata.annotation? key = some value) : metadata.annotate key value = metadata := by
  rcases Option.bind_eq_some_iff.1 there with ⟨annotations, given, kept⟩
  rw [annotate, given, Option.getD_some, Dict.insert_of_get? kept, ← given]

/-- Setting a reference to the source image touches nothing but its annotation.  If the numbers of
the reference last, it is the one that is found from then on, and setting what is found once more
changes nothing.  Whatever is found in any annotation can be set. -/
theorem setSourceImage_restores {image : SourceImage} (sound : image.Sound) :
    let set := metadata.setSourceImage image
    (image.toJson.Durable → set.sourceImage = .ok (some image) ∧
      ∀ again, set.sourceImage = .ok (some again) → set.setSourceImage again = set) ∧
    (∀ key ≠ sourceImageKey, set.annotation? key = metadata.annotation? key) ∧
    set.pod? = metadata.pod? ∧
    { set with annotations := metadata.annotations } = metadata ∧
    ∀ text read, SourceImage.parse text = .ok read → read.Sound := by
  intro set
  have there : set.annotation? sourceImageKey = some image.text :=
    metadata.annotation?_annotate_self _ _
  have found (durable : image.toJson.Durable) : set.sourceImage = .ok (some image) := by
    rw [sourceImage, there]
    simp only [SourceImage.parse_text sound durable]
    rfl
  have others : ∀ key ≠ sourceImageKey, set.annotation? key = metadata.annotation? key :=
    fun key different => metadata.annotation?_annotate_of_ne _ different
  refine ⟨fun durable => ⟨found durable, fun again same => ?_⟩, others, others podKey (by decide),
    rfl, fun text read done => SourceImage.sound_of_parse done⟩
  have again_eq : again = image :=
    (Option.some.inj (Except.ok.inj ((found durable).symm.trans same))).symm
  rw [again_eq]
  exact annotate_of_annotation? there

/-- A reference with quotes and a line end in its name, and further members that look like its
fields further down. -/
def quotedImage : SourceImage where
  kind := "ImageStreamTag"
  name := "quay.io/\"fedora\"\n:40"
  nameSpace := some ""
  extra := Dict.ofList [("tags", .array [.null, .object [("name", .number (.integer (-1)))]]),
    ("Kind", .number (.float (Binary64.zero true)))]

/-- Metadata with annotations. -/
def podded : Metadata :=
  { blank with annotations := some (Dict.ofList [("from", "\x7b"), (podKey, "b-1-build")]) }

theorem setSourceImage_restores_quotedImage :
    quotedImage.Sound ∧ quotedImage.toJson.Durable ∧
    (podded.setSourceImage quotedImage).sourceImage = .ok (some quotedImage) ∧
    (podded.setSourceImage quotedImage).pod? = some "b-1-build" ∧
    (podded.setSourceImage quotedImage).annotation? "from" = some
      ("\x7b\"kind\":\"ImageStreamTag\",\"name\":\"quay.io/\\\"fedora\\\"\\n:40\"," ++
        "\"namespace\":\"\",\"Kind\":-0.0,\"tags\":[null,\x7b\"name\":-1\x7d]\x7d") := by
  have entries : quotedImage.extra.entries =
      [("Kind", .number (.float (Binary64.zero true))),
        ("tags", .array [.null, .object [("name", .number (.integer (-1)))]])] := by
    decide +kernel
  have sound : quotedImage.Sound := by
    rw [SourceImage.Sound, entries, List.forall_mem_cons, List.forall_mem_singleton]
    refine ⟨⟨by decide, trivial, by decide⟩, by decide, ?_, by decide⟩
    simp [Json.WellFormed, Json.WellFormedItems, Json.WellFormedMembers, Json.Number.IsInteger64]
  have durable : quotedImage.toJson.Durable := by decide +kernel
  have restores := podded.setSourceImage_restores sound
  exact ⟨sound, durable, (restores.1 durable).1, restores.2.2.1.trans (by decide +kernel),
    by decide +kernel⟩

/-- The text of a reference with a number that does not last. -/
def unsteadyImage : String := "\x7b\"kind\":\"DockerImage\",\"name\":\"i\",\"x\":5e32\x7d"

/-- Such a reference is not the one that is found once it is set, and setting what is found changes
the annotation. -/
theorem setSourceImage_unsteady : ∃ image found, SourceImage.parse unsteadyImage = .ok image ∧
    (podded.setSourceImage image).sourceImage = .ok (some found) ∧ found ≠ image ∧
    (podded.setSourceImage image).setSourceImage found ≠ podded.setSourceImage image := by
  have evaluated : (SourceImage.parse unsteadyImage).toOption.any (fun image =>
      (podded.setSourceImage image).sourceImage.toOption.any (·.any fun found =>
        decide (found ≠ image ∧
          (podded.setSourceImage image).setSourceImage found ≠ podded.setSourceImage image))) =
        true := by
    decide +kernel
  rcases Except.exists_ok_of_any evaluated with ⟨image, parsed, set⟩
  rcases Except.exists_ok_of_any set with ⟨found?, again, differs⟩
  cases found? with
  | none => cases differs
  | some found => exact ⟨image, found, parsed, again, of_decide_eq_true differs⟩

end Metadata
end ContainerBuild
