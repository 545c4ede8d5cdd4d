import ContainerBuild.Proofs.Json.Reordering
import ContainerBuild.Proofs.Json.Spelling
import ContainerBuild.Proofs.Json.Unambiguity

namespace ContainerBuild
namespace Json

/-!
# Payloads

A string may carry a whole value as its text.  Both styles of such a payload are read back if the
value is durable, and the spaced one is a normal form besides: one text for all orders of members,
in ASCII throughout.
-/

/-! ## Plain ASCII -/

section Numerals

open Numeral

/-- The characters that numerals are written with. -/
def IsNumeric (c : Char) : Prop := c.isDigit = true ∨ c ∈ ['-', '.', 'e', '+']

instance (c : Char) : Decidable (IsNumeric c) := by unfold IsNumeric; infer_instance

theorem isNumeric_of_mem_decimalDigits {value : Nat} :
    ∀ c ∈ decimalDigits value, IsNumeric c :=
  fun _ member => Or.inl (isDigit_of_mem_decimalDigits member)

theorem isNumeric_of_mem_positional {run : List Char} {exponent : Int}
    (numeric : ∀ c ∈ run, IsNumeric c) :
    ∀ c ∈ FloatLayout.positional run exponent, IsNumeric c := by
  have zeros (count : Nat) : ∀ c ∈ List.replicate count '0', IsNumeric c :=
    fun c member => Or.inl (isDigit_of_mem_zeros member)
  have zero : IsNumeric '0' := by decide
  have point : IsNumeric '.' := by decide
  intro c member
  simp only [FloatLayout.positional] at member
  split at member
  · simp only [List.mem_append, List.mem_cons, List.not_mem_nil, or_false] at member
    rcases member with (digit | digit) | rfl | rfl
    · exact numeric c digit
    · exact zeros _ c digit
    · exact point
    · exact zero
  split at member
  · simp only [List.mem_append, List.mem_cons] at member
    rcases member with digit | rfl | digit
    · exact numeric c (List.mem_of_mem_take digit)
    · exact point
    · exact numeric c (List.mem_of_mem_drop digit)
  · simp only [List.mem_append, List.mem_cons] at member
    rcases member with rfl | rfl | digit | digit
    · exact zero
    · exact point
    · exact zeros _ c digit
    · exact numeric c digit

theorem isNumeric_of_mem_scientific {run : List Char} {exponent : Int}
    (numeric : ∀ c ∈ run, IsNumeric c) :
    ∀ c ∈ FloatLayout.scientific run exponent, IsNumeric c := by
  intro c member
  simp only [FloatLayout.scientific, List.mem_append, List.mem_cons] at member
  rcases member with mantissa | rfl | signed | digit
  · split at mantissa
    next first second rest =>
      simp only [List.mem_cons] at mantissa
      rcases mantissa with rfl | rfl | rfl | later
      · exact numeric _ List.mem_cons_self
      · decide
      · exact numeric _ (List.mem_cons_of_mem _ List.mem_cons_self)
      · exact numeric _ (List.mem_cons_of_mem _ (List.mem_cons_of_mem _ later))
    next => exact numeric c mantissa
  · decide
  · rw [signed]
    split <;> decide
  · exact isNumeric_of_mem_decimalDigits c digit

theorem isNumeric_of_mem_text {number : Number} {c : Char} (member : c ∈ number.text) :
    IsNumeric c := by
  cases number with
  | integer value =>
      rw [Number.text, integerText_eq] at member
      rcases List.mem_append.1 member with signed | digit
      · rw [sign] at signed
        split at signed
        · rw [List.mem_singleton.1 signed]
          decide
        · cases signed
      · exact isNumeric_of_mem_decimalDigits c digit
  | float value =>
      rw [Number.text, floatText_eq] at member
      rcases List.mem_append.1 member with signed | unsigned
      · rw [sign] at signed
        split at signed
        · rw [List.mem_singleton.1 signed]
          decide
        · cases signed
      · split at unsigned
        · have zero : ∀ c ∈ ['0', '.', '0'], IsNumeric c := by
            simp only [List.mem_cons, List.not_mem_nil, or_false, forall_eq_or_imp, forall_eq]
            decide
          exact zero c unsigned
        · simp only [FloatLayout.text] at unsigned
          split at unsigned
          · exact isNumeric_of_mem_positional isNumeric_of_mem_decimalDigits c unsigned
          · exact isNumeric_of_mem_scientific isNumeric_of_mem_decimalDigits c unsigned

end Numerals

open Quoted (IsPlainAscii isPlainAscii_of_mem_write)

theorem IsNumeric.isPlainAscii {c : Char} (numeric : IsNumeric c) : IsPlainAscii c := by
  rcases numeric with digit | listed
  · have bounds : 48 ≤ c.toNat ∧ c.toNat ≤ 57 := by
      simpa [Char.isDigit, UInt32.le_iff_toNat_le] using digit
    exact ⟨by omega, by omega⟩
  · have signs : ∀ c ∈ ['-', '.', 'e', '+'], IsPlainAscii c := by
      simp only [List.mem_cons, List.not_mem_nil, or_false, forall_eq_or_imp, forall_eq]
      decide
    exact signs c listed

/-- A style that escapes what is not ASCII and separates by plain ASCII. -/
structure Style.Plain (style : Style) : Prop where
  ascii : style.ascii = true
  comma : ∀ c ∈ style.comma, IsPlainAscii c
  colon : ∀ c ∈ style.colon, IsPlainAscii c

theorem plain_spaced : Style.spaced.Plain :=
  ⟨rfl, List.forall_mem_cons.2 ⟨by decide, List.forall_mem_singleton.2 (by decide)⟩,
    List.forall_mem_cons.2 ⟨by decide, List.forall_mem_singleton.2 (by decide)⟩⟩

mutual

/-- A plain style writes plain ASCII. -/
theorem isPlainAscii_of_mem_writeValue {style : Style} (plain : style.Plain) : ∀ (value : Json),
    ∀ c ∈ value.write style, IsPlainAscii c
  | .null => by
      have word : ∀ c ∈ ['n', 'u', 'l', 'l'], IsPlainAscii c := by
        simp only [List.mem_cons, List.not_mem_nil, or_false, forall_eq_or_imp, forall_eq]
        decide
      exact word
  | .bool value => by
      have words : ∀ c ∈ boolText value, IsPlainAscii c := by
        rw [boolText]
        split <;>
          simp only [List.mem_cons, List.not_mem_nil, or_false, forall_eq_or_imp, forall_eq] <;>
          decide
      exact words
  | .number _ => fun _ member => (isNumeric_of_mem_text member).isPlainAscii
  | .string value => by
      intro c member
      rw [write, plain.ascii] at member
      exact isPlainAscii_of_mem_write member
  | .array items => by
      intro c member
      simp only [write, List.mem_append, List.mem_cons, List.not_mem_nil, or_false] at member
      rcases member with (rfl | inside) | rfl
      · decide
      · exact isPlainAscii_of_mem_writeItems plain items c inside
      · decide
  | .object members => by
      intro c member
      simp only [write, List.mem_append, List.mem_cons, List.not_mem_nil, or_false] at member
      rcases member with (rfl | inside) | rfl
      · decide
      · exact isPlainAscii_of_mem_writeMembers plain members c inside
      · decide

theorem isPlainAscii_of_mem_writeItems {style : Style} (plain : style.Plain) :
    ∀ (items : List Json), ∀ c ∈ writeItems style items, IsPlainAscii c
  | [], _, member => absurd member List.not_mem_nil
  | [item], c, member => isPlainAscii_of_mem_writeValue plain item c member
  | item :: next :: rest, c, member => by
      rw [writeItems, List.mem_append, List.mem_append] at member
      · rcases member with (inside | comma) | later
        · exact isPlainAscii_of_mem_writeValue plain item c inside
        · exact plain.comma c comma
        · exact isPlainAscii_of_mem_writeItems plain (next :: rest) c later
      · exact List.cons_ne_nil next rest

theorem isPlainAscii_of_mem_writeMembers {style : Style} (plain : style.Plain) :
    ∀ (members : List (String × Json)), ∀ c ∈ writeMembers style members, IsPlainAscii c
  | [], _, member => absurd member List.not_mem_nil
  | [(name, value)], c, member => by
      rw [writeMembers, plain.ascii, List.mem_append, List.mem_append] at member
      rcases member with (quoted | colon) | inside
      · exact isPlainAscii_of_mem_write quoted
      · exact plain.colon c colon
      · exact isPlainAscii_of_mem_writeValue plain value c inside
  | (name, value) :: next :: rest, c, member => by
      rw [writeMembers, plain.ascii, List.mem_append, List.mem_append, List.mem_append,
        List.mem_append] at member
      · rcases member with (((quoted | colon) | inside) | comma) | later
        · exact isPlainAscii_of_mem_write quoted
        · exact plain.colon c colon
        · exact isPlainAscii_of_mem_writeValue plain value c inside
        · exact plain.comma c comma
        · exact isPlainAscii_of_mem_writeMembers plain (next :: rest) c later
      · exact List.cons_ne_nil next rest

end

/-! ## Reading payloads back -/

variable {value : Json}

theorem wellFormed_sortMembers (wellFormed : value.WellFormed) : value.sortMembers.WellFormed :=
  wellFormed_of_reorders (reorders_sortMembers wellFormed) wellFormed

theorem depth_sortMembers (wellFormed : value.WellFormed) :
    value.sortMembers.depth = value.depth :=
  depth_of_reorders (reorders_sortMembers wellFormed)

theorem sortMembers_sortMembers (wellFormed : value.WellFormed) :
    value.sortMembers.sortMembers = value.sortMembers :=
  sortMembers_of_sorted (sorted_sortMembers wellFormed)

theorem durable_sortMembers (wellFormed : value.WellFormed) (durable : value.Durable) :
    value.sortMembers.Durable :=
  (durable_iff_of_reorders (reorders_sortMembers wellFormed)).1 durable

/-- Spaced payloads agree just when their values are the same up to the order of members. -/
theorem payload_spaced_eq_iff {other : Json} (wellFormed : value.WellFormed)
    (otherWellFormed : other.WellFormed) :
    value.payload .spaced = other.payload .spaced ↔ Reorders value other := by
  rw [reorders_iff_sortMembers_eq wellFormed, payload, payload, spaced, spaced, String.ofList_inj,
    write_inj legible_spaced (wellFormed_sortMembers wellFormed)
      (wellFormed_sortMembers otherWellFormed)]

section Durable

variable (wellFormed : value.WellFormed) (durable : value.Durable)
  (shallow : value.depth ≤ Tree.levelLimit)

include wellFormed durable shallow

theorem parse_compact : parse (value.payload .compact) = .ok value :=
  parse_of_spells (spells_write legible_dense wellFormed durable) wellFormed shallow

theorem parse_spaced : parse (value.payload .spaced) = .ok value.sortMembers := by
  have sortedWellFormed := wellFormed_sortMembers wellFormed
  refine parse_of_spells (spells_write legible_spaced sortedWellFormed
    (durable_sortMembers wellFormed durable)) sortedWellFormed ?_
  rw [depth_sortMembers wellFormed]
  exact shallow

/-- Writing what a payload says gives the payload again. -/
theorem payload_of_parse (style : PayloadStyle) :
    (parse (value.payload style)).map (payload style) = .ok (value.payload style) := by
  cases style with
  | compact => rw [parse_compact wellFormed durable shallow, Except.map]
  | spaced =>
      rw [parse_spaced wellFormed durable shallow, Except.map, payload, payload,
        sortMembers_sortMembers wellFormed]

end Durable

/-- Payloads are faithful.  Those of a durable value are read back: the compact one keeps the order
of members, and the spaced one sorts them.  The spaced one is a normal form up to that order, in
plain ASCII. -/
theorem payload_faithful (value : Json) (wellFormed : value.WellFormed)
    (shallow : value.depth ≤ Tree.levelLimit) :
    (value.Durable →
      parse (value.payload .compact) = .ok value ∧
      (∃ sorted, parse (value.payload .spaced) = .ok sorted ∧ Reorders value sorted ∧
        sorted.Sorted) ∧
      ∀ style, (parse (value.payload style)).map (payload style) = .ok (value.payload style)) ∧
    (∀ c ∈ (value.payload .spaced).toList, IsPlainAscii c) ∧
    ∀ other : Json, other.WellFormed →
      (value.payload .spaced = other.payload .spaced ↔ Reorders value other) := by
  refine ⟨fun durable => ⟨parse_compact wellFormed durable shallow, ?_,
    payload_of_parse wellFormed durable shallow⟩, ?_, ?_⟩
  · exact ⟨value.sortMembers, parse_spaced wellFormed durable shallow,
      reorders_sortMembers wellFormed, sorted_sortMembers wellFormed⟩
  · rw [payload, spaced, String.toList_ofList]
    exact isPlainAscii_of_mem_writeValue plain_spaced value.sortMembers
  · exact fun other otherWellFormed => payload_spaced_eq_iff wellFormed otherWellFormed

/-- Names out of order, a character beyond ASCII, a negative zero and the greatest integer. -/
def outOfOrder : Json :=
  .object [("z", .array [.number (.float (Binary64.zero true)),
      .number (.integer 18446744073709551615)]), ("a", .object [("😀\n", .null)])]

theorem payload_faithful_outOfOrder :
    parse (outOfOrder.payload .compact) = .ok outOfOrder ∧
      outOfOrder.payload .spaced =
        "\x7b\"a\": \x7b\"\\ud83d\\ude00\\n\": null\x7d, " ++
          "\"z\": [-0.0, 18446744073709551615]\x7d" ∧
      (parse (outOfOrder.payload .spaced)).map (payload .spaced) =
        .ok (outOfOrder.payload .spaced) := by
  have wellFormed : outOfOrder.WellFormed := by
    simp [outOfOrder, WellFormed, WellFormedMembers, WellFormedItems, Number.IsInteger64]
  have readBack := (payload_faithful outOfOrder wellFormed (by decide)).1 (by decide +kernel)
  exact ⟨readBack.1, by decide, readBack.2.2 .spaced⟩

end Json
end ContainerBuild
