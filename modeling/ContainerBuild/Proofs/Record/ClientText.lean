import ContainerBuild.Proofs.Json.Payload
import ContainerBuild.Proofs.Plugin.Frame
import ContainerBuild.Record.UserParams

namespace ContainerBuild

/-!
# The texts of the build client

The client writes its parameters by `json.dumps` with sorted keys, and the spaced payload is
meant to be the same text.  `Json.clientText` says what the client writes, on its own terms;
floating-point numbers have rules of their own there, so how they are written is a parameter.

The two texts differ in one character.  The client has an escape for everything outside the
range from the blank to the tilde, and the payload leaves DEL as it is: the client's text is the
payload with every DEL escaped (`clientText_eq`).
-/

namespace Json

/-! ## What the client writes -/

/-- Four digits of base sixteen, in lower case. -/
def fourHexDigits (unit : Nat) : List Char := (Nat.toDigits 16 unit).leftpad 4 '0'

/-- An escape by number. -/
def clientUnit (unit : Nat) : List Char := ['\\', 'u'] ++ fourHexDigits unit

/-- A character in the client's text. -/
def clientChar (c : Char) : List Char :=
  match c with
  | '"' => ['\\', '"']
  | '\\' => ['\\', '\\']
  | '\x08' => ['\\', 'b']
  | '\x0c' => ['\\', 'f']
  | '\n' => ['\\', 'n']
  | '\r' => ['\\', 'r']
  | '\t' => ['\\', 't']
  | c =>
      if ' ' ≤ c ∧ c ≤ '~' then [c]
      else if c.toNat < 0x10000 then clientUnit c.toNat
      else clientUnit (0xD800 + (c.toNat - 0x10000) / 0x400) ++
        clientUnit (0xDC00 + (c.toNat - 0x10000) % 0x400)

/-- A string in the client's text. -/
def clientString (text : String) : List Char :=
  '"' :: text.toList.flatMap clientChar ++ ['"']

/-- Members by ascending names; names compare by code points. -/
def byName {α : Type} (members : Members α) : Members α :=
  members.mergeSort fun first second => first.1 ≤ second.1

section ClientText

variable (float : Binary64 → List Char)

mutual

/-- The client's text of a value. -/
def clientText : Json → List Char
  | .null => ['n', 'u', 'l', 'l']
  | .bool true => ['t', 'r', 'u', 'e']
  | .bool false => ['f', 'a', 'l', 's', 'e']
  | .number (.integer value) => (toString value).toList
  | .number (.float value) => float value
  | .string text => clientString text
  | .array items => ['['] ++ [',', ' '].intercalate (clientItems items) ++ [']']
  | .object members =>
      let texts := (byName (clientMembers members)).map fun member =>
        clientString member.1 ++ [':', ' '] ++ member.2
      ['{'] ++ [',', ' '].intercalate texts ++ ['}']

/-- The client's texts of items. -/
def clientItems : List Json → List (List Char)
  | [] => []
  | item :: rest => clientText item :: clientItems rest

/-- The names of members and the client's texts of their values. -/
def clientMembers : List (String × Json) → List (String × List Char)
  | [] => []
  | (name, value) :: rest => (name, clientText value) :: clientMembers rest

end

end ClientText

/-- No floating-point number occurs in a value. -/
def FloatFree (value : Json) : Prop := value.floats = []

mutual

/-- A character occurs in a string or a name of a value. -/
def Mentions (c : Char) : Json → Prop
  | .string text => c ∈ text.toList
  | .array items => MentionsInItems c items
  | .object members => MentionsInMembers c members
  | _ => False

/-- A character occurs in an item. -/
def MentionsInItems (c : Char) : List Json → Prop
  | [] => False
  | item :: rest => item.Mentions c ∨ MentionsInItems c rest

/-- A character occurs in a name or in the value under it. -/
def MentionsInMembers (c : Char) : List (String × Json) → Prop
  | [] => False
  | (name, value) :: rest => (c ∈ name.toList ∨ value.Mentions c) ∨ MentionsInMembers c rest

end

/-! ## DEL, escaped -/

/-- A text with an escape for every DEL. -/
def escapeDelete (text : List Char) : List Char :=
  text.flatMap fun c => if c = '\x7f' then ['\\', 'u', '0', '0', '7', 'f'] else [c]

theorem escapeDelete_append (text more : List Char) :
    escapeDelete (text ++ more) = escapeDelete text ++ escapeDelete more := List.flatMap_append

theorem escapeDelete_cons_of_ne {c : Char} (other : c ≠ '\x7f') (text : List Char) :
    escapeDelete (c :: text) = c :: escapeDelete text := by
  rw [escapeDelete, List.flatMap_cons, if_neg other]
  rfl

theorem escapeDelete_of_notMem {text : List Char} (absent : '\x7f' ∉ text) :
    escapeDelete text = text := by
  induction text with
  | nil => rfl
  | cons c rest inductionHypothesis =>
      have parts := not_or.1 (mt List.mem_cons.2 absent)
      rw [escapeDelete_cons_of_ne (Ne.symm parts.1), inductionHypothesis parts.2]

theorem delete_notMem_escapeDelete (text : List Char) : '\x7f' ∉ escapeDelete text := by
  intro here
  rcases List.mem_flatMap.1 here with ⟨c, -, written⟩
  split at written
  · exact absurd written (by decide)
  next other => exact other (List.mem_singleton.1 written).symm

theorem escapeDelete_eq_iff {text : List Char} : text = escapeDelete text ↔ '\x7f' ∉ text := by
  constructor
  · intro same
    rw [same]
    exact delete_notMem_escapeDelete text
  · exact fun absent => (escapeDelete_of_notMem absent).symm

theorem escapeDelete_intercalate (separator : List Char) (absent : '\x7f' ∉ separator)
    (texts : List (List Char)) :
    escapeDelete (separator.intercalate texts) =
      separator.intercalate (texts.map escapeDelete) := by
  induction texts with
  | nil => rfl
  | cons text rest inductionHypothesis =>
      cases rest with
      | nil => rw [List.map_singleton, List.intercalate_singleton, List.intercalate_singleton]
      | cons next rest =>
          rw [List.intercalate_cons_cons, List.map_cons, List.map_cons,
            List.intercalate_cons_cons, escapeDelete_append, escapeDelete_append,
            escapeDelete_of_notMem absent, inductionHypothesis, List.map_cons]

/-- The last of two digits or more, with zeros in front. -/
theorem leftpad_toDigits (count unit : Nat) : (Nat.toDigits 16 unit).leftpad (count + 2) '0' =
    (Nat.toDigits 16 (unit / 16)).leftpad (count + 1) '0' ++ [Nat.digitChar (unit % 16)] := by
  by_cases small : unit < 16
  · have none : unit / 16 = 0 := Nat.div_eq_of_lt small
    rw [Nat.toDigits_of_lt_base small, none, Nat.mod_eq_of_lt small]
    simp only [List.leftpad, List.length_singleton, Nat.toDigits_zero, Nat.add_sub_cancel]
    rw [← List.replicate_succ']
    rfl
  · rw [Nat.toDigits_of_base_le (by decide) (Nat.le_of_not_lt small)]
    simp only [List.leftpad, List.length_append, List.length_singleton, List.append_assoc]
    rw [Nat.succ_sub_succ (count + 1)]

theorem clientUnit_eq {unit : Nat} (small : unit < 0x10000) :
    clientUnit unit = Quoted.unitEscape unit := by
  have first : unit / 16 / 16 / 16 < 16 := by omega
  have digits : fourHexDigits unit = [Nat.digitChar (unit / 16 / 16 / 16),
      Nat.digitChar (unit / 16 / 16 % 16), Nat.digitChar (unit / 16 % 16),
      Nat.digitChar (unit % 16)] := by
    rw [fourHexDigits, leftpad_toDigits, leftpad_toDigits, leftpad_toDigits,
      Nat.toDigits_of_lt_base first]
    rfl
  have position (power : Nat) : Quoted.hexDigit unit power =
      Nat.digitChar (unit / 16 ^ power % 16) := by
    rw [Quoted.hexDigit, Nat.shiftRight_eq_div_pow, Nat.pow_mul]
  rw [clientUnit, digits, Quoted.unitEscape, position, position, position, position]
  have whole : unit / 16 ^ 3 % 16 = unit / 16 / 16 / 16 := by omega
  have second : unit / 16 ^ 2 % 16 = unit / 16 / 16 % 16 := by omega
  rw [whole, second, Nat.pow_one, Nat.pow_zero, Nat.div_one]
  rfl

theorem clientUnits_eq (c : Char) :
    (if c.toNat < 0x10000 then clientUnit c.toNat
      else clientUnit (0xD800 + (c.toNat - 0x10000) / 0x400) ++
        clientUnit (0xDC00 + (c.toNat - 0x10000) % 0x400)) =
      (Quoted.units c).flatMap Quoted.unitEscape := by
  have small : ∀ unit ∈ Quoted.units c, unit < 0x10000 := fun _ => Quoted.unit_lt_of_mem_units
  rw [← List.flatMap_congr fun unit here => clientUnit_eq (small unit here), Quoted.units]
  split
  · exact (List.flatMap_singleton ..).symm
  · simp only [List.flatMap_cons, List.flatMap_nil, List.append_nil]

theorem delete_notMem_unitEscape (unit : Nat) : '\x7f' ∉ Quoted.unitEscape unit := by
  have digit : ∀ digit < 16, '\x7f' ≠ Nat.digitChar digit := by decide
  simp only [Quoted.unitEscape, Quoted.hexDigit, List.mem_cons, List.not_mem_nil, or_false, not_or]
  exact ⟨by decide, by decide, digit _ (Nat.mod_lt _ (by decide)),
    digit _ (Nat.mod_lt _ (by decide)), digit _ (Nat.mod_lt _ (by decide)),
    digit _ (Nat.mod_lt _ (by decide))⟩

/-- The client writes every character but DEL as the payload does. -/
theorem clientChar_eq_of_ne {c : Char} (other : c ≠ '\x7f') :
    clientChar c = Quoted.escape true c := by
  unfold clientChar
  split
  · rfl
  · rfl
  · rfl
  · rfl
  · rfl
  · rfl
  · rfl
  next notQuote notBackslash notBack notForm notNewline notReturn notTab =>
    rw [Quoted.escape, if_neg notQuote, if_neg notBackslash, if_neg notNewline, if_neg notReturn,
      if_neg notTab, if_neg notBack, if_neg notForm]
    by_cases raw : ' ' ≤ c ∧ c ≤ '~'
    · have bounds : 0x20 ≤ c.toNat ∧ c.toNat ≤ 0x7e := raw
      rw [if_pos raw, if_neg (by omega), if_neg (by omega)]
    · have outside : ¬ (0x20 ≤ c.toNat ∧ c.toNat ≤ 0x7e) := raw
      have notDelete : c.toNat ≠ 0x7f := fun same => other (Char.toNat_inj.1 same)
      rw [if_neg raw]
      by_cases control : c.toNat < 0x20
      · rw [if_pos control, if_pos (by omega), clientUnit_eq (by omega)]
      · have escaped : true = true ∧ 0x80 ≤ c.toNat := ⟨rfl, by omega⟩
        rw [if_neg control, if_pos escaped]
        exact clientUnits_eq c

theorem delete_notMem_clientChar (c : Char) : '\x7f' ∉ clientChar c := by
  unfold clientChar
  split
  · decide
  · decide
  · decide
  · decide
  · decide
  · decide
  · decide
  next =>
    split
    next raw =>
      intro here
      rw [← List.mem_singleton.1 here] at raw
      exact absurd raw (by decide)
    next =>
      rw [clientUnits_eq]
      intro here
      rcases List.mem_flatMap.1 here with ⟨unit, -, written⟩
      exact delete_notMem_unitEscape unit written

theorem delete_mem_escape_iff {c : Char} : '\x7f' ∈ Quoted.escape true c ↔ c = '\x7f' := by
  constructor
  · intro here
    refine Decidable.byContradiction fun other => ?_
    rw [← clientChar_eq_of_ne other] at here
    exact delete_notMem_clientChar c here
  · rintro rfl
    decide

theorem clientChar_eq (c : Char) : clientChar c = escapeDelete (Quoted.escape true c) := by
  by_cases delete : c = '\x7f'
  · rw [delete]
    decide
  · rw [escapeDelete_of_notMem (mt delete_mem_escape_iff.1 delete), clientChar_eq_of_ne delete]

/-! ## Strings -/

theorem clientString_eq (text : String) :
    clientString text = escapeDelete (Quoted.write true text) := by
  have inside : escapeDelete (text.toList.flatMap (Quoted.escape true)) =
      text.toList.flatMap clientChar := by
    rw [escapeDelete, List.flatMap_assoc]
    exact List.flatMap_congr fun c _ => (clientChar_eq c).symm
  rw [clientString, Quoted.write, List.cons_append, List.cons_append,
    escapeDelete_cons_of_ne (by decide), escapeDelete_append, inside]
  rfl

theorem delete_mem_write_iff {text : String} :
    '\x7f' ∈ Quoted.write true text ↔ '\x7f' ∈ text.toList := by
  simp [Quoted.write, delete_mem_escape_iff]

/-- The client's strings are read back. -/
theorem quotes_clientString (text : String) : Quoted.Quotes text (clientString text) := by
  refine Quoted.quotes_flatMap true (fun c rest => ?_) text
  by_cases delete : c = '\x7f'
  · have small : 0x7f < 0x10000 := by decide
    rw [delete]
    exact Quoted.scan_unitEscape small rest
  · rw [clientChar_eq_of_ne delete]
    exact Quoted.scan_escape true c rest

/-! ## Values -/

variable {float : Binary64 → List Char}

theorem delete_notMem_text (number : Number) : '\x7f' ∉ number.text := by
  intro here
  rcases isNumeric_of_mem_text here with digit | sign
  · exact absurd digit (by decide)
  · exact absurd sign (by decide)

theorem integerText_eq_toString (value : Int) : integerText value = (toString value).toList := by
  cases value with
  | ofNat value =>
      rw [integerText, if_neg (by simp), decimalDigits, ← Nat.toList_repr]
      rfl
  | negSucc value =>
      rw [integerText, if_pos (Int.negSucc_lt_zero value), decimalDigits, ← Nat.toList_repr]
      change _ = ("-" ++ Nat.repr (value + 1)).toList
      rw [String.toList_append]
      rfl

/-- DELs within brackets, between commas. -/
theorem escapeDelete_enclosed {α : Type} {opening closing : Char} {text : List Char}
    {parts : List α} {spell : α → List Char} (openingOther : opening ≠ '\x7f')
    (closingOther : closing ≠ '\x7f') (same : text = [',', ' '].intercalate (parts.map spell)) :
    escapeDelete (opening :: text ++ [closing]) =
      [opening] ++ [',', ' '].intercalate (parts.map fun part => escapeDelete (spell part)) ++
        [closing] := by
  have end' : escapeDelete [closing] = [closing] :=
    escapeDelete_of_notMem fun here => closingOther (List.mem_singleton.1 here).symm
  rw [escapeDelete_append, escapeDelete_cons_of_ne openingOther, end', same,
    escapeDelete_intercalate _ (by decide), List.map_map]
  rfl

theorem byName_perm {α : Type} (members : Members α) : (byName members).Perm members :=
  List.mergeSort_perm members _

theorem byName_ascending {α : Type} {members : Members α}
    (distinct : (members.map Prod.fst).Nodup) :
    (byName members).Pairwise fun first second => first.1 < second.1 := by
  have transitive : ∀ first second third : String × α, decide (first.1 ≤ second.1) = true →
      decide (second.1 ≤ third.1) = true → decide (first.1 ≤ third.1) = true := by
    intro first second third before after
    exact decide_eq_true (Std.le_trans (of_decide_eq_true before) (of_decide_eq_true after))
  have total : ∀ first second : String × α,
      (decide (first.1 ≤ second.1) || decide (second.1 ≤ first.1)) = true := by
    intro first second
    have either : first.1 ≤ second.1 ∨ second.1 ≤ first.1 := Std.le_total
    simpa using either
  have sorted := List.pairwise_mergeSort transitive total members
  have names : ((byName members).map Prod.fst).Nodup :=
    ((byName_perm members).map Prod.fst).nodup_iff.2 distinct
  refine List.Pairwise.imp₂ (fun first second before differ => ?_) sorted
    (List.pairwise_map.1 names)
  exact Std.lt_of_le_of_ne (of_decide_eq_true before) differ

mutual

/-- The client's text of a value is the payload with every DEL escaped. -/
theorem clientText_eq : ∀ {value : Json}, value.WellFormed → value.FloatFree →
    clientText float value = escapeDelete (value.sortMembers.write .spaced)
  | .null, _, _ => rfl
  | .bool true, _, _ => rfl
  | .bool false, _, _ => rfl
  | .number (.integer value), _, _ => by
      rw [clientText, ← integerText_eq_toString]
      exact (escapeDelete_of_notMem (delete_notMem_text (.integer value))).symm
  | .number (.float _), _, free => absurd free (List.cons_ne_nil _ _)
  | .string text, _, _ => clientString_eq text
  | .array items, wellFormed, free => by
      rw [clientText, clientItems_eq wellFormed free, sortMembers, write]
      exact (escapeDelete_enclosed (by decide) (by decide)
        (writeItems_eq_intercalate .spaced (sortItems items))).symm
  | .object members, wellFormed, free => by
      have sorted : byName (clientMembers float members) = (sortedMembers members).map fun member =>
          (member.1, escapeDelete (member.2.write .spaced)) := by
        have names : (clientMembers float members).map Prod.fst = members.map Prod.fst := by
          rw [clientMembers_eq wellFormed.2 free, List.map_map]
          rfl
        refine eq_of_perm_of_ascending (byName_ascending (names ▸ wellFormed.1))
          (List.pairwise_map.2 (sortedMembers_ascending wellFormed.1)) ?_
        refine (byName_perm _).trans ?_
        rw [clientMembers_eq wellFormed.2 free]
        have shuffle := (sortedMembers_perm members).map fun member =>
          (member.1, escapeDelete (member.2.write .spaced))
        rw [List.map_map] at shuffle
        exact shuffle.symm
      rw [clientText, sortMembers, write, sorted, List.map_map]
      have member : (fun member : String × Json => escapeDelete (writeMember .spaced member)) =
          (fun member => clientString member.1 ++ [':', ' '] ++ member.2) ∘
            fun member => (member.1, escapeDelete (member.2.write .spaced)) := by
        funext member
        rw [writeMember, escapeDelete_append, escapeDelete_append]
        exact congrArg (· ++ _ ++ _) (clientString_eq member.1).symm
      rw [escapeDelete_enclosed (by decide) (by decide)
        (writeMembers_eq_intercalate .spaced (sortedMembers members)), member]

theorem clientItems_eq : ∀ {items : List Json}, WellFormedItems items → floatsOfItems items = [] →
    clientItems float items = (sortItems items).map fun item => escapeDelete (item.write .spaced)
  | [], _, _ => rfl
  | _ :: _, wellFormed, free => by
      have parts := List.append_eq_nil_iff.1 free
      rw [clientItems, sortItems, List.map_cons, clientText_eq wellFormed.1 parts.1,
        clientItems_eq wellFormed.2 parts.2]

theorem clientMembers_eq : ∀ {members : List (String × Json)}, WellFormedMembers members →
    floatsOfMembers members = [] → clientMembers float members =
      members.map fun member =>
        (member.1, escapeDelete (member.2.sortMembers.write .spaced))
  | [], _, _ => rfl
  | (name, value) :: _, wellFormed, free => by
      have parts := List.append_eq_nil_iff.1 free
      rw [clientMembers, List.map_cons, clientText_eq wellFormed.1 parts.1,
        clientMembers_eq wellFormed.2 parts.2]

end

/-! ## Values with a DEL -/

theorem mem_intercalate_map_iff {α : Type} {c : Char} {separator : List Char}
    (absent : c ∉ separator) {parts : List α} {spell : α → List Char} :
    c ∈ separator.intercalate (parts.map spell) ↔ ∃ part ∈ parts, c ∈ spell part := by
  induction parts with
  | nil => simp
  | cons part rest inductionHypothesis =>
      rw [List.exists_mem_cons_iff, ← inductionHypothesis]
      cases rest with
      | nil => simp
      | cons next rest =>
          rw [List.map_cons, List.map_cons, List.intercalate_cons_cons, List.mem_append,
            List.mem_append, or_iff_left absent]

theorem delete_mem_enclosed_iff {opening closing : Char} {text : List Char}
    (openingOther : opening ≠ '\x7f') (closingOther : closing ≠ '\x7f') :
    '\x7f' ∈ opening :: text ++ [closing] ↔ '\x7f' ∈ text := by
  simp [openingOther.symm, closingOther.symm]

theorem delete_mem_writeMember_iff {member : String × Json} :
    '\x7f' ∈ writeMember .spaced member ↔
      '\x7f' ∈ member.1.toList ∨ '\x7f' ∈ member.2.write .spaced := by
  have colon : '\x7f' ∉ Style.spaced.colon := by decide
  rw [writeMember, List.mem_append, List.mem_append, or_iff_left colon]
  exact or_congr_left delete_mem_write_iff

mutual

/-- DEL stands in a payload exactly if a string or a name has it. -/
theorem delete_mem_payload_iff : ∀ {value : Json},
    '\x7f' ∈ value.sortMembers.write .spaced ↔ value.Mentions '\x7f'
  | .null => by simp [sortMembers, write, Mentions]
  | .bool true => by simp [sortMembers, write, boolText, Mentions]
  | .bool false => by simp [sortMembers, write, boolText, Mentions]
  | .number value => ⟨fun here => absurd here (delete_notMem_text value), False.elim⟩
  | .string _ => delete_mem_write_iff
  | .array items => by
      have comma : '\x7f' ∉ Style.spaced.comma := by decide
      rw [sortMembers, write, delete_mem_enclosed_iff (by decide) (by decide),
        writeItems_eq_intercalate, mem_intercalate_map_iff comma]
      exact delete_mem_items_iff
  | .object members => by
      have comma : '\x7f' ∉ Style.spaced.comma := by decide
      rw [sortMembers, write, delete_mem_enclosed_iff (by decide) (by decide),
        writeMembers_eq_intercalate, mem_intercalate_map_iff comma]
      simp only [(sortedMembers_perm members).mem_iff, List.mem_map, exists_exists_and_eq_and,
        delete_mem_writeMember_iff]
      exact delete_mem_members_iff

theorem delete_mem_items_iff : ∀ {items : List Json},
    (∃ item ∈ sortItems items, '\x7f' ∈ item.write .spaced) ↔ MentionsInItems '\x7f' items
  | [] => by simp [sortItems, MentionsInItems]
  | _ :: _ => by
      rw [sortItems, List.exists_mem_cons_iff, delete_mem_payload_iff, delete_mem_items_iff,
        MentionsInItems]

theorem delete_mem_members_iff : ∀ {members : List (String × Json)},
    (∃ member ∈ members, '\x7f' ∈ member.1.toList ∨
      '\x7f' ∈ member.2.sortMembers.write .spaced) ↔ MentionsInMembers '\x7f' members
  | [] => by simp [MentionsInMembers]
  | (name, value) :: _ => by
      rw [List.exists_mem_cons_iff, delete_mem_payload_iff, delete_mem_members_iff,
        MentionsInMembers]

end

theorem harmless_escapeDelete : Harmless true escapeDelete where
  append := escapeDelete_append
  marks := fun text small => escapeDelete_of_notMem fun here => absurd (small _ here) (by decide)
  numerals := fun value => escapeDelete_of_notMem (delete_notMem_text value)
  quotes := fun text => clientString_eq text ▸ quotes_clientString text

/-- The client's text of a value is parsed as the value with its members sorted. -/
theorem spells_clientText {value : Json} (wellFormed : value.WellFormed)
    (free : value.FloatFree) : Spells value.sortMembers (clientText float value) := by
  rw [clientText_eq wellFormed free]
  exact spells_edit legible_spaced harmless_escapeDelete (wellFormed_sortMembers wellFormed)
    (durable_sortMembers wellFormed (durable_of_floats_eq_nil free))

theorem payload_eq_clientText_iff {value : Json} (wellFormed : value.WellFormed)
    (free : value.FloatFree) :
    value.payload .spaced = String.ofList (clientText float value) ↔ ¬ value.Mentions '\x7f' := by
  rw [payload, spaced, String.ofList_inj, clientText_eq wellFormed free, escapeDelete_eq_iff,
    delete_mem_payload_iff]

end Json

namespace Record

open Json (clientText)

variable {record : Record} {text : String}

/-- Parameters keep their text exactly if that is how their value is spelled. -/
theorem normalizeParams_unchanged_iff (carried : record.paramsText? = some text)
    (style : Json.PayloadStyle) : record.normalizeParams style = .ok (false, record) ↔
      ∃ value, Json.parse text = .ok value ∧ value.payload style = text := by
  rcases Option.bind_eq_some_iff.1 carried with ⟨custom, found, -⟩
  simp only [normalizeParams, found, carried]
  cases parsed : Json.parse text with
  | error fault =>
      simp [ReadError.inField, Except.mapError, bind, Except.bind]
  | ok value =>
      simp only [ReadError.inField, Except.mapError, bind, Except.bind, Except.ok.injEq]
      by_cases kept : value.payload style = text
      · simp [kept]
      · simp [kept]

/-- What the client writes is the spaced payload exactly if the value has no DEL in it, and then
parameters that the client has written keep their text, if they are no deeper than can be
read. -/
theorem clientText_kept_iff (float : Binary64 → List Char) {value : Json}
    (wellFormed : value.WellFormed)
    (free : value.FloatFree) :
    (value.payload .spaced = String.ofList (clientText float value) ↔
        ¬ value.Mentions '\x7f') ∧
      ∀ record : Record, record.paramsText? = some (String.ofList (clientText float value)) →
        (record.normalizeParams .spaced = .ok (false, record) ↔
          value.depth ≤ Json.Tree.levelLimit ∧ ¬ value.Mentions '\x7f') := by
  have spelled : Json.Spells value.sortMembers (clientText float value) :=
    Json.spells_clientText wellFormed free
  have sortedWellFormed := Json.wellFormed_sortMembers wellFormed
  have depth := Json.depth_sortMembers wellFormed
  have sortedPayload : value.sortMembers.payload .spaced = value.payload .spaced := by
    rw [Json.payload, Json.payload, Json.sortMembers_sortMembers wellFormed]
  have same : value.payload .spaced = String.ofList (clientText float value) ↔
      ¬ value.Mentions '\x7f' := Json.payload_eq_clientText_iff wellFormed free
  refine ⟨same, fun record carried => ?_⟩
  rw [normalizeParams_unchanged_iff carried, ← same, ← sortedPayload, ← depth]
  constructor
  · rintro ⟨read, parsed, kept⟩
    have shallow := Json.depth_le_of_parse spelled parsed
    rw [Json.parse_of_spells spelled sortedWellFormed shallow] at parsed
    cases parsed
    exact ⟨shallow, kept⟩
  · rintro ⟨shallow, kept⟩
    exact ⟨_, Json.parse_of_spells spelled sortedWellFormed shallow, kept⟩

/-- A new build that carries a text as its parameters. -/
def carrying (text : String) : Record :=
  fresh "b-1" "worker" (.ofStrategy (.ofCustom
    ((CustomStrategy.ofImage (.ofKind "DockerImage" "buildroot:latest")).setEnv
      paramsVariable text))) .epoch

theorem paramsText?_carrying (text : String) : (carrying text).paramsText? = some text := by
  simp [carrying, paramsText?, fresh, Spec.ofStrategy, Strategy.ofCustom, CustomStrategy.ofImage,
    CustomStrategy.setEnv, CustomStrategy.setVariable, CustomStrategy.envValue?, EnvVar.literal]

/-- Names out of order, a negative number and a character beyond ASCII. -/
def josesParams : Json :=
  .object [("user", .string "josé"), ("platforms", .array [.string "x86_64", .null]),
    ("arrangement_version", .number (.integer (-6)))]

theorem clientText_kept_iff_josesParams :
    let text := String.ofList (clientText (fun _ => []) josesParams)
    text = "\x7b\"arrangement_version\": -6, \"platforms\": [\"x86_64\", null], " ++
        "\"user\": \"jos\\u00e9\"\x7d" ∧
      (carrying text).normalizeParams .spaced = .ok (false, carrying text) := by
  have wellFormed : josesParams.WellFormed := by
    simp [josesParams, Json.WellFormed, Json.WellFormedMembers, Json.WellFormedItems,
      Json.Number.IsInteger64]
  have free : josesParams.FloatFree := rfl
  have noDelete : ¬ josesParams.Mentions '\x7f' := by
    simp [josesParams, Json.Mentions, Json.MentionsInMembers, Json.MentionsInItems]
  have kept := clientText_kept_iff (fun _ => []) wellFormed free
  refine ⟨(kept.1.2 noDelete).symm.trans (by decide +kernel), ?_⟩
  exact (kept.2 _ (paramsText?_carrying _)).2 ⟨by decide, noDelete⟩

/-- DEL is not written as the client writes it. -/
theorem payload_delete_ne_clientText : (Json.string "\x7f").FloatFree ∧
    (Json.string "\x7f").payload .spaced ≠
      String.ofList (clientText (fun _ => []) (.string "\x7f")) :=
  ⟨rfl, by decide⟩

end Record
end ContainerBuild
