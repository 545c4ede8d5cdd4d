import ContainerBuild.Json.Quoted

namespace ContainerBuild
namespace Json
namespace Quoted

/-!
# Quoted strings read back

What `write` puts between quotes, `scan` and `text?` turn back into the same string, whatever
follows the closing quote.  The argument goes character by character: the written form of one
character is read as its code point or as its one or two UTF-16 units, and `pair?` makes the
character of them again.

In the ASCII form nothing is written outside the printable ASCII range and DEL.
-/

/-! ## What is read for one character -/

/-- The code points that are read for the written form of a character. -/
def points (ascii : Bool) (c : Char) : List Nat :=
  if ascii ∧ 0x80 ≤ c.toNat then units c else [c.toNat]

theorem hexValue?_digitChar : ∀ digit < 16, hexValue? (Nat.digitChar digit) = some digit := by
  decide

theorem hexUnit?_hexDigit {unit : Nat} (small : unit < 0x10000) :
    hexUnit? (hexDigit unit 3) (hexDigit unit 2) (hexDigit unit 1) (hexDigit unit 0) =
      some unit := by
  have digit (position : Nat) :
      hexValue? (hexDigit unit position) = some (unit >>> (4 * position) % 16) :=
    hexValue?_digitChar _ (Nat.mod_lt _ (by decide))
  simp only [hexUnit?, digit, Option.bind_eq_bind, Option.bind_some, Option.some.injEq,
    Nat.shiftRight_eq_div_pow]
  omega

/-- An escape by number is read as the unit it names. -/
theorem scan_unitEscape {unit : Nat} (small : unit < 0x10000) (rest : List Char) :
    scan (unitEscape unit ++ rest) = (scan rest).map fun read => (unit :: read.1, read.2) := by
  simp only [unitEscape, List.cons_append, List.nil_append]
  rw [scan, hexUnit?_hexDigit small]
  cases scan rest <;> rfl

/-- An escape by letter is read as the character it names. -/
theorem scan_shortEscape {letter c : Char} (names : shortEscape? letter = some c)
    (rest : List Char) :
    scan ('\\' :: letter :: rest) = (scan rest).map fun read => (c.toNat :: read.1, read.2) := by
  have notUnit : letter ≠ 'u' := by
    intro unit
    rw [unit] at names
    cases names
  rw [scan, names]
  · cases scan rest <;> rfl
  · intro _ _ _ _ _ unit
    exact absurd unit notUnit

/-- A character that needs no escape is read as itself. -/
theorem scan_plain {c : Char} (printable : 0x20 ≤ c.toNat) (notQuote : c ≠ '"')
    (notBackslash : c ≠ '\\') (rest : List Char) :
    scan (c :: rest) = (scan rest).map fun read => (c.toNat :: read.1, read.2) := by
  rw [scan, if_neg]
  · rintro (control | backslash)
    · omega
    · exact notBackslash backslash
  · exact notQuote
  · exact fun _ _ _ _ _ backslash _ => notBackslash backslash
  · exact fun _ _ backslash _ => notBackslash backslash

theorem unit_lt_of_mem_units {c : Char} {unit : Nat} (member : unit ∈ units c) :
    unit < 0x10000 := by
  have bound : c.toNat < 0x110000 := by
    rcases c.valid with below | above
    · exact Nat.lt_trans below (by decide)
    · exact above.2
  rw [units] at member
  split at member
  next small => exact List.mem_singleton.1 member ▸ small
  next =>
    simp only [List.mem_cons, List.not_mem_nil, or_false] at member
    omega

theorem scan_flatMap_unitEscape {codes : List Nat} (small : ∀ unit ∈ codes, unit < 0x10000)
    (rest : List Char) :
    scan (codes.flatMap unitEscape ++ rest) =
      (scan rest).map fun read => (codes ++ read.1, read.2) := by
  induction codes with
  | nil =>
      rw [List.flatMap_nil, List.nil_append]
      cases scan rest <;> rfl
  | cons unit codes inductionHypothesis =>
      rw [List.flatMap_cons, List.append_assoc,
        scan_unitEscape (small unit List.mem_cons_self),
        inductionHypothesis fun later member => small later (List.mem_cons_of_mem unit member)]
      cases scan rest <;> rfl

/-- The written form of a character is read as the code points for it. -/
theorem scan_escape (ascii : Bool) (c : Char) (rest : List Char) :
    scan (escape ascii c ++ rest) =
      (scan rest).map fun read => (points ascii c ++ read.1, read.2) := by
  have short {letter : Char} (names : shortEscape? letter = some c) (low : c.toNat < 0x80) :
      scan (['\\', letter] ++ rest) =
        (scan rest).map fun read => (points ascii c ++ read.1, read.2) := by
    rw [points, if_neg fun high => absurd high.2 (Nat.not_le_of_lt low)]
    exact scan_shortEscape names rest
  rw [escape]
  split
  next quote => exact short (by rw [quote]; rfl) (by rw [quote]; decide)
  next notQuote =>
  split
  next backslash => exact short (by rw [backslash]; rfl) (by rw [backslash]; decide)
  next notBackslash =>
  split
  next newline => exact short (by rw [newline]; rfl) (by rw [newline]; decide)
  split
  next feed => exact short (by rw [feed]; rfl) (by rw [feed]; decide)
  split
  next tab => exact short (by rw [tab]; rfl) (by rw [tab]; decide)
  split
  next back => exact short (by rw [back]; rfl) (by rw [back]; decide)
  split
  next form => exact short (by rw [form]; rfl) (by rw [form]; decide)
  split
  next control =>
    rw [points, if_neg fun high => absurd high.2 (by omega)]
    exact scan_unitEscape (by omega) rest
  next printable =>
  split
  next high =>
    rw [points, if_pos high]
    exact scan_flatMap_unitEscape (fun _ member => unit_lt_of_mem_units member) rest
  next low =>
    rw [points, if_neg low]
    exact scan_plain (by omega) notQuote notBackslash rest

/-- What stands between the quotes is read character by character. -/
theorem scan_flatMap {spell : Char → List Char} {codes : Char → List Nat}
    (scanSpell : ∀ c rest, scan (spell c ++ rest) =
      (scan rest).map fun read => (codes c ++ read.1, read.2)) (characters rest : List Char) :
    scan (characters.flatMap spell ++ '"' :: rest) =
      some (characters.flatMap codes, rest) := by
  induction characters with
  | nil => rw [List.flatMap_nil, List.nil_append, scan, List.flatMap_nil]
  | cons c characters inductionHypothesis =>
      rw [List.flatMap_cons, List.append_assoc, scanSpell, inductionHypothesis]
      rfl

/-! ## Characters from code points -/

theorem not_isLead_toNat (c : Char) : ¬ IsLead c.toNat := by
  rintro ⟨above, below⟩
  rcases c.valid with small | large
  · exact absurd (show c.toNat < 0xD800 from small) (by omega)
  · exact absurd (show 0xDFFF < c.toNat from large.1) (by omega)

theorem not_isTrail_toNat (c : Char) : ¬ IsTrail c.toNat := by
  rintro ⟨above, below⟩
  rcases c.valid with small | large
  · exact absurd (show c.toNat < 0xD800 from small) (by omega)
  · exact absurd (show 0xDFFF < c.toNat from large.1) (by omega)

/-- The code point of a character stands for it. -/
theorem pair?_toNat_cons (c : Char) (rest : List Nat) :
    pair? (c.toNat :: rest) = (pair? rest).map (c :: ·) := by
  cases rest with
  | nil =>
      have whole : ¬ (IsLead c.toNat ∨ IsTrail c.toNat) :=
        not_or.2 ⟨not_isLead_toNat c, not_isTrail_toNat c⟩
      simp only [pair?, if_neg whole, Char.ofNat_toNat, Option.map_some]
  | cons next rest =>
      rw [pair?, if_neg (not_isLead_toNat c), if_neg (not_isTrail_toNat c), Char.ofNat_toNat]

/-- The UTF-16 units of a character stand for it. -/
theorem pair?_units_append (c : Char) (rest : List Nat) :
    pair? (units c ++ rest) = (pair? rest).map (c :: ·) := by
  rw [units]
  split
  next => exact pair?_toNat_cons c rest
  next large =>
    have bound : c.toNat < 0x110000 := by
      rcases c.valid with below | above
      · exact Nat.lt_trans below (by decide)
      · exact above.2
    have lead : IsLead (0xD800 + (c.toNat - 0x10000) / 0x400) := ⟨by omega, by omega⟩
    have trail : IsTrail (0xDC00 + (c.toNat - 0x10000) % 0x400) := ⟨by omega, by omega⟩
    have joined : 0x10000 + (0xD800 + (c.toNat - 0x10000) / 0x400 - 0xD800) * 0x400 +
        (0xDC00 + (c.toNat - 0x10000) % 0x400 - 0xDC00) = c.toNat := by omega
    rw [List.cons_append, List.cons_append, List.nil_append, pair?, if_pos lead, if_pos trail,
      joined, Char.ofNat_toNat]

/-- The code points of characters stand for them. -/
theorem pair?_flatMap_points (ascii : Bool) (characters : List Char) :
    pair? (characters.flatMap (points ascii)) = some characters := by
  induction characters with
  | nil => rw [List.flatMap_nil, pair?]
  | cons c characters inductionHypothesis =>
      have step (rest : List Nat) : pair? (points ascii c ++ rest) = (pair? rest).map (c :: ·) := by
        rw [points]
        split
        · exact pair?_units_append c rest
        · exact pair?_toNat_cons c rest
      rw [List.flatMap_cons, step, inductionHypothesis]
      rfl

/-- A text in quotes reads back as a string, in front of any text. -/
def Quotes (text : String) (quoted : List Char) : Prop :=
  ∃ inside, quoted = '"' :: inside ∧ ∀ rest, ∃ codes,
    scan (inside ++ rest) = some (codes, rest) ∧ text? codes = some text

theorem quotes_flatMap {spell : Char → List Char} (ascii : Bool)
    (scanSpell : ∀ c rest, scan (spell c ++ rest) =
      (scan rest).map fun read => (points ascii c ++ read.1, read.2)) (text : String) :
    Quotes text ('"' :: text.toList.flatMap spell ++ ['"']) := by
  refine ⟨text.toList.flatMap spell ++ ['"'], rfl, fun rest =>
    ⟨text.toList.flatMap (points ascii), ?_, ?_⟩⟩
  · rw [List.append_assoc]
    exact scan_flatMap scanSpell text.toList rest
  · rw [text?, pair?_flatMap_points, Option.map_some, String.ofList_toList]

theorem quotes_write (ascii : Bool) (text : String) : Quotes text (write ascii text) :=
  quotes_flatMap ascii (scan_escape ascii) text

/-! ## The ASCII form -/

/-- Whether a character is written raw in a text of ASCII: no control character, and none beyond
U+007F. -/
def IsPlainAscii (c : Char) : Prop := 0x20 ≤ c.toNat ∧ c.toNat < 0x80

instance (c : Char) : Decidable (IsPlainAscii c) := by unfold IsPlainAscii; infer_instance

theorem isPlainAscii_digitChar : ∀ digit < 16, IsPlainAscii (Nat.digitChar digit) := by decide

theorem isPlainAscii_of_mem_unitEscape {unit : Nat} {c : Char} (member : c ∈ unitEscape unit) :
    IsPlainAscii c := by
  have digit (position : Nat) : IsPlainAscii (hexDigit unit position) :=
    isPlainAscii_digitChar _ (Nat.mod_lt _ (by decide))
  simp only [unitEscape, List.mem_cons, List.not_mem_nil, or_false] at member
  rcases member with rfl | rfl | rfl | rfl | rfl | rfl
  · decide
  · decide
  all_goals exact digit _

/-- The ASCII form of a character is in plain ASCII. -/
theorem isPlainAscii_of_mem_escape {c written : Char} (member : written ∈ escape true c) :
    IsPlainAscii written := by
  have short {letter : Char} (plain : IsPlainAscii letter)
      (listed : written ∈ ['\\', letter]) : IsPlainAscii written := by
    simp only [List.mem_cons, List.not_mem_nil, or_false] at listed
    rcases listed with rfl | rfl
    · decide
    · exact plain
  rw [escape] at member
  split at member
  · exact short (by decide) member
  split at member
  · exact short (by decide) member
  split at member
  · exact short (by decide) member
  split at member
  · exact short (by decide) member
  split at member
  · exact short (by decide) member
  split at member
  · exact short (by decide) member
  split at member
  · exact short (by decide) member
  split at member
  · exact isPlainAscii_of_mem_unitEscape member
  next printable =>
  split at member
  next =>
    rcases List.mem_flatMap.1 member with ⟨unit, _, escaped⟩
    exact isPlainAscii_of_mem_unitEscape escaped
  next low =>
    rw [List.mem_singleton.1 member]
    simp only [true_and] at low
    exact ⟨by omega, by omega⟩

theorem isPlainAscii_of_mem_write {text : String} {c : Char} (member : c ∈ write true text) :
    IsPlainAscii c := by
  simp only [write, List.mem_append, List.mem_cons, List.not_mem_nil, or_false,
    List.mem_flatMap] at member
  rcases member with (rfl | ⟨_, _, escaped⟩) | rfl
  · decide
  · exact isPlainAscii_of_mem_escape escaped
  · decide

end Quoted
end Json
end ContainerBuild
