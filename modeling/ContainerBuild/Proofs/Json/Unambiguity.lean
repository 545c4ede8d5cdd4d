import ContainerBuild.Proofs.Json.Spelling

namespace ContainerBuild
namespace Json

/-!
# One text, one value

What is written on one line tells the value that was written, and where its text ends
(`write_append_inj`).  This does not go through the reader: a floating-point number is told by its
text even if the reader takes the text for another number.
-/

theorem Quoted.quotes_append_inj {text other : String} {quoted otherQuoted rest more : List Char}
    (quotes : Quoted.Quotes text quoted) (otherQuotes : Quoted.Quotes other otherQuoted)
    (same : quoted ++ rest = otherQuoted ++ more) : text = other ∧ rest = more := by
  rcases quotes with ⟨inside, rfl, readBack⟩
  rcases otherQuotes with ⟨otherInside, rfl, otherReadBack⟩
  rcases readBack rest with ⟨codes, read, meaning⟩
  rcases otherReadBack more with ⟨otherCodes, otherRead, otherMeaning⟩
  have texts : inside ++ rest = otherInside ++ more := (List.cons.inj same).2
  rw [texts, otherRead, Option.some.injEq, Prod.mk.injEq] at read
  rcases read with ⟨rfl, rfl⟩
  exact ⟨Option.some.inj (meaning.symm.trans otherMeaning), rfl⟩

/-! ## First characters -/

/-- The constructors of values. -/
inductive Kind where
  | null
  | bool
  | number
  | string
  | array
  | object

/-- The constructor of a value. -/
def kind : Json → Kind
  | .null => .null
  | .bool _ => .bool
  | .number _ => .number
  | .string _ => .string
  | .array _ => .array
  | .object _ => .object

/-- The constructor that a first character announces. -/
def kindOf (first : Char) : Kind :=
  if first = 'n' then .null
  else if first = 't' ∨ first = 'f' then .bool
  else if first = '"' then .string
  else if first = '[' then .array
  else if first = '{' then .object
  else .number

theorem kindOf_numeral {first : Char} (start : first = '-' ∨ first.isDigit = true) :
    kindOf first = .number := by
  have other {c : Char} (notMinus : c ≠ '-') (notDigit : c.isDigit = false) : first ≠ c := by
    rintro rfl
    rcases start with minus | digit
    · exact notMinus minus
    · rw [notDigit] at digit
      cases digit
  have notNull : first ≠ 'n' := other (by decide) (by decide)
  have notTrue : first ≠ 't' := other (by decide) (by decide)
  have notFalse : first ≠ 'f' := other (by decide) (by decide)
  have notQuote : first ≠ '"' := other (by decide) (by decide)
  have notBracket : first ≠ '[' := other (by decide) (by decide)
  have notBrace : first ≠ '{' := other (by decide) (by decide)
  simp [kindOf, notNull, notTrue, notFalse, notQuote, notBracket, notBrace]

theorem exists_spelledBy {number : Number} (wellFormed : (Json.number number).WellFormed) :
    ∃ numeral : Numeral, numeral.SpelledBy number.text := by
  cases number with
  | integer _ => exact (Numeral.spelledBy_integerText wellFormed).imp fun _ read => read.1
  | float x => exact (Numeral.spelledBy_floatText x).imp fun _ read => read.1

/-- A text begins as its value announces itself, and not with a closing bracket. -/
theorem exists_kindOf_write (style : Style) {value : Json} (wellFormed : value.WellFormed) :
    ∃ first tail, value.write style = first :: tail ∧ first ≠ ']' ∧
      kindOf first = value.kind := by
  cases value with
  | null => exact ⟨_, _, rfl, by decide, rfl⟩
  | bool value => cases value <;> exact ⟨_, _, rfl, by decide, rfl⟩
  | number value =>
      rcases exists_spelledBy wellFormed with ⟨_, spelled⟩
      rcases scan_first spelled.scan with ⟨first, tail, equal, start⟩
      refine ⟨first, tail, equal, ?_, kindOf_numeral start⟩
      rintro rfl
      exact absurd start (by decide)
  | string value => exact ⟨_, _, rfl, by decide, rfl⟩
  | array items => exact ⟨_, _, rfl, by decide, rfl⟩
  | object members => exact ⟨_, _, rfl, by decide, rfl⟩

variable {style : Style} {value other : Json} {rest more : List Char}

theorem kind_eq_of_write (wellFormed : value.WellFormed) (otherWellFormed : other.WellFormed)
    (same : value.write style ++ rest = other.write style ++ more) : value.kind = other.kind := by
  rcases exists_kindOf_write style wellFormed with ⟨first, tail, equal, -, announced⟩
  rcases exists_kindOf_write style otherWellFormed with
    ⟨_, otherTail, otherEqual, -, otherAnnounced⟩
  rw [equal, otherEqual, List.cons_append, List.cons_append] at same
  rw [← announced, ← otherAnnounced, (List.cons.inj same).1]

theorem write_ne_bracket (wellFormed : value.WellFormed) :
    value.write style ++ rest ≠ ']' :: more := by
  rcases exists_kindOf_write style wellFormed with ⟨first, tail, equal, notBracket, -⟩
  rw [equal, List.cons_append]
  exact fun same => notBracket (List.cons.inj same).1

/-! ## Items and members -/

/-- What follows an item of an array, up to the closing bracket. -/
def afterItem (style : Style) : List Json → List Char
  | [] => []
  | rest => style.comma ++ writeItems style rest

/-- What follows a member of an object, up to the closing brace. -/
def afterMember (style : Style) : List (String × Json) → List Char
  | [] => []
  | rest => style.comma ++ writeMembers style rest

theorem writeItems_cons (style : Style) (item : Json) (rest : List Json) :
    writeItems style (item :: rest) = item.write style ++ afterItem style rest := by
  cases rest with
  | nil => rw [writeItems, afterItem, List.append_nil]
  | cons next rest =>
      rw [writeItems, afterItem, List.append_assoc]
      · exact List.cons_ne_nil next rest
      · exact List.cons_ne_nil next rest

theorem writeMembers_cons (style : Style) (name : String) (value : Json)
    (rest : List (String × Json)) :
    writeMembers style ((name, value) :: rest) = Quoted.write style.ascii name ++
      (style.colon ++ (value.write style ++ afterMember style rest)) := by
  cases rest with
  | nil => simp only [writeMembers, afterMember, List.append_nil, List.append_assoc]
  | cons next rest =>
      rw [writeMembers, afterMember]
      · simp only [List.append_assoc]
      · exact List.cons_ne_nil next rest
      · exact List.cons_ne_nil next rest

theorem ends_afterItem (legible : style.Legible) (items : List Json) (rest : List Char) :
    Numeral.Ends (afterItem style items ++ ']' :: rest) := by
  cases items with
  | nil => exact ends_bracket rest
  | cons item items =>
      rcases legible.1 with ⟨blanks, -, comma⟩
      rw [afterItem, comma]
      · exact ends_comma _
      · exact List.cons_ne_nil item items

theorem ends_afterMember (legible : style.Legible) (members : List (String × Json))
    (rest : List Char) : Numeral.Ends (afterMember style members ++ '}' :: rest) := by
  cases members with
  | nil => exact ends_brace rest
  | cons member members =>
      rcases legible.1 with ⟨blanks, -, comma⟩
      rw [afterMember, comma]
      · exact ends_comma _
      · exact List.cons_ne_nil member members

theorem comma_append_ne (legible : style.Legible) {c : Char} (other : c ≠ ',') :
    style.comma ++ rest ≠ c :: more := by
  rcases legible.1 with ⟨blanks, -, comma⟩
  rw [comma, List.cons_append]
  exact fun same => other (List.cons.inj same).1.symm

theorem write_name_ne_brace {ascii : Bool} {name : String} :
    Quoted.write ascii name ++ rest ≠ '}' :: more :=
  fun same => absurd (List.cons.inj same).1 (by decide)

/-! ## Values -/

mutual

/-- A text on one line tells its value, and where it ends. -/
theorem write_append_inj (legible : style.Legible) : ∀ {value other : Json}
    {rest more : List Char}, value.WellFormed → other.WellFormed → Numeral.Ends rest →
    Numeral.Ends more → value.write style ++ rest = other.write style ++ more →
    value = other ∧ rest = more
  | .null, other, _, _, wellFormed, otherWellFormed, _, _, same => by
      have kinds := kind_eq_of_write wellFormed otherWellFormed same
      cases other with
      | null => exact ⟨rfl, List.append_cancel_left same⟩
      | _ => cases kinds
  | .bool value, other, _, _, wellFormed, otherWellFormed, _, _, same => by
      have kinds := kind_eq_of_write wellFormed otherWellFormed same
      cases other with
      | bool otherValue =>
          cases value <;> cases otherValue
          · exact ⟨rfl, List.append_cancel_left same⟩
          · exact absurd (List.cons.inj same).1 (by decide)
          · exact absurd (List.cons.inj same).1 (by decide)
          · exact ⟨rfl, List.append_cancel_left same⟩
      | _ => cases kinds
  | .number _, other, _, _, wellFormed, otherWellFormed, ends, otherEnds, same => by
      have kinds := kind_eq_of_write wellFormed otherWellFormed same
      cases other with
      | number _ =>
          have told := Numeral.text_append_inj wellFormed otherWellFormed ends otherEnds same
          exact ⟨congrArg Json.number told.1, told.2⟩
      | _ => cases kinds
  | .string _, other, _, _, wellFormed, otherWellFormed, _, _, same => by
      have kinds := kind_eq_of_write wellFormed otherWellFormed same
      cases other with
      | string _ =>
          have told := Quoted.quotes_append_inj (Quoted.quotes_write style.ascii _)
            (Quoted.quotes_write style.ascii _) same
          exact ⟨congrArg Json.string told.1, told.2⟩
      | _ => cases kinds
  | .array items, other, _, _, wellFormed, otherWellFormed, _, _, same => by
      have kinds := kind_eq_of_write wellFormed otherWellFormed same
      cases other with
      | array others =>
          simp only [write, List.cons_append, List.append_assoc, List.nil_append,
            List.cons.injEq, true_and] at same
          have told := writeItems_append_inj legible wellFormed otherWellFormed same
          exact ⟨congrArg Json.array told.1, told.2⟩
      | _ => cases kinds
  | .object members, other, _, _, wellFormed, otherWellFormed, _, _, same => by
      have kinds := kind_eq_of_write wellFormed otherWellFormed same
      cases other with
      | object others =>
          simp only [write, List.cons_append, List.append_assoc, List.nil_append,
            List.cons.injEq, true_and] at same
          have told := writeMembers_append_inj legible wellFormed.2 otherWellFormed.2 same
          exact ⟨congrArg Json.object told.1, told.2⟩
      | _ => cases kinds

theorem writeItems_append_inj (legible : style.Legible) : ∀ {items others : List Json}
    {rest more : List Char}, WellFormedItems items → WellFormedItems others →
    writeItems style items ++ ']' :: rest = writeItems style others ++ ']' :: more →
    items = others ∧ rest = more
  | [], [], _, _, _, _, same => ⟨rfl, (List.cons.inj same).2⟩
  | [], other :: others, _, _, _, otherWellFormed, same => by
      rw [writeItems_cons, List.append_assoc] at same
      exact absurd same.symm (write_ne_bracket otherWellFormed.1)
  | item :: items, [], _, _, wellFormed, _, same => by
      rw [writeItems_cons, List.append_assoc] at same
      exact absurd same (write_ne_bracket wellFormed.1)
  | item :: items, other :: others, _, _, wellFormed, otherWellFormed, same => by
      rw [writeItems_cons, writeItems_cons, List.append_assoc, List.append_assoc] at same
      rcases write_append_inj legible wellFormed.1 otherWellFormed.1
        (ends_afterItem legible items _) (ends_afterItem legible others _) same with
        ⟨rfl, after⟩
      cases items with
      | nil =>
          cases others with
          | nil => exact ⟨rfl, (List.cons.inj after).2⟩
          | cons =>
              rw [afterItem, afterItem, List.append_assoc] at after
              · exact absurd after.symm (comma_append_ne legible (by decide))
              · exact List.cons_ne_nil _ _
      | cons next items =>
          cases others with
          | nil =>
              rw [afterItem, afterItem, List.append_assoc] at after
              · exact absurd after (comma_append_ne legible (by decide))
              · exact List.cons_ne_nil _ _
          | cons otherNext others =>
              rw [afterItem, afterItem, List.append_assoc, List.append_assoc] at after
              · have told := writeItems_append_inj legible wellFormed.2 otherWellFormed.2
                  (List.append_cancel_left after)
                exact ⟨congrArg (_ :: ·) told.1, told.2⟩
              · exact List.cons_ne_nil _ _
              · exact List.cons_ne_nil _ _

theorem writeMembers_append_inj (legible : style.Legible) :
    ∀ {members others : List (String × Json)} {rest more : List Char},
    WellFormedMembers members → WellFormedMembers others →
    writeMembers style members ++ '}' :: rest = writeMembers style others ++ '}' :: more →
    members = others ∧ rest = more
  | [], [], _, _, _, _, same => ⟨rfl, (List.cons.inj same).2⟩
  | [], (_, _) :: _, _, _, _, _, same => by
      rw [writeMembers_cons, List.append_assoc] at same
      exact absurd same.symm write_name_ne_brace
  | (_, _) :: _, [], _, _, _, _, same => by
      rw [writeMembers_cons, List.append_assoc] at same
      exact absurd same write_name_ne_brace
  | (name, value) :: members, (otherName, other) :: others, _, _, wellFormed, otherWellFormed,
      same => by
      simp only [writeMembers_cons, List.append_assoc] at same
      rcases Quoted.quotes_append_inj (Quoted.quotes_write style.ascii _)
        (Quoted.quotes_write style.ascii _) same with ⟨rfl, afterName⟩
      rcases write_append_inj legible wellFormed.1 otherWellFormed.1
        (ends_afterMember legible members _) (ends_afterMember legible others _)
        (List.append_cancel_left afterName) with ⟨rfl, after⟩
      cases members with
      | nil =>
          cases others with
          | nil => exact ⟨rfl, (List.cons.inj after).2⟩
          | cons =>
              rw [afterMember, afterMember, List.append_assoc] at after
              · exact absurd after.symm (comma_append_ne legible (by decide))
              · exact List.cons_ne_nil _ _
      | cons next members =>
          cases others with
          | nil =>
              rw [afterMember, afterMember, List.append_assoc] at after
              · exact absurd after (comma_append_ne legible (by decide))
              · exact List.cons_ne_nil _ _
          | cons otherNext others =>
              rw [afterMember, afterMember, List.append_assoc, List.append_assoc] at after
              · have told := writeMembers_append_inj legible wellFormed.2 otherWellFormed.2
                  (List.append_cancel_left after)
                exact ⟨congrArg (_ :: ·) told.1, told.2⟩
              · exact List.cons_ne_nil _ _
              · exact List.cons_ne_nil _ _

end

theorem write_inj (legible : style.Legible) (wellFormed : value.WellFormed)
    (otherWellFormed : other.WellFormed) :
    value.write style = other.write style ↔ value = other := by
  refine ⟨fun same => ?_, congrArg (write style)⟩
  exact (write_append_inj legible wellFormed otherWellFormed Numeral.ends_nil Numeral.ends_nil
    (congrArg (· ++ []) same)).1

end Json
end ContainerBuild
