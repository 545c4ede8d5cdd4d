import ContainerBuild.Json.Fault
import ContainerBuild.Json.Writer
import ContainerBuild.Proofs.Json.Durability
import ContainerBuild.Proofs.Json.Members
import ContainerBuild.Proofs.Json.Quoted
import ContainerBuild.Text.Blank
import Mathlib.Data.List.TakeWhile

namespace ContainerBuild
namespace Json

/-!
# Spellings of a value

`Spells` is the grammar of JSON texts from the side of values: which texts spell a value, with
blanks where blanks may stand, strings in whatever escapes, and a number in any numeral that is read
as it.  Reading a spelling gives the value it spells (`parse_of_spells`), and every writer writes a
spelling of a durable value (`spells_write`, `spells_writeIndented`).  So each writer is undone by
the one reader, for one reason.

The reader of numerals takes as much as it can.  A spelling therefore has to be read in front of
a text that ends a numeral, which blanks, commas and closing brackets do.
-/

/-! ## The grammar -/

/-- Nothing but blanks. -/
def Blanks (text : List Char) : Prop := ∀ c ∈ text, Tree.isBlank c = true

mutual

/-- A text spells a value, without blanks around it. -/
inductive Spells : Json → List Char → Prop
  | null : Spells .null ['n', 'u', 'l', 'l']
  | bool (value : Bool) : Spells (.bool value) (boolText value)
  | number {value : Number} {numeral : Numeral} {text : List Char}
      (spelled : numeral.SpelledBy text) (meaning : numeral.value? = some value) :
      Spells (.number value) text
  | string {value : String} {quoted : List Char} (quotes : Quoted.Quotes value quoted) :
      Spells (.string value) quoted
  | emptyArray : Spells (.array []) ['[', ']']
  | array {items : List Json} {blanks text : List Char} (blank : Blanks blanks)
      (spelled : SpellsItems items text) : Spells (.array items) ('[' :: (blanks ++ text ++ [']']))
  | emptyObject : Spells (.object []) ['{', '}']
  | object {members : List (String × Json)} {blanks text : List Char} (blank : Blanks blanks)
      (spelled : SpellsMembers members text) :
      Spells (.object members) ('{' :: (blanks ++ text ++ ['}']))

/-- A text spells the items of an array that has some, up to the closing bracket. -/
inductive SpellsItems : List Json → List Char → Prop
  | last {item : Json} {text after : List Char} (spelled : Spells item text)
      (blank : Blanks after) : SpellsItems [item] (text ++ after)
  | cons {item : Json} {items : List Json} {text after blanks others : List Char}
      (spelled : Spells item text) (blankAfter : Blanks after) (blank : Blanks blanks)
      (rest : SpellsItems items others) :
      SpellsItems (item :: items) (text ++ after ++ ',' :: (blanks ++ others))

/-- A text spells the members of an object that has some, up to the closing brace. -/
inductive SpellsMembers : List (String × Json) → List Char → Prop
  | last {name : String} {value : Json} {quoted blanks text after : List Char}
      (quotes : Quoted.Quotes name quoted) (blank : Blanks blanks) (spelled : Spells value text)
      (blankAfter : Blanks after) :
      SpellsMembers [(name, value)] (quoted ++ ':' :: (blanks ++ text ++ after))
  | cons {name : String} {value : Json} {members : List (String × Json)}
      {quoted blanks text after gap others : List Char} (quotes : Quoted.Quotes name quoted)
      (blank : Blanks blanks) (spelled : Spells value text) (blankAfter : Blanks after)
      (blankGap : Blanks gap) (rest : SpellsMembers members others) :
      SpellsMembers ((name, value) :: members)
        (quoted ++ ':' :: (blanks ++ text ++ after ++ ',' :: (gap ++ others)))

end

/-! ## Blanks and ends -/

theorem blanks_nil : Blanks [] := fun _ member => absurd member List.not_mem_nil

/-- A text does not begin with a blank. -/
def NoBlank (text : List Char) : Prop := ∀ c ∈ text.head?, Tree.isBlank c = false

theorem skipBlanks_append {blanks text : List Char} (blank : Blanks blanks)
    (stops : NoBlank text) : Tree.skipBlanks (blanks ++ text) = text := by
  rw [Tree.skipBlanks, List.dropWhile_append_of_pos blank]
  cases text with
  | nil => rfl
  | cons c text => exact List.dropWhile_cons_of_neg (by simp [stops c rfl])

theorem skipBlanks_of_noBlank {text : List Char} (stops : NoBlank text) :
    Tree.skipBlanks text = text := skipBlanks_append blanks_nil stops

theorem ends_of_isBlank {c : Char} (blank : Tree.isBlank c = true) :
    c.isDigit = false ∧ c ≠ '.' ∧ c ≠ 'e' ∧ c ≠ 'E' := by
  simp only [Tree.isBlank, Bool.or_eq_true, beq_iff_eq] at blank
  rcases blank with ((rfl | rfl) | rfl) | rfl <;> decide

/-- Blanks end a numeral. -/
theorem ends_append {blanks rest : List Char} (blank : Blanks blanks)
    (ends : Numeral.Ends rest) : Numeral.Ends (blanks ++ rest) := by
  cases blanks with
  | nil => exact ends
  | cons c blanks =>
      intro first equal
      rw [← Option.some.inj equal]
      exact ends_of_isBlank (blank c List.mem_cons_self)

theorem ends_comma (rest : List Char) : Numeral.Ends (',' :: rest) := by
  intro first equal
  rw [← Option.some.inj equal]
  decide

theorem ends_bracket (rest : List Char) : Numeral.Ends (']' :: rest) := by
  intro first equal
  rw [← Option.some.inj equal]
  decide

theorem ends_brace (rest : List Char) : Numeral.Ends ('}' :: rest) := by
  intro first equal
  rw [← Option.some.inj equal]
  decide

/-! ## How a spelling begins -/

theorem scanWhole_first {first : Char} {tail : List Char} {result : List Char × List Char}
    (read : Numeral.scanWhole (first :: tail) = some result) : first.isDigit = true := by
  by_cases zero : first = '0'
  · rw [zero]
    decide
  · refine Decidable.byContradiction fun other => ?_
    have none : Numeral.digits (first :: tail) = ([], first :: tail) := by
      rw [Numeral.digits, List.span_eq_takeWhile_dropWhile, List.takeWhile_cons_of_neg other,
        List.dropWhile_cons_of_neg other]
    rw [Numeral.scanWhole, none] at read
    · cases read
    · exact fun _ equal => zero (List.cons.inj equal).1

theorem scan_first {text : List Char} {result : Numeral × List Char}
    (read : Numeral.scan text = some result) :
    ∃ first tail, text = first :: tail ∧ (first = '-' ∨ first.isDigit = true) := by
  cases text with
  | nil => cases read
  | cons first tail =>
      refine ⟨first, tail, rfl, ?_⟩
      by_cases minus : first = '-'
      · exact Or.inl minus
      · rw [Numeral.scan] at read
        · simp only [Option.bind_eq_bind] at read
          rcases Option.bind_eq_some_iff.1 read with ⟨_, whole, _⟩
          exact Or.inr (scanWhole_first whole)
        · exact fun _ equal => minus (List.cons.inj equal).1

/-- A text begins with a character that is neither a blank nor a closing bracket. -/
def Begins (text : List Char) : Prop :=
  ∃ first tail, text = first :: tail ∧ Tree.isBlank first = false ∧ first ≠ ']'

theorem Begins.append {text : List Char} (begins : Begins text) (rest : List Char) :
    Begins (text ++ rest) := by
  rcases begins with ⟨first, tail, equal, notBlank, notBracket⟩
  exact ⟨first, tail ++ rest, by rw [equal, List.cons_append], notBlank, notBracket⟩

theorem Begins.noBlank {text : List Char} (begins : Begins text) : NoBlank text := by
  rcases begins with ⟨first, tail, rfl, notBlank, -⟩
  intro c equal
  rw [← Option.some.inj equal]
  exact notBlank

theorem begins_numeral {numeral : Numeral} {text : List Char}
    (spelled : numeral.SpelledBy text) : Begins text := by
  rcases scan_first spelled.scan with ⟨first, tail, equal, minus | digit⟩
  · exact ⟨first, tail, equal, by rw [minus]; decide, by rw [minus]; decide⟩
  · refine ⟨first, tail, equal, ?_, ?_⟩
    · refine Bool.eq_false_iff.2 fun blank => ?_
      rw [(ends_of_isBlank blank).1] at digit
      cases digit
    · intro bracket
      rw [bracket] at digit
      exact absurd digit (by decide)

theorem Spells.begins {value : Json} {text : List Char} (spelled : Spells value text) :
    Begins text := by
  cases spelled with
  | null => exact ⟨_, _, rfl, by decide, by decide⟩
  | bool value => cases value <;> exact ⟨_, _, rfl, by decide, by decide⟩
  | number spelled => exact begins_numeral spelled
  | string quotes =>
      rcases quotes with ⟨_, rfl, -⟩
      exact ⟨_, _, rfl, by decide, by decide⟩
  | emptyArray => exact ⟨_, _, rfl, by decide, by decide⟩
  | array => exact ⟨_, _, rfl, by decide, by decide⟩
  | emptyObject => exact ⟨_, _, rfl, by decide, by decide⟩
  | object => exact ⟨_, _, rfl, by decide, by decide⟩

theorem SpellsItems.begins {items : List Json} {text : List Char}
    (spelled : SpellsItems items text) : Begins text := by
  cases spelled with
  | last item => exact item.begins.append _
  | cons item =>
      rw [List.append_assoc]
      exact item.begins.append _

theorem SpellsMembers.begins {members : List (String × Json)} {text : List Char}
    (spelled : SpellsMembers members text) : ∃ tail, text = '"' :: tail := by
  cases spelled with
  | last quotes =>
      rcases quotes with ⟨_, rfl, -⟩
      exact ⟨_, rfl⟩
  | cons quotes =>
      rcases quotes with ⟨_, rfl, -⟩
      exact ⟨_, rfl⟩

/-! ## The tree of a value -/

mutual

/-- The tree of the texts that spell a value. -/
def toTree : Json → Tree
  | .null => .null
  | .bool value => .bool value
  | .number value => .number (some value)
  | .string value => .string (some value)
  | .array items => .array (treesOfItems items) true
  | .object members => .object (treesOfMembers members) true

/-- The trees of items. -/
def treesOfItems : List Json → List Tree
  | [] => []
  | item :: rest => item.toTree :: treesOfItems rest

/-- The trees of members, under their names. -/
def treesOfMembers : List (String × Json) → List (Option String × Tree)
  | [] => []
  | (name, value) :: rest => (some name, value.toTree) :: treesOfMembers rest

end

/-! ## Reading a spelling -/

theorem scanScalar_number {numeral : Numeral} {text : List Char}
    (spelled : numeral.SpelledBy text) {rest : List Char} (ends : Numeral.Ends rest) :
    Tree.scanScalar (text ++ rest) = (.number numeral.value?, some rest) := by
  have read := spelled rest ends
  rcases scan_first read with ⟨first, tail, equal, start⟩
  have other {c : Char} (notMinus : c ≠ '-') (notDigit : c.isDigit = false) : first ≠ c := by
    rintro rfl
    rcases start with minus | digit
    · exact notMinus minus
    · rw [notDigit] at digit
      cases digit
  have notNull : first ≠ 'n' := other (by decide) (by decide)
  have notTrue : first ≠ 't' := other (by decide) (by decide)
  have notFalse : first ≠ 'f' := other (by decide) (by decide)
  have notQuote : first ≠ '"' := other (by decide) (by decide)
  rw [equal] at read ⊢
  rw [Tree.scanScalar, read]
  · exact fun _ same => notNull (List.cons.inj same).1
  · exact fun _ same => notTrue (List.cons.inj same).1
  · exact fun _ same => notFalse (List.cons.inj same).1
  · exact fun _ same => notQuote (List.cons.inj same).1

/-- A text is read as a value, after blanks and in front of what ends a numeral.  Twice the length
of the text is fuel for that. -/
def ReadsAs (value : Json) (text : List Char) : Prop :=
  ∀ (blanks rest : List Char) (fuel : Nat), Blanks blanks → Numeral.Ends rest →
    2 * text.length ≤ fuel →
    Tree.scanValue fuel (blanks ++ (text ++ rest)) = (value.toTree, some rest)

/-- A text is read as items up to the closing bracket. -/
def ItemsReadAs (items : List Json) (text : List Char) : Prop :=
  ∀ (blanks rest : List Char) (fuel : Nat), Blanks blanks → 2 * text.length + 1 ≤ fuel →
    Tree.scanItems fuel (blanks ++ (text ++ ']' :: rest)) = (treesOfItems items, some rest)

/-- A text is read as members up to the closing brace. -/
def MembersReadAs (members : List (String × Json)) (text : List Char) : Prop :=
  ∀ (blanks rest : List Char) (fuel : Nat), Blanks blanks → 2 * text.length + 1 ≤ fuel →
    Tree.scanMembers fuel (blanks ++ (text ++ '}' :: rest)) = (treesOfMembers members, some rest)

theorem noBlank_cons {first : Char} (notBlank : Tree.isBlank first = false) (rest : List Char) :
    NoBlank (first :: rest) := by
  intro c equal
  rw [← Option.some.inj equal]
  exact notBlank

theorem scanValue_bracket {blanks : List Char} (blank : Blanks blanks) (fuel : Nat)
    (rest : List Char) :
    Tree.scanValue (fuel + 1) (blanks ++ '[' :: rest) =
      match Tree.skipBlanks rest with
      | ']' :: rest => (.array [] true, some rest)
      | rest =>
          (.array (Tree.scanItems fuel rest).1 (Tree.scanItems fuel rest).2.isSome,
            (Tree.scanItems fuel rest).2) := by
  rw [Tree.scanValue, skipBlanks_append blank (noBlank_cons (by decide) _)]
  rfl

theorem scanValue_brace {blanks : List Char} (blank : Blanks blanks) (fuel : Nat)
    (rest : List Char) :
    Tree.scanValue (fuel + 1) (blanks ++ '{' :: rest) =
      match Tree.skipBlanks rest with
      | '}' :: rest => (.object [] true, some rest)
      | rest =>
          (.object (Tree.scanMembers fuel rest).1 (Tree.scanMembers fuel rest).2.isSome,
            (Tree.scanMembers fuel rest).2) := by
  rw [Tree.scanValue, skipBlanks_append blank (noBlank_cons (by decide) _)]
  rfl

/-- Where no bracket opens, a value is read as a scalar. -/
theorem readsAs_of_scalar {value : Json} {text : List Char} (begins : Begins text)
    (notArray : text.head? ≠ some '[') (notObject : text.head? ≠ some '{')
    (read : ∀ rest, Numeral.Ends rest →
      Tree.scanScalar (text ++ rest) = (value.toTree, some rest)) : ReadsAs value text := by
  intro blanks rest fuel blank ends enough
  rcases begins with ⟨first, tail, rfl, notBlank, -⟩
  cases fuel with
  | zero => simp at enough
  | succ fuel =>
      have scalar := read rest ends
      rw [List.cons_append] at scalar ⊢
      rw [Tree.scanValue, skipBlanks_append blank (noBlank_cons notBlank _)]
      split
      next same => exact absurd (congrArg some (List.cons.inj same).1) notArray
      next same => exact absurd (congrArg some (List.cons.inj same).1) notObject
      next => exact scalar

theorem readsAs_number {value : Number} {numeral : Numeral} {text : List Char}
    (spelled : numeral.SpelledBy text) (meaning : numeral.value? = some value) :
    ReadsAs (.number value) text := by
  refine readsAs_of_scalar (begins_numeral spelled) ?_ ?_ fun rest ends => ?_
  case refine_3 => rw [scanScalar_number spelled ends, meaning, toTree]
  all_goals
    rcases scan_first spelled.scan with ⟨first, tail, equal, start⟩
    rw [equal]
    intro same
    rw [Option.some.inj same] at start
    exact absurd start (by decide)

theorem readsAs_string {value : String} {quoted : List Char}
    (quotes : Quoted.Quotes value quoted) : ReadsAs (.string value) quoted := by
  rcases quotes with ⟨inside, rfl, readBack⟩
  refine readsAs_of_scalar ⟨_, _, rfl, by decide, by decide⟩ (by simp) (by simp) fun rest _ => ?_
  rcases readBack rest with ⟨codes, read, meaning⟩
  simp only [List.cons_append, Tree.scanScalar, read, meaning, toTree]

theorem readsAs_emptyArray : ReadsAs (.array []) ['[', ']'] := by
  intro blanks rest fuel blank ends enough
  cases fuel with
  | zero => simp at enough
  | succ fuel =>
      simp only [List.cons_append, List.nil_append]
      rw [scanValue_bracket blank, skipBlanks_of_noBlank (noBlank_cons (by decide) _)]
      rfl

theorem readsAs_emptyObject : ReadsAs (.object []) ['{', '}'] := by
  intro blanks rest fuel blank ends enough
  cases fuel with
  | zero => simp at enough
  | succ fuel =>
      simp only [List.cons_append, List.nil_append]
      rw [scanValue_brace blank, skipBlanks_of_noBlank (noBlank_cons (by decide) _)]
      rfl

theorem readsAs_array {items : List Json} {inner text : List Char} (innerBlank : Blanks inner)
    (begins : Begins text) (read : ItemsReadAs items text) :
    ReadsAs (.array items) ('[' :: (inner ++ text ++ [']'])) := by
  intro blanks rest fuel blank ends enough
  cases fuel with
  | zero => simp at enough
  | succ fuel =>
      have itemsRead := read [] rest fuel blanks_nil (by simp at enough; omega)
      have opened : '[' :: (inner ++ text ++ [']']) ++ rest =
          '[' :: (inner ++ (text ++ ']' :: rest)) := by
        simp only [List.cons_append, List.append_assoc, List.nil_append]
      rw [List.nil_append] at itemsRead
      rw [opened, scanValue_bracket blank, skipBlanks_append innerBlank (begins.append _).noBlank]
      split
      next same =>
        rcases begins with ⟨first, tail, rfl, -, notBracket⟩
        exact absurd (List.cons.inj same).1 notBracket
      next =>
        rw [itemsRead]
        rfl

theorem readsAs_object {members : List (String × Json)} {inner text : List Char}
    (innerBlank : Blanks inner) (begins : ∃ tail, text = '"' :: tail)
    (read : MembersReadAs members text) :
    ReadsAs (.object members) ('{' :: (inner ++ text ++ ['}'])) := by
  intro blanks rest fuel blank ends enough
  cases fuel with
  | zero => simp at enough
  | succ fuel =>
      have membersRead := read [] rest fuel blanks_nil (by simp at enough; omega)
      have opened : '{' :: (inner ++ text ++ ['}']) ++ rest =
          '{' :: (inner ++ (text ++ '}' :: rest)) := by
        simp only [List.cons_append, List.append_assoc, List.nil_append]
      rcases begins with ⟨tail, rfl⟩
      rw [List.nil_append] at membersRead
      rw [List.cons_append] at membersRead
      rw [opened, scanValue_brace blank, List.cons_append,
        skipBlanks_append innerBlank (noBlank_cons (by decide) _)]
      split
      next same => exact absurd (List.cons.inj same).1 (by decide)
      next =>
        rw [membersRead]
        rfl

theorem itemsReadAs_last {item : Json} {text after : List Char} (read : ReadsAs item text)
    (blankAfter : Blanks after) : ItemsReadAs [item] (text ++ after) := by
  intro blanks rest fuel blank enough
  cases fuel with
  | zero => simp at enough
  | succ fuel =>
      have itemRead := read blanks (after ++ ']' :: rest) fuel blank
        (ends_append blankAfter (ends_bracket rest)) (by simp at enough; omega)
      rw [Tree.scanItems, List.append_assoc, itemRead]
      dsimp only
      rw [skipBlanks_append blankAfter (noBlank_cons (by decide) _)]
      rfl

theorem itemsReadAs_cons {item : Json} {items : List Json} {text after gap others : List Char}
    (read : ReadsAs item text) (blankAfter : Blanks after) (blankGap : Blanks gap)
    (othersRead : ItemsReadAs items others) :
    ItemsReadAs (item :: items) (text ++ after ++ ',' :: (gap ++ others)) := by
  intro blanks rest fuel blank enough
  cases fuel with
  | zero => simp at enough
  | succ fuel =>
      have split : text ++ after ++ ',' :: (gap ++ others) ++ ']' :: rest =
          text ++ (after ++ ',' :: (gap ++ (others ++ ']' :: rest))) := by
        simp only [List.append_assoc, List.cons_append]
      have itemRead := read blanks (after ++ ',' :: (gap ++ (others ++ ']' :: rest))) fuel blank
        (ends_append blankAfter (ends_comma _)) (by simp at enough; omega)
      have restRead := othersRead gap rest fuel blankGap (by simp at enough; omega)
      rw [Tree.scanItems, split, itemRead]
      dsimp only
      rw [skipBlanks_append blankAfter (noBlank_cons (by decide) _)]
      change (item.toTree :: (Tree.scanItems fuel _).1, (Tree.scanItems fuel _).2) = _
      rw [restRead]
      rfl

/-- A name and its value are read in turn, and what follows the value settles what comes next. -/
theorem scanMembers_name {name : String} {value : Json} {quoted blanks gap text rest : List Char}
    {fuel : Nat} (quotes : Quoted.Quotes name quoted) (blank : Blanks blanks)
    (read : Tree.scanValue fuel (gap ++ (text ++ rest)) = (value.toTree, some rest)) :
    Tree.scanMembers (fuel + 1) (blanks ++ (quoted ++ ':' :: (gap ++ (text ++ rest)))) =
      match Tree.skipBlanks rest with
      | ',' :: rest =>
          ((some name, value.toTree) :: (Tree.scanMembers fuel rest).1,
            (Tree.scanMembers fuel rest).2)
      | '}' :: rest => ([(some name, value.toTree)], some rest)
      | _ => ([(some name, value.toTree)], none) := by
  rcases quotes with ⟨inside, rfl, readBack⟩
  rcases readBack (':' :: (gap ++ (text ++ rest))) with ⟨codes, nameRead, meaning⟩
  have quote := skipBlanks_append blank (noBlank_cons (by decide : Tree.isBlank '"' = false)
    (inside ++ ':' :: (gap ++ (text ++ rest))))
  have colon := skipBlanks_of_noBlank (noBlank_cons (by decide : Tree.isBlank ':' = false)
    (gap ++ (text ++ rest)))
  rw [Tree.scanMembers, List.cons_append]
  split
  next afterQuote front =>
    cases quote.symm.trans front
    rw [nameRead]
    dsimp only
    split
    next afterColon front =>
      cases colon.symm.trans front
      rw [read]
      exact meaning ▸ rfl
    next noColon => exact absurd colon (noColon _)
  next noQuote => exact absurd quote (noQuote _)

theorem membersReadAs_last {name : String} {value : Json} {quoted gap text after : List Char}
    (quotes : Quoted.Quotes name quoted) (blankGap : Blanks gap) (read : ReadsAs value text)
    (blankAfter : Blanks after) :
    MembersReadAs [(name, value)] (quoted ++ ':' :: (gap ++ text ++ after)) := by
  intro blanks rest fuel blank enough
  cases fuel with
  | zero => simp at enough
  | succ fuel =>
      have split : quoted ++ ':' :: (gap ++ text ++ after) ++ '}' :: rest =
          quoted ++ ':' :: (gap ++ (text ++ (after ++ '}' :: rest))) := by
        simp only [List.append_assoc, List.cons_append]
      have valueRead := read gap (after ++ '}' :: rest) fuel blankGap
        (ends_append blankAfter (ends_brace rest)) (by simp at enough; omega)
      rw [split, scanMembers_name quotes blank valueRead,
        skipBlanks_append blankAfter (noBlank_cons (by decide) _)]
      rfl

theorem membersReadAs_cons {name : String} {value : Json} {members : List (String × Json)}
    {quoted gap text after gapAfter others : List Char} (quotes : Quoted.Quotes name quoted)
    (blankGap : Blanks gap) (read : ReadsAs value text) (blankAfter : Blanks after)
    (blankGapAfter : Blanks gapAfter) (othersRead : MembersReadAs members others) :
    MembersReadAs ((name, value) :: members)
      (quoted ++ ':' :: (gap ++ text ++ after ++ ',' :: (gapAfter ++ others))) := by
  intro blanks rest fuel blank enough
  cases fuel with
  | zero => simp at enough
  | succ fuel =>
      have split : quoted ++
          ':' :: (gap ++ text ++ after ++ ',' :: (gapAfter ++ others)) ++ '}' :: rest =
          quoted ++
            ':' :: (gap ++ (text ++ (after ++ ',' :: (gapAfter ++ (others ++ '}' :: rest))))) := by
        simp only [List.append_assoc, List.cons_append]
      have valueRead := read gap (after ++ ',' :: (gapAfter ++ (others ++ '}' :: rest))) fuel
        blankGap (ends_append blankAfter (ends_comma _)) (by simp at enough; omega)
      have restRead := othersRead gapAfter rest fuel blankGapAfter (by simp at enough; omega)
      rw [split, scanMembers_name quotes blank valueRead,
        skipBlanks_append blankAfter (noBlank_cons (by decide) _)]
      change ((some name, value.toTree) :: (Tree.scanMembers fuel _).1,
        (Tree.scanMembers fuel _).2) = _
      rw [restRead]
      rfl

mutual

/-- A spelling is read as the value that it spells. -/
theorem readsAs_of_spells : ∀ {value : Json} {text : List Char}, Spells value text →
    ReadsAs value text
  | _, _, .null =>
      readsAs_of_scalar ⟨_, _, rfl, by decide, by decide⟩ (by decide) (by decide) fun _ _ => rfl
  | _, _, .bool true =>
      readsAs_of_scalar ⟨_, _, rfl, by decide, by decide⟩ (by decide) (by decide) fun _ _ => rfl
  | _, _, .bool false =>
      readsAs_of_scalar ⟨_, _, rfl, by decide, by decide⟩ (by decide) (by decide) fun _ _ => rfl
  | _, _, .number spelled meaning => readsAs_number spelled meaning
  | _, _, .string quotes => readsAs_string quotes
  | _, _, .emptyArray => readsAs_emptyArray
  | _, _, .array blank spelled =>
      readsAs_array blank spelled.begins (itemsReadAs_of_spells spelled)
  | _, _, .emptyObject => readsAs_emptyObject
  | _, _, .object blank spelled =>
      readsAs_object blank spelled.begins (membersReadAs_of_spells spelled)

theorem itemsReadAs_of_spells : ∀ {items : List Json} {text : List Char}, SpellsItems items text →
    ItemsReadAs items text
  | _, _, .last spelled blank => itemsReadAs_last (readsAs_of_spells spelled) blank
  | _, _, .cons spelled blankAfter blank others =>
      itemsReadAs_cons (readsAs_of_spells spelled) blankAfter blank (itemsReadAs_of_spells others)

theorem membersReadAs_of_spells : ∀ {members : List (String × Json)} {text : List Char},
    SpellsMembers members text → MembersReadAs members text
  | _, _, .last quotes blank spelled blankAfter =>
      membersReadAs_last quotes blank (readsAs_of_spells spelled) blankAfter
  | _, _, .cons quotes blank spelled blankAfter blankGap others =>
      membersReadAs_cons quotes blank (readsAs_of_spells spelled) blankAfter blankGap
        (membersReadAs_of_spells others)

end

/-! ## From the tree back to the value -/

mutual

/-- Within enough levels, the tree of a well-formed value has that value. -/
theorem value?_toTree : ∀ {value : Json} {levels : Nat}, value.WellFormed →
    value.depth ≤ levels → value.toTree.value? levels = some value
  | .null, _, _, _ => by rw [toTree, Tree.value?]
  | .bool _, _, _, _ => by rw [toTree, Tree.value?]
  | .number _, _, _, _ => by rw [toTree, Tree.value?, Option.map_some]
  | .string _, _, _, _ => by rw [toTree, Tree.value?, Option.map_some]
  | .array _, 0, _, shallow => absurd shallow (Nat.not_succ_le_zero _)
  | .array _, _ + 1, wellFormed, shallow => by
      rw [toTree, Tree.value?, if_pos rfl,
        itemValues?_treesOfItems wellFormed (Nat.le_of_succ_le_succ shallow), Option.map_some]
  | .object _, 0, _, shallow => absurd shallow (Nat.not_succ_le_zero _)
  | .object _, _ + 1, wellFormed, shallow => by
      rw [toTree, Tree.value?, if_pos rfl,
        memberValues?_treesOfMembers wellFormed.2 (Nat.le_of_succ_le_succ shallow),
        Option.map_some, Members.ofPairs_of_nodup wellFormed.1]

theorem itemValues?_treesOfItems : ∀ {items : List Json} {levels : Nat}, WellFormedItems items →
    depthOfItems items ≤ levels → Tree.itemValues? levels (treesOfItems items) = some items
  | [], _, _, _ => by rw [treesOfItems, Tree.itemValues?]
  | item :: rest, levels, wellFormed, shallow => by
      rw [depthOfItems, Nat.max_le] at shallow
      rw [treesOfItems, Tree.itemValues?, value?_toTree wellFormed.1 shallow.1,
        itemValues?_treesOfItems wellFormed.2 shallow.2]
      rfl

theorem memberValues?_treesOfMembers : ∀ {members : List (String × Json)} {levels : Nat},
    WellFormedMembers members → depthOfMembers members ≤ levels →
    Tree.memberValues? levels (treesOfMembers members) = some members
  | [], _, _, _ => by rw [treesOfMembers, Tree.memberValues?]
  | (name, value) :: rest, levels, wellFormed, shallow => by
      rw [depthOfMembers, Nat.max_le] at shallow
      rw [treesOfMembers, Tree.memberValues?, value?_toTree wellFormed.1 shallow.1,
        memberValues?_treesOfMembers wellFormed.2 shallow.2]
      rfl

end

mutual

/-- The tree of a value has a value only within the levels that the value takes. -/
theorem depth_le_of_value? : ∀ {value read : Json} {levels : Nat},
    value.toTree.value? levels = some read → value.depth ≤ levels
  | .null, _, _, _ => Nat.zero_le _
  | .bool _, _, _, _ => Nat.zero_le _
  | .number _, _, _, _ => Nat.zero_le _
  | .string _, _, _, _ => Nat.zero_le _
  | .array _, _, 0, found => by
      rw [toTree, Tree.value?] at found
      cases found
  | .array _, _, _ + 1, found => by
      rw [toTree, Tree.value?, if_pos rfl] at found
      rcases Option.map_eq_some_iff.1 found with ⟨_, items, -⟩
      exact Nat.succ_le_succ (depthOfItems_le_of_itemValues? items)
  | .object _, _, 0, found => by
      rw [toTree, Tree.value?] at found
      cases found
  | .object _, _, _ + 1, found => by
      rw [toTree, Tree.value?, if_pos rfl] at found
      rcases Option.map_eq_some_iff.1 found with ⟨_, members, -⟩
      exact Nat.succ_le_succ (depthOfMembers_le_of_memberValues? members)

theorem depthOfItems_le_of_itemValues? : ∀ {items read : List Json} {levels : Nat},
    Tree.itemValues? levels (treesOfItems items) = some read → depthOfItems items ≤ levels
  | [], _, _, _ => Nat.zero_le _
  | _ :: _, _, _, found => by
      rw [treesOfItems, Tree.itemValues?] at found
      rcases Option.bind_eq_some_iff.1 found with ⟨_, head, others⟩
      rcases Option.bind_eq_some_iff.1 others with ⟨_, tail, -⟩
      exact Nat.max_le.2 ⟨depth_le_of_value? head, depthOfItems_le_of_itemValues? tail⟩

theorem depthOfMembers_le_of_memberValues? : ∀ {members read : List (String × Json)}
    {levels : Nat}, Tree.memberValues? levels (treesOfMembers members) = some read →
    depthOfMembers members ≤ levels
  | [], _, _, _ => Nat.zero_le _
  | _ :: _, _, _, found => by
      rw [treesOfMembers, Tree.memberValues?] at found
      rcases Option.bind_eq_some_iff.1 found with ⟨_, -, values⟩
      rcases Option.bind_eq_some_iff.1 values with ⟨_, head, others⟩
      rcases Option.bind_eq_some_iff.1 others with ⟨_, tail, -⟩
      exact Nat.max_le.2 ⟨depth_le_of_value? head, depthOfMembers_le_of_memberValues? tail⟩

end

/-- A text that spells a value is taken apart into the tree of the value. -/
theorem ofText_of_spells {value : Json} {text : List Char} (spelled : Spells value text) :
    Document.ofText (String.ofList text) = ⟨value.toTree, true⟩ := by
  have read := readsAs_of_spells spelled [] [] (2 * text.length + 2) blanks_nil
    Numeral.ends_nil (by omega)
  rw [List.nil_append, List.append_nil] at read
  rw [Document.ofText, String.toList_ofList]
  simp only [read]
  rfl

/-- A text that spells a value is parsed as that value. -/
theorem parse_of_spells {value : Json} {text : List Char} (spelled : Spells value text)
    (wellFormed : value.WellFormed) (shallow : value.depth ≤ Tree.levelLimit) :
    parse (String.ofList text) = .ok value := by
  rw [parse, ofText_of_spells spelled, Document.read, Tree.generic,
    value?_toTree wellFormed shallow]
  rfl

/-- Only values within the limit are parsed from their spellings. -/
theorem depth_le_of_parse {value read : Json} {text : List Char} (spelled : Spells value text)
    (parsed : parse (String.ofList text) = .ok read) :
    value.depth ≤ Tree.levelLimit := by
  rw [parse, ofText_of_spells spelled, Document.read, Tree.generic] at parsed
  cases found : value.toTree.value? Tree.levelLimit with
  | none =>
      rw [found] at parsed
      cases parsed
  | some other => exact depth_le_of_value? found

/-! ## The writers -/

/-- The separators of a style may be followed by blanks and are otherwise those of JSON. -/
def Style.Legible (style : Style) : Prop :=
  (∃ blanks, Blanks blanks ∧ style.comma = ',' :: blanks) ∧
    ∃ blanks, Blanks blanks ∧ style.colon = ':' :: blanks

theorem blanks_blank : Blanks [' '] := by
  intro c member
  rw [List.mem_singleton.1 member]
  decide

theorem legible_dense : Style.dense.Legible := ⟨⟨[], blanks_nil, rfl⟩, ⟨[], blanks_nil, rfl⟩⟩

theorem legible_spaced : Style.spaced.Legible :=
  ⟨⟨[' '], blanks_blank, rfl⟩, ⟨[' '], blanks_blank, rfl⟩⟩

theorem blanks_newLine (level : Nat) : Blanks (newLine level) := by
  intro c member
  rcases List.mem_cons.1 member with rfl | blank
  · decide
  · rw [List.eq_of_mem_replicate blank]
    decide

/-- An edit of texts that leaves the marks and the numerals of JSON alone, and of strings what
they say. -/
structure Harmless (ascii : Bool) (edit : List Char → List Char) : Prop where
  append : ∀ text more, edit (text ++ more) = edit text ++ edit more
  marks : ∀ text, (∀ c ∈ text, c.toNat < 0x7f) → edit text = text
  numerals : ∀ value : Number, edit value.text = value.text
  quotes : ∀ text, Quoted.Quotes text (edit (Quoted.write ascii text))

theorem harmless_id (ascii : Bool) : Harmless ascii id :=
  ⟨fun _ _ => rfl, fun _ _ => rfl, fun _ => rfl, Quoted.quotes_write ascii⟩

theorem Blanks.lt {blanks : List Char} (blank : Blanks blanks) : ∀ c ∈ blanks, c.toNat < 0x7f := by
  intro c here
  have isBlank := blank c here
  simp only [Tree.isBlank, Bool.or_eq_true, beq_iff_eq] at isBlank
  rcases isBlank with ((rfl | rfl) | rfl) | rfl <;> decide

section Edited

variable {style : Style} {edit : List Char → List Char}

theorem Harmless.enclosed (harmless : Harmless style.ascii edit) {opening closing : Char}
    (openingMark : opening.toNat < 0x7f) (closingMark : closing.toNat < 0x7f) (text : List Char) :
    edit (opening :: text ++ [closing]) = opening :: ([] ++ edit text ++ [closing]) := by
  have front := harmless.marks [opening] (List.forall_mem_singleton.2 openingMark)
  have back := harmless.marks [closing] (List.forall_mem_singleton.2 closingMark)
  change edit ([opening] ++ text ++ [closing]) = _
  rw [harmless.append, harmless.append, front, back]
  rfl

theorem Harmless.separator (harmless : Harmless style.ascii edit) {mark : Char}
    (small : mark.toNat < 0x7f) {blanks : List Char} (blank : Blanks blanks) :
    edit (mark :: blanks) = mark :: blanks :=
  harmless.marks _ (List.forall_mem_cons.2 ⟨small, blank.lt⟩)

mutual

/-- What is written on one line and edited without harm spells the value. -/
theorem spells_edit (legible : style.Legible) (harmless : Harmless style.ascii edit) :
    ∀ {value : Json}, value.WellFormed → value.Durable → Spells value (edit (value.write style))
  | .null, _, _ => by
      rw [write, harmless.marks _ (by simp)]
      exact .null
  | .bool true, _, _ => by
      rw [write, harmless.marks _ (by simp [boolText])]
      exact .bool true
  | .bool false, _, _ => by
      rw [write, harmless.marks _ (by simp [boolText])]
      exact .bool false
  | .number _, wellFormed, durable => by
      rcases exists_spelledBy_text wellFormed durable with ⟨numeral, spelled, meaning⟩
      rw [write, harmless.numerals]
      exact .number spelled meaning
  | .string value, _, _ => by
      rw [write]
      exact .string (harmless.quotes value)
  | .array [], _, _ => by
      rw [write, writeItems, harmless.marks _ (by simp)]
      exact .emptyArray
  | .array (item :: rest), wellFormed, durable => by
      rw [write, harmless.enclosed (by decide) (by decide)]
      exact .array blanks_nil
        (spellsItems_edit legible harmless wellFormed durable (List.cons_ne_nil item rest))
  | .object [], _, _ => by
      rw [write, writeMembers, harmless.marks _ (by simp)]
      exact .emptyObject
  | .object (member :: rest), wellFormed, durable => by
      rw [write, harmless.enclosed (by decide) (by decide)]
      exact .object blanks_nil
        (spellsMembers_edit legible harmless wellFormed.2 durable (List.cons_ne_nil member rest))

theorem spellsItems_edit (legible : style.Legible) (harmless : Harmless style.ascii edit) :
    ∀ {items : List Json}, WellFormedItems items → (∀ x ∈ floatsOfItems items, x.Durable) →
      items ≠ [] → SpellsItems items (edit (writeItems style items))
  | [], _, _, nonempty => absurd rfl nonempty
  | [_], wellFormed, durable, _ => by
      have lasting := (List.forall_mem_append.1 durable).1
      have last :=
        SpellsItems.last (spells_edit legible harmless wellFormed.1 lasting) blanks_nil
      rwa [List.append_nil] at last
  | _ :: next :: rest, wellFormed, durable, _ => by
      rcases legible.1 with ⟨blanks, blank, comma⟩
      have lasting := List.forall_mem_append.1 durable
      have more := SpellsItems.cons (spells_edit legible harmless wellFormed.1 lasting.1)
        blanks_nil blank (spellsItems_edit legible harmless wellFormed.2 lasting.2
          (List.cons_ne_nil next rest))
      rw [List.append_nil] at more
      rw [writeItems, comma, harmless.append, harmless.append,
        harmless.separator (by decide) blank, List.append_assoc]
      · exact more
      · exact List.cons_ne_nil next rest

theorem spellsMembers_edit (legible : style.Legible) (harmless : Harmless style.ascii edit) :
    ∀ {members : List (String × Json)}, WellFormedMembers members →
      (∀ x ∈ floatsOfMembers members, x.Durable) → members ≠ [] →
      SpellsMembers members (edit (writeMembers style members))
  | [], _, _, nonempty => absurd rfl nonempty
  | [(name, value)], wellFormed, durable, _ => by
      rcases legible.2 with ⟨blanks, blank, colon⟩
      have lasting := (List.forall_mem_append.1 durable).1
      have last : SpellsMembers [(name, value)] _ :=
        SpellsMembers.last (harmless.quotes name) blank
          (spells_edit legible harmless wellFormed.1 lasting) blanks_nil
      rw [List.append_nil] at last
      rw [writeMembers, colon, harmless.append, harmless.append,
        harmless.separator (by decide) blank, List.append_assoc]
      exact last
  | (name, value) :: next :: rest, wellFormed, durable, _ => by
      rcases legible.1 with ⟨gap, blankGap, comma⟩
      rcases legible.2 with ⟨blanks, blank, colon⟩
      have lasting := List.forall_mem_append.1 durable
      have more : SpellsMembers ((name, value) :: next :: rest) _ :=
        SpellsMembers.cons (harmless.quotes name) blank
          (spells_edit legible harmless wellFormed.1 lasting.1) blanks_nil blankGap
          (spellsMembers_edit legible harmless wellFormed.2 lasting.2
            (List.cons_ne_nil next rest))
      rw [writeMembers, colon, comma, harmless.append, harmless.append, harmless.append,
        harmless.append, harmless.separator (by decide) blank,
        harmless.separator (by decide) blankGap]
      · simpa only [List.append_assoc, List.cons_append, List.append_nil] using more
      · exact List.cons_ne_nil next rest

end

end Edited

/-- What is written on one line spells the value. -/
theorem spells_write {style : Style} (legible : style.Legible) {value : Json}
    (wellFormed : value.WellFormed) (durable : value.Durable) :
    Spells value (value.write style) :=
  spells_edit legible (harmless_id style.ascii) wellFormed durable

mutual

/-- What is written over several lines spells the value. -/
theorem spells_writeIndented : ∀ {value : Json} (level : Nat), value.WellFormed →
    value.Durable → Spells value (value.writeIndented level)
  | .null, _, _, _ => by
      rw [writeIndented]
      exact .null
  | .bool value, _, _, _ => by
      rw [writeIndented]
      exact .bool value
  | .number _, _, wellFormed, durable => by
      rcases exists_spelledBy_text wellFormed durable with ⟨numeral, spelled, meaning⟩
      rw [writeIndented]
      exact .number spelled meaning
  | .string value, _, _, _ => by
      rw [writeIndented]
      exact .string (Quoted.quotes_write false value)
  | .array [], _, _, _ => by
      rw [writeIndented]
      exact .emptyArray
  | .array (item :: rest), level, wellFormed, durable => by
      rcases spellsItems_writeIndented (level + 1) level wellFormed durable
        (List.cons_ne_nil item rest) with ⟨text, spelled, equal⟩
      rw [writeIndented, List.cons_append, equal]
      exact .array (blanks_newLine (level + 1)) spelled
  | .object [], _, _, _ => by
      rw [writeIndented]
      exact .emptyObject
  | .object (member :: rest), level, wellFormed, durable => by
      rcases spellsMembers_writeIndented (level + 1) level wellFormed.2 durable
        (List.cons_ne_nil member rest) with ⟨text, spelled, equal⟩
      rw [writeIndented, List.cons_append, equal]
      exact .object (blanks_newLine (level + 1)) spelled

theorem spellsItems_writeIndented : ∀ {items : List Json} (level closing : Nat),
    WellFormedItems items → (∀ x ∈ floatsOfItems items, x.Durable) → items ≠ [] →
    ∃ text, SpellsItems items text ∧
      writeIndentedItems level items ++ newLine closing = newLine level ++ text
  | [], _, _, _, _, nonempty => absurd rfl nonempty
  | [_], level, closing, wellFormed, durable, _ =>
      ⟨_, .last (spells_writeIndented level wellFormed.1 (List.forall_mem_append.1 durable).1)
        (blanks_newLine closing), by simp only [writeIndentedItems, List.append_assoc]⟩
  | _ :: next :: rest, level, closing, wellFormed, durable, _ => by
      have lasting := List.forall_mem_append.1 durable
      rcases spellsItems_writeIndented level closing wellFormed.2 lasting.2
        (List.cons_ne_nil next rest) with ⟨text, spelled, equal⟩
      refine ⟨_, .cons (spells_writeIndented level wellFormed.1 lasting.1) blanks_nil
        (blanks_newLine level) spelled, ?_⟩
      rw [writeIndentedItems, ← equal]
      · simp only [List.append_assoc, List.cons_append, List.nil_append]
      · exact List.cons_ne_nil next rest

theorem spellsMembers_writeIndented : ∀ {members : List (String × Json)} (level closing : Nat),
    WellFormedMembers members → (∀ x ∈ floatsOfMembers members, x.Durable) → members ≠ [] →
    ∃ text, SpellsMembers members text ∧
      writeIndentedMembers level members ++ newLine closing = newLine level ++ text
  | [], _, _, _, _, nonempty => absurd rfl nonempty
  | [(name, _)], level, closing, wellFormed, durable, _ =>
      ⟨_, .last (Quoted.quotes_write false name) blanks_blank
        (spells_writeIndented level wellFormed.1 (List.forall_mem_append.1 durable).1)
        (blanks_newLine closing), by
        simp only [writeIndentedMembers, List.cons_append, List.append_assoc, List.nil_append]⟩
  | (name, _) :: next :: rest, level, closing, wellFormed, durable, _ => by
      have lasting := List.forall_mem_append.1 durable
      rcases spellsMembers_writeIndented level closing wellFormed.2 lasting.2
        (List.cons_ne_nil next rest) with ⟨text, spelled, equal⟩
      refine ⟨_, .cons (Quoted.quotes_write false name) blanks_blank
        (spells_writeIndented level wellFormed.1 lasting.1) blanks_nil (blanks_newLine level)
        spelled, ?_⟩
      rw [writeIndentedMembers, ← equal]
      · simp only [List.append_assoc, List.cons_append, List.nil_append]
      · exact List.cons_ne_nil next rest

end

/-- Every layout of a document spells the value that was laid out. -/
theorem exists_spells_document (layout : Layout) {value : Json} (wellFormed : value.WellFormed)
    (durable : value.Durable) :
    ∃ text, Spells value text ∧ document layout value = String.ofList text := by
  cases layout with
  | compact => exact ⟨_, spells_write legible_dense wellFormed durable, rfl⟩
  | pretty => exact ⟨_, spells_writeIndented 0 wellFormed durable, rfl⟩

/-- Every layout of a document is parsed as the value that was laid out. -/
theorem parse_document (layout : Layout) {value : Json} (wellFormed : value.WellFormed)
    (durable : value.Durable) (shallow : value.depth ≤ Tree.levelLimit) :
    parse (document layout value) = .ok value := by
  rcases exists_spells_document layout wellFormed durable with ⟨text, spelled, same⟩
  rw [same, parse_of_spells spelled wellFormed shallow]

/-! ## Blank texts -/

section Blank

variable {text : List Char}

theorem isBlank_of_isDigit {c : Char} (digit : c.isDigit = true) : Text.isBlank c = false := by
  have range : 48 ≤ c.toNat ∧ c.toNat ≤ 57 := by
    simpa [Char.isDigit, UInt32.le_iff_toNat_le] using digit
  simp only [Text.isBlank, Bool.or_eq_false_iff, Bool.and_eq_false_iff, decide_eq_false_iff_not,
    beq_eq_false_iff_ne]
  omega

theorem scanScalar_of_blank (blank : ∀ c ∈ text, Text.isBlank c = true) :
    Tree.scanScalar text = (.broken, none) := by
  have other (c : Char) (visible : Text.isBlank c = false) (tail : List Char) :
      text ≠ c :: tail := by
    rintro rfl
    rw [blank c List.mem_cons_self] at visible
    cases visible
  unfold Tree.scanScalar
  split
  · exact absurd rfl (other _ (by decide) _)
  · exact absurd rfl (other _ (by decide) _)
  · exact absurd rfl (other _ (by decide) _)
  · exact absurd rfl (other _ (by decide) _)
  · split
    next read =>
      rcases scan_first read with ⟨first, tail, equal, rfl | digit⟩
      · exact absurd equal (other _ (by decide) _)
      · exact absurd equal (other _ (isBlank_of_isDigit digit) _)
    next => rfl

theorem scanValue_of_blank (blank : ∀ c ∈ text, Text.isBlank c = true) (fuel : Nat) :
    Tree.scanValue fuel text = (.broken, none) := by
  cases fuel with
  | zero => rfl
  | succ fuel =>
      have rest : ∀ c ∈ Tree.skipBlanks text, Text.isBlank c = true := fun c here =>
        blank c ((List.dropWhile_sublist _).subset here)
      rw [Tree.scanValue]
      split
      next equal => exact absurd (rest '[' (equal ▸ List.mem_cons_self)) (by decide)
      next equal => exact absurd (rest '{' (equal ▸ List.mem_cons_self)) (by decide)
      next => exact scanScalar_of_blank rest

/-- A text of nothing but white space holds no value. -/
theorem not_blank_of_parse {text : String} {value : Json} (parsed : parse text = .ok value) :
    (Text.trimStart text.toList).isEmpty = false := by
  refine Bool.eq_false_iff.2 fun empty => ?_
  have blank : ∀ c ∈ text.toList, Text.isBlank c = true :=
    List.dropWhile_eq_nil_iff.1 (List.isEmpty_iff.1 empty)
  rw [parse, Document.ofText, scanValue_of_blank blank] at parsed
  cases parsed

end Blank

end Json
end ContainerBuild
