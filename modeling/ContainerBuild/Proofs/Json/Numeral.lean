import ContainerBuild.Json.Value
import ContainerBuild.Proofs.Json.Binary64
import Mathlib.Data.List.Basic
import Mathlib.Data.List.TakeDrop

namespace ContainerBuild
namespace Json
namespace Numeral

/-!
# Numerals read back

A numeral ends where no digit, point or exponent goes on.  In front of such an end, `scan` takes
every numeral apart into the parts it was put together from, one lemma for each part.

From that, `spelledBy_integerText` says what the text of an integer is taken apart into, and
`spelledBy_floatText` the text of a floating-point number, in either layout.  An integer is read as
itself.  A floating-point number is the nearest to its text, which the reader need not arrive at.
-/

/-! ## Runs of digits -/

/-- The text does not go on with a digit. -/
def NoDigit (rest : List Char) : Prop := ∀ c ∈ rest.head?, c.isDigit = false

/-- The text does not go on with anything that belongs to a numeral. -/
def Ends (rest : List Char) : Prop :=
  ∀ c ∈ rest.head?, c.isDigit = false ∧ c ≠ '.' ∧ c ≠ 'e' ∧ c ≠ 'E'

theorem Ends.noDigit {rest : List Char} (ends : Ends rest) : NoDigit rest :=
  fun c first => (ends c first).1

theorem noDigit_cons {c : Char} (other : c.isDigit = false) (rest : List Char) :
    NoDigit (c :: rest) := by
  intro first equal
  rw [← Option.some.inj equal]
  exact other

/-- All digits in front of what is no digit are taken. -/
theorem digits_append {run rest : List Char} (digital : ∀ c ∈ run, c.isDigit = true)
    (ends : NoDigit rest) : digits (run ++ rest) = (run, rest) := by
  have stops : rest.takeWhile Char.isDigit = [] ∧ rest.dropWhile Char.isDigit = rest := by
    cases rest with
    | nil => exact ⟨rfl, rfl⟩
    | cons c rest =>
        have other := ends c rfl
        constructor
        · exact List.takeWhile_cons_of_neg (by simp [other])
        · exact List.dropWhile_cons_of_neg (by simp [other])
  rw [digits, List.span_eq_takeWhile_dropWhile, List.takeWhile_append_of_pos digital,
    List.dropWhile_append_of_pos digital, stops.1, stops.2, List.append_nil]

theorem isDigit_of_mem_decimalDigits {value : Nat} {c : Char} (member : c ∈ decimalDigits value) :
    c.isDigit = true :=
  Nat.isDigit_of_mem_toDigits (by decide) (by decide) member

theorem decimalDigits_ne_nil (value : Nat) : decimalDigits value ≠ [] := Nat.toDigits_ne_nil

theorem ofDigits_decimalDigits (value : Nat) : ofDigits (decimalDigits value) = value :=
  Nat.ofDigitChars_ten_toDigits

/-- Digits of a positive number do not begin with a zero. -/
theorem head?_decimalDigits_ne {value : Nat} (positive : 0 < value) :
    (decimalDigits value).head? ≠ some '0' := by
  induction value using Nat.strongRecOn with
  | _ value inductionHypothesis =>
      by_cases small : value < 10
      · rw [decimalDigits, Nat.toDigits_of_lt_base small]
        have digit : ∀ n < 10, 0 < n → [Nat.digitChar n].head? ≠ some '0' := by decide
        exact digit value small positive
      · have front := inductionHypothesis (value / 10) (by omega) (by omega)
        rw [decimalDigits] at front ⊢
        rw [Nat.toDigits_of_base_le (by decide) (by omega),
          List.head?_append_of_ne_nil _ Nat.toDigits_ne_nil]
        exact front

/-! ## The digits before the point -/

/-- A zero alone, or digits that do not begin with a zero. -/
structure IsWhole (run : List Char) : Prop where
  digital : ∀ c ∈ run, c.isDigit = true
  nonempty : run ≠ []
  noLeadingZero : run.head? = some '0' → run = ['0']

theorem isWhole_zero : IsWhole ['0'] :=
  ⟨List.forall_mem_singleton.2 (by decide), by decide, fun _ => rfl⟩

theorem isWhole_decimalDigits (value : Nat) : IsWhole (decimalDigits value) where
  digital := fun _ member => isDigit_of_mem_decimalDigits member
  nonempty := decimalDigits_ne_nil value
  noLeadingZero := by
    intro zero
    cases value with
    | zero => rfl
    | succ value => exact absurd zero (head?_decimalDigits_ne (Nat.succ_pos value))

/-- Digits without a leading zero may be followed by any digits. -/
theorem isWhole_append {front back : List Char} (front_digital : ∀ c ∈ front, c.isDigit = true)
    (back_digital : ∀ c ∈ back, c.isDigit = true) (nonempty : front ≠ [])
    (noZero : front.head? ≠ some '0') : IsWhole (front ++ back) where
  digital := fun c member => (List.mem_append.1 member).elim (front_digital c) (back_digital c)
  nonempty := fun empty => nonempty (List.append_eq_nil_iff.1 empty).1
  noLeadingZero := by
    intro zero
    rw [List.head?_append_of_ne_nil _ nonempty] at zero
    exact absurd zero noZero

theorem scanWhole_append {run rest : List Char} (whole : IsWhole run) (ends : NoDigit rest) :
    scanWhole (run ++ rest) = some (run, rest) := by
  by_cases zero : run.head? = some '0'
  · rw [whole.noLeadingZero zero]
    have none := @digits_append [] rest (by simp) ends
    rw [List.nil_append] at none
    simp only [List.cons_append, List.nil_append, scanWhole, none]
  · have taken := digits_append whole.digital ends
    cases run with
    | nil => exact absurd rfl whole.nonempty
    | cons first run =>
        have notZero : first ≠ '0' := fun equal => zero (congrArg some equal)
        rw [List.cons_append] at taken ⊢
        rw [scanWhole, taken]
        exact fun _ equal => absurd (List.cons.inj equal).1 notZero

/-! ## Fraction and exponent -/

theorem scanFraction_point {run rest : List Char} (digital : ∀ c ∈ run, c.isDigit = true)
    (nonempty : run ≠ []) (ends : NoDigit rest) :
    scanFraction ('.' :: (run ++ rest)) = some (run, rest) := by
  rw [scanFraction, digits_append digital ends]
  cases run with
  | nil => exact absurd rfl nonempty
  | cons => rfl

theorem scanFraction_none {rest : List Char} (noPoint : ∀ c ∈ rest.head?, c ≠ '.') :
    scanFraction rest = some ([], rest) := by
  cases rest with
  | nil => rfl
  | cons c rest =>
      rw [scanFraction]
      exact fun _ equal => noPoint c rfl (List.cons.inj equal).1

theorem scanExponentDigits_append (negative : Bool) (value : Nat) {rest : List Char}
    (ends : NoDigit rest) :
    scanExponentDigits negative (decimalDigits value ++ rest) =
      some (if negative then -(value : Int) else value, rest) := by
  rw [scanExponentDigits, digits_append (fun _ => isDigit_of_mem_decimalDigits) ends]
  split
  next empty => exact absurd (Prod.mk.inj empty).1 (decimalDigits_ne_nil value)
  next equal =>
    rcases Prod.mk.inj equal with ⟨rfl, rfl⟩
    rw [ofDigits_decimalDigits]

/-- An exponent with its sign is read as the number it stands for. -/
theorem scanExponent_signed (exponent : Int) {rest : List Char} (ends : NoDigit rest) :
    scanExponent ('e' :: (if exponent < 0 then '-' else '+') ::
      (decimalDigits exponent.natAbs ++ rest)) = some (some exponent, rest) := by
  by_cases negative : exponent < 0
  · rw [if_pos negative]
    simp only [scanExponent, true_or, if_true, scanExponentDigits_append true _ ends,
      Option.map_some, Option.some.injEq, Prod.mk.injEq, and_true]
    omega
  · rw [if_neg negative]
    simp only [scanExponent, true_or, if_true, scanExponentDigits_append false _ ends,
      Option.map_some, Option.some.injEq, Prod.mk.injEq, and_true, Bool.false_eq_true, if_false]
    omega

theorem scanExponent_none {rest : List Char} (ends : Ends rest) :
    scanExponent rest = some (none, rest) := by
  cases rest with
  | nil => rfl
  | cons c rest =>
      have other := ends c rfl
      simp only [scanExponent, other.2.2.1, other.2.2.2, or_self, if_false]

/-! ## Whole numerals -/

/-- The sign of a numeral. -/
def sign (negative : Bool) : List Char := if negative then ['-'] else []

/-- A numeral is taken apart into its sign, its digits before the point and what its rest is
taken apart into. -/
theorem scan_append (negative : Bool) {whole fraction rest afterWhole afterFraction : List Char}
    {exponent : Option Int} (wholeRun : IsWhole whole) (wholeEnds : NoDigit afterWhole)
    (fractionRead : scanFraction afterWhole = some (fraction, afterFraction))
    (exponentRead : scanExponent afterFraction = some (exponent, rest)) :
    scan (sign negative ++ whole ++ afterWhole) =
      some (⟨negative, whole, fraction, exponent.getD 0,
        fraction.isEmpty && exponent.isNone⟩, rest) := by
  have wholeRead := scanWhole_append wholeRun wholeEnds
  cases negative with
  | true =>
      simp only [sign, if_true, List.cons_append, List.nil_append, scan, wholeRead,
        Option.bind_eq_bind, Option.bind_some, fractionRead, exponentRead]
  | false =>
      simp only [sign, Bool.false_eq_true, if_false, List.nil_append]
      cases whole with
      | nil => exact absurd rfl wholeRun.nonempty
      | cons first whole =>
          have notMinus : first ≠ '-' := by
            intro minus
            have digit := wholeRun.digital first List.mem_cons_self
            rw [minus] at digit
            exact absurd digit (by decide)
          rw [List.cons_append] at wholeRead ⊢
          rw [scan]
          · simp only [wholeRead, Option.bind_eq_bind, Option.bind_some, fractionRead,
              exponentRead]
          · exact fun _ minus => notMinus (List.cons.inj minus).1

/-- A text is a numeral, in front of whatever ends one. -/
def SpelledBy (numeral : Numeral) (text : List Char) : Prop :=
  ∀ rest, Ends rest → scan (text ++ rest) = some (numeral, rest)

theorem ends_nil : Ends [] := by
  intro first none
  cases none

theorem SpelledBy.scan {numeral : Numeral} {text : List Char} (spelled : numeral.SpelledBy text) :
    scan text = some (numeral, []) := by
  have read := spelled [] ends_nil
  rwa [List.append_nil] at read

/-! ## Integers -/

theorem integerText_eq (value : Int) :
    integerText value = sign (decide (value < 0)) ++ decimalDigits value.natAbs := by
  by_cases negative : value < 0
  · simp only [integerText, sign, negative, if_true, decide_true, List.cons_append,
      List.nil_append]
  · simp only [integerText, sign, negative, if_false, decide_false, Bool.false_eq_true,
      List.nil_append]

/-- An integer of 64 bits is read as itself. -/
theorem spelledBy_integerText {value : Int} (fits : Number.IsInteger64 value) :
    ∃ numeral : Numeral, numeral.SpelledBy (integerText value) ∧ numeral.plain = true ∧
      numeral.value? = some (.integer value) := by
  rw [integerText_eq]
  refine ⟨⟨decide (value < 0), decimalDigits value.natAbs, [], 0, true⟩, fun rest ends => ?_, rfl,
    ?_⟩
  · exact scan_append _ (isWhole_decimalDigits value.natAbs) ends.noDigit
      (scanFraction_none fun c first => (ends c first).2.1) (scanExponent_none ends)
  · rcases fits with ⟨lower, upper⟩
    simp only [value?, magnitude, List.append_nil, ofDigits_decimalDigits, Bool.not_true,
      Bool.false_eq_true, if_false, decide_eq_true_eq]
    by_cases negative : value < 0
    · have bounds : 0 < value.natAbs ∧ value.natAbs ≤ 0x8000000000000000 := by omega
      rw [if_pos negative, if_pos bounds]
      congr 2
      omega
    · have bound : value.natAbs < 0x10000000000000000 := by omega
      rw [if_neg negative, if_pos bound]
      congr 2
      omega

/-! ## Decimals -/

/-- The numeral stands for `digits * 10 ^ exponent` under a sign, with a point or an exponent,
though maybe with zeros moved from the exponent to the digits. -/
def Denotes (numeral : Numeral) (negative : Bool) (decimal : Binary64.Decimal) : Prop :=
  numeral.negative = negative ∧ numeral.plain = false ∧
    ∃ places : Nat, numeral.magnitude = decimal.digits * 10 ^ places ∧
      numeral.exponent - numeral.fraction.length = decimal.exponent - places

/-- The floating-point number nearest to a numeral. -/
def nearest? (numeral : Numeral) : Option Binary64 :=
  Binary64.ofDecimal numeral.negative numeral.magnitude
    (numeral.exponent - numeral.fraction.length)

/-- The nearest number to a numeral is that of the decimal that it stands for. -/
theorem Denotes.nearest? {numeral : Numeral} {negative : Bool} {decimal : Binary64.Decimal}
    (denotes : numeral.Denotes negative decimal) :
    numeral.nearest? = Binary64.ofDecimal negative decimal.digits decimal.exponent := by
  rcases denotes with ⟨sign, -, places, digits, exponent⟩
  rw [Numeral.nearest?, sign, digits, exponent, Binary64.ofDecimal_shift]

theorem ofDigits_append_zeros (run : List Char) (count : Nat) :
    ofDigits (run ++ List.replicate count '0') = ofDigits run * 10 ^ count := by
  rw [ofDigits, Nat.ofDigitChars_append, Nat.ofDigitChars_replicate_zero, Nat.mul_comm]
  rfl

theorem ofDigits_zeros_append (count : Nat) (run : List Char) :
    ofDigits ('0' :: (List.replicate count '0' ++ run)) = ofDigits run := by
  have zeros : Nat.ofDigitChars 10 (List.replicate count '0') 0 = 0 := by
    rw [Nat.ofDigitChars_replicate_zero, Nat.mul_zero]
  rw [ofDigits, Nat.ofDigitChars_cons, Nat.ofDigitChars_append]
  simp only [Nat.mul_zero, Nat.sub_self, Nat.add_zero, zeros]
  rfl

theorem isDigit_of_mem_zeros {count : Nat} {c : Char} (member : c ∈ List.replicate count '0') :
    c.isDigit = true := by
  rw [(List.mem_replicate.1 member).2]
  decide

section Positional

variable {run : List Char} (digital : ∀ c ∈ run, c.isDigit = true) (nonempty : run ≠ [])

include digital nonempty

theorem spelledBy_pointBehind (negative : Bool) (zeros : Nat) (noZero : run.head? ≠ some '0') :
    SpelledBy ⟨negative, run ++ List.replicate zeros '0', ['0'], 0, false⟩
      (sign negative ++ (run ++ List.replicate zeros '0' ++ ['.', '0'])) := by
  intro rest ends
  have wholeRun := isWhole_append digital (fun c => @isDigit_of_mem_zeros zeros c)
    nonempty noZero
  have fraction := scanFraction_point isWhole_zero.digital isWhole_zero.nonempty ends.noDigit
  have read := scan_append negative wholeRun (noDigit_cons (by decide) _) fraction
    (scanExponent_none ends)
  simp only [List.append_assoc, List.cons_append, List.nil_append] at read ⊢
  exact read

theorem spelledBy_pointInside (negative : Bool) {point : Nat} (positive : 0 < point)
    (inside : point < run.length) (noZero : run.head? ≠ some '0') :
    SpelledBy ⟨negative, run.take point, run.drop point, 0, false⟩
      (sign negative ++ (run.take point ++ '.' :: run.drop point)) := by
  intro rest ends
  have before : run.take point ≠ [] := by
    intro empty
    rcases List.take_eq_nil_iff.1 empty with none | none
    · omega
    · exact nonempty none
  have after : run.drop point ≠ [] := by
    intro empty
    have short := List.drop_eq_nil_iff.1 empty
    omega
  have frontNoZero : (run.take point).head? ≠ some '0' := by
    rw [List.head?_take, if_neg (by omega)]
    exact noZero
  have wholeRun := @isWhole_append (run.take point) []
    (fun c member => digital c (List.mem_of_mem_take member)) (by simp) before frontNoZero
  rw [List.append_nil] at wholeRun
  have fraction := scanFraction_point
    (fun c member => digital c (List.mem_of_mem_drop member)) after ends.noDigit
  have read := scan_append negative wholeRun (noDigit_cons (by decide) _) fraction
    (scanExponent_none ends)
  rw [List.isEmpty_eq_false_iff.2 after] at read
  simp only [List.append_assoc, List.cons_append] at read ⊢
  exact read

theorem spelledBy_pointBefore (negative : Bool) (zeros : Nat) :
    SpelledBy ⟨negative, ['0'], List.replicate zeros '0' ++ run, 0, false⟩
      (sign negative ++ '0' :: '.' :: (List.replicate zeros '0' ++ run)) := by
  intro rest ends
  have behind : ∀ c ∈ List.replicate zeros '0' ++ run, c.isDigit = true :=
    fun c member => (List.mem_append.1 member).elim isDigit_of_mem_zeros (digital c)
  have some_ : List.replicate zeros '0' ++ run ≠ [] :=
    fun empty => nonempty (List.append_eq_nil_iff.1 empty).2
  have read := scan_append negative isWhole_zero (noDigit_cons (by decide) _)
    (scanFraction_point behind some_ ends.noDigit) (scanExponent_none ends)
  rw [List.isEmpty_eq_false_iff.2 some_] at read
  simp only [List.append_assoc, List.cons_append, List.nil_append] at read ⊢
  exact read

end Positional

/-- A decimal written out stands for that decimal. -/
theorem spelledBy_positional (negative : Bool) {decimal : Binary64.Decimal}
    (positive : 0 < decimal.digits) :
    ∃ numeral : Numeral, numeral.SpelledBy (sign negative ++
        FloatLayout.positional (decimalDigits decimal.digits) decimal.exponent) ∧
      numeral.Denotes negative decimal := by
  rcases decimal with ⟨value, exponent⟩
  have digital : ∀ c ∈ decimalDigits value, c.isDigit = true :=
    fun _ => isDigit_of_mem_decimalDigits
  have nonempty := decimalDigits_ne_nil value
  have noZero := head?_decimalDigits_ne positive
  have meaning := ofDigits_decimalDigits value
  dsimp only
  generalize decimalDigits value = run at digital nonempty noZero meaning ⊢
  rw [FloatLayout.positional]
  split
  next whole =>
    refine ⟨_, spelledBy_pointBehind digital nonempty negative exponent.toNat noZero, rfl, rfl,
      exponent.toNat + 1, ?_, ?_⟩
    · have zeros : run ++ List.replicate exponent.toNat '0' ++ ['0'] =
          run ++ List.replicate (exponent.toNat + 1) '0' := by
        rw [List.append_assoc, List.replicate_succ']
      rw [magnitude, zeros, ofDigits_append_zeros, meaning]
    · simp only [List.length_singleton]
      omega
  split
  next fraction inside =>
    refine ⟨_, spelledBy_pointInside digital nonempty negative
      (by omega : 0 < (exponent + run.length).toNat) (by omega) noZero, rfl, rfl, 0, ?_, ?_⟩
    · rw [magnitude, List.take_append_drop, meaning, Nat.pow_zero, Nat.mul_one]
    · simp only [List.length_drop]
      omega
  next fraction outside =>
    refine ⟨_, spelledBy_pointBefore digital nonempty negative
      (-(exponent + run.length)).toNat, rfl, rfl, 0, ?_, ?_⟩
    · rw [magnitude, List.cons_append, List.nil_append, ofDigits_zeros_append, meaning,
        Nat.pow_zero, Nat.mul_one]
    · simp only [List.length_append, List.length_replicate]
      omega

/-- A decimal written with an exponent stands for that decimal. -/
theorem spelledBy_scientific (negative : Bool) {decimal : Binary64.Decimal}
    (positive : 0 < decimal.digits) :
    ∃ numeral : Numeral, numeral.SpelledBy (sign negative ++
        FloatLayout.scientific (decimalDigits decimal.digits) decimal.exponent) ∧
      numeral.Denotes negative decimal := by
  rcases decimal with ⟨value, exponent⟩
  have digital : ∀ c ∈ decimalDigits value, c.isDigit = true :=
    fun _ => isDigit_of_mem_decimalDigits
  have nonempty := decimalDigits_ne_nil value
  have noZero := head?_decimalDigits_ne positive
  have meaning := ofDigits_decimalDigits value
  dsimp only
  generalize decimalDigits value = run at digital nonempty noZero meaning ⊢
  simp only [FloatLayout.scientific]
  generalize leading_eq : exponent + run.length - 1 = leading
  cases run with
  | nil => exact absurd rfl nonempty
  | cons first tail =>
      have wholeRun := @isWhole_append [first] []
        (fun c member => digital c (by simp_all)) (by simp) (by simp) noZero
      rw [List.append_nil] at wholeRun
      cases tail with
      | nil =>
          refine ⟨⟨negative, [first], [], leading, false⟩, fun rest ends => ?_, rfl, rfl, 0, ?_,
            ?_⟩
          · have read := scan_append negative wholeRun (noDigit_cons (by decide) _)
              (scanFraction_none (by simp)) (scanExponent_signed leading ends.noDigit)
            simp only [List.append_assoc, List.cons_append, List.nil_append] at read ⊢
            exact read
          · rw [magnitude, List.append_nil, meaning, Nat.pow_zero, Nat.mul_one]
          · simp only [List.length_nil]
            simp only [List.length_singleton] at leading_eq
            omega
      | cons second tail =>
          refine ⟨⟨negative, [first], second :: tail, leading, false⟩, fun rest ends => ?_, rfl,
            rfl, 0, ?_, ?_⟩
          · have fraction := @scanFraction_point (second :: tail)
              ('e' :: (if leading < 0 then '-' else '+') :: (decimalDigits leading.natAbs ++ rest))
              (fun c member => digital c (List.mem_cons_of_mem first member)) (by simp)
              (noDigit_cons (by decide) _)
            have read := scan_append negative wholeRun (noDigit_cons (by decide) _) fraction
              (scanExponent_signed leading ends.noDigit)
            simp only [List.append_assoc, List.cons_append, List.nil_append] at read ⊢
            exact read
          · rw [magnitude, List.cons_append, List.nil_append, meaning, Nat.pow_zero, Nat.mul_one]
          · simp only [List.length_cons] at leading_eq ⊢
            omega

/-! ## Numbers -/

theorem floatText_eq (value : Binary64) :
    floatText value = sign value.negative ++
      if value.isZero then ['0', '.', '0'] else floatLayout.text value.shortest := by
  simp only [floatText, sign]
  cases value.negative with
  | true => rfl
  | false => rfl

/-- A floating-point number is the nearest to its text. -/
theorem spelledBy_floatText (value : Binary64) :
    ∃ numeral : Numeral, numeral.SpelledBy (floatText value) ∧ numeral.plain = false ∧
      numeral.nearest? = some value := by
  rw [floatText_eq]
  cases zero : value.isZero with
  | true =>
      refine ⟨⟨value.negative, ['0'], ['0'], 0, false⟩, fun rest ends => ?_, rfl, ?_⟩
      · have fraction := scanFraction_point isWhole_zero.digital isWhole_zero.nonempty ends.noDigit
        have read := scan_append value.negative isWhole_zero (noDigit_cons (by decide) _) fraction
          (scanExponent_none ends)
        simp only [List.append_assoc, List.cons_append, List.nil_append, if_true] at read ⊢
        exact read
      · have none : ofDigits ['0', '0'] = 0 := by decide
        simp [nearest?, magnitude, none, Binary64.ofDecimal, Binary64.eq_zero_of_isZero zero]
  | false =>
      have back := Binary64.readsBack_shortest zero
      have positive := Binary64.digits_shortest_pos zero
      have meaning {numeral : Numeral}
          (denotes : numeral.Denotes value.negative value.shortest) :
          numeral.plain = false ∧ numeral.nearest? = some value :=
        ⟨denotes.2.1, denotes.nearest?.trans (beq_iff_eq.1 back)⟩
      simp only [Bool.false_eq_true, if_false, FloatLayout.text]
      split
      · rcases spelledBy_positional value.negative positive with ⟨numeral, spelled, denotes⟩
        exact ⟨numeral, spelled, meaning denotes⟩
      · rcases spelledBy_scientific value.negative positive with ⟨numeral, spelled, denotes⟩
        exact ⟨numeral, spelled, meaning denotes⟩

/-- The text of a number tells the number, and where it ends. -/
theorem text_append_inj {number other : Number} (wellFormed : (Json.number number).WellFormed)
    (otherWellFormed : (Json.number other).WellFormed) {rest more : List Char} (ends : Ends rest)
    (otherEnds : Ends more) (same : number.text ++ rest = other.text ++ more) :
    number = other ∧ rest = more := by
  -- both texts are taken apart into one numeral, which says of what kind the number is
  have agree {first second : Numeral} (spelled : first.SpelledBy number.text)
      (otherSpelled : second.SpelledBy other.text) : first = second ∧ rest = more := by
    have read := spelled rest ends
    rw [same, otherSpelled more otherEnds, Option.some.injEq, Prod.mk.injEq] at read
    exact ⟨read.1.symm, read.2.symm⟩
  cases number with
  | integer value =>
      rcases spelledBy_integerText wellFormed with ⟨first, spelled, plain, meaning⟩
      cases other with
      | integer _ =>
          rcases spelledBy_integerText otherWellFormed with ⟨second, otherSpelled, -, otherMeaning⟩
          rcases agree spelled otherSpelled with ⟨rfl, ended⟩
          exact ⟨Option.some.inj (meaning.symm.trans otherMeaning), ended⟩
      | float x =>
          rcases spelledBy_floatText x with ⟨second, otherSpelled, notPlain, -⟩
          rcases agree spelled otherSpelled with ⟨rfl, -⟩
          exact absurd (plain.symm.trans notPlain) (by decide)
  | float x =>
      rcases spelledBy_floatText x with ⟨first, spelled, notPlain, nearest⟩
      cases other with
      | integer _ =>
          rcases spelledBy_integerText otherWellFormed with ⟨second, otherSpelled, plain, -⟩
          rcases agree spelled otherSpelled with ⟨rfl, -⟩
          exact absurd (plain.symm.trans notPlain) (by decide)
      | float y =>
          rcases spelledBy_floatText y with ⟨second, otherSpelled, -, otherNearest⟩
          rcases agree spelled otherSpelled with ⟨rfl, ended⟩
          exact ⟨congrArg Number.float (Option.some.inj (nearest.symm.trans otherNearest)), ended⟩

end Numeral

end Json
end ContainerBuild
