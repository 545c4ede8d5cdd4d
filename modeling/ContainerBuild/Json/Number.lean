import ContainerBuild.Json.Shortest

namespace ContainerBuild
namespace Json

/-!
# Numbers and their numerals

A number is an integer of 64 bits, signed or unsigned, or a finite floating-point number.  The
spelling decides which: a numeral with a fraction or an exponent is floating-point, and so are
`-0` and an integer too large for 64 bits.

`Numeral.scan` takes a numeral off the front of a text, and `Numeral.value?` gives it its
meaning; a numeral beyond the finite numbers is well formed and has none.  In the other
direction `Number.text` writes the shortest digits whose nearest number it is.  Reading does not
always arrive at the nearest number, so a number may be read back as another.
-/

/-- A number of a JSON text. -/
inductive Number where
  | integer (value : Int)
  | float (value : Binary64)
deriving DecidableEq

namespace Number

/-- The integers that stay integers. -/
def IsInteger64 (value : Int) : Prop :=
  -0x8000000000000000 ≤ value ∧ value < 0x10000000000000000

instance (value : Int) : Decidable (IsInteger64 value) := by
  unfold IsInteger64; infer_instance

/-- Whether a number is zero, of whatever sign. -/
def isZero : Number → Bool
  | .integer value => value == 0
  | .float value => value.isZero

/-- Equality of values within a kind; an integer never equals a floating-point number. -/
def sameValue : Number → Number → Bool
  | .integer a, .integer b => a == b
  | .float a, .float b => a.sameValue b
  | _, _ => false

end Number

/-- The parts of a numeral.  Digits are kept as written, leading zeros of a fraction included. -/
structure Numeral where
  negative : Bool
  whole : List Char
  fraction : List Char
  exponent : Int
  /-- Neither a fraction nor an exponent is written. -/
  plain : Bool
deriving DecidableEq

namespace Numeral

/-- The value of a run of decimal digits. -/
def ofDigits (digits : List Char) : Nat := Nat.ofDigitChars 10 digits 0

/-- The digits at the front of a text, and what follows them. -/
def digits (text : List Char) : List Char × List Char := text.span Char.isDigit

/-- The digits before the point: a zero alone, or a run that does not begin with one. -/
def scanWhole : List Char → Option (List Char × List Char)
  | '0' :: rest =>
      match digits rest with
      | ([], rest) => some (['0'], rest)
      | _ => none
  | text =>
      match digits text with
      | ([], _) => none
      | run => some run

/-- A point and the digits after it, if the text goes on with a point. -/
def scanFraction : List Char → Option (List Char × List Char)
  | '.' :: rest =>
      match digits rest with
      | ([], _) => none
      | run => some run
  | text => some ([], text)

/-- Digits of an exponent, after its sign. -/
def scanExponentDigits (negative : Bool) (text : List Char) : Option (Int × List Char) :=
  match digits text with
  | ([], _) => none
  | (run, rest) => some (if negative then -(ofDigits run : Int) else ofDigits run, rest)

/-- An exponent with its mark, if the text goes on with one. -/
def scanExponent : List Char → Option (Option Int × List Char)
  | mark :: rest =>
      if mark = 'e' ∨ mark = 'E' then
        let signed := match rest with
          | '+' :: rest => scanExponentDigits false rest
          | '-' :: rest => scanExponentDigits true rest
          | rest => scanExponentDigits false rest
        signed.map fun (value, rest) => (some value, rest)
      else
        some (none, mark :: rest)
  | [] => some (none, [])

/-- Take a numeral off the front of a text.  None if the text does not begin with one, or breaks
off inside it. -/
def scan (text : List Char) : Option (Numeral × List Char) := do
  let (negative, text) := match text with
    | '-' :: rest => (true, rest)
    | text => (false, text)
  let (whole, text) ← scanWhole text
  let (fraction, text) ← scanFraction text
  let (exponent, text) ← scanExponent text
  some (⟨negative, whole, fraction, exponent.getD 0, fraction.isEmpty && exponent.isNone⟩, text)

/-- All digits of a numeral as one whole number. -/
def magnitude (numeral : Numeral) : Nat := ofDigits (numeral.whole ++ numeral.fraction)

/-- Take digits up into a significand of 64 bits.  The first digit that it has no room for is
left, with all that follow. -/
def takeUp : Nat → List Char → Nat × List Char
  | significand, [] => (significand, [])
  | significand, digit :: rest =>
      let longer := 10 * significand + (digit.toNat - '0'.toNat)
      if longer < 0x10000000000000000 then takeUp longer rest else (significand, digit :: rest)

/-- A numeral read as a floating-point number.  Digits that are left before the point count as
zeros, and those after it do not count at all. -/
def float? (numeral : Numeral) : Option Number :=
  let (front, zeros) := takeUp 0 numeral.whole
  let (significand, ignored) := takeUp front numeral.fraction
  let places := numeral.fraction.length - ignored.length
  (Binary64.ofParts numeral.negative significand
    (numeral.exponent + zeros.length - places)).map .float

/-- What a numeral means; none beyond the finite numbers. -/
def value? (numeral : Numeral) : Option Number :=
  let magnitude := numeral.magnitude
  if !numeral.plain then
    numeral.float?
  else if numeral.negative then
    if 0 < magnitude ∧ magnitude ≤ 0x8000000000000000 then some (.integer (-magnitude))
    else numeral.float?
  else
    if magnitude < 0x10000000000000000 then some (.integer magnitude) else numeral.float?

end Numeral

/-- Decimal digits of a whole number. -/
def decimalDigits (value : Nat) : List Char := Nat.toDigits 10 value

/-- An integer in decimal notation. -/
def integerText (value : Int) : List Char :=
  if value < 0 then '-' :: decimalDigits value.natAbs else decimalDigits value.natAbs

/-- How floating-point numbers are laid out: which decimal exponents of the first digit are
written without an exponent. -/
structure FloatLayout where
  lowest : Int
  highest : Int

/-- From `0.00001` up to below `10 ^ 16` a number is written out. -/
def floatLayout : FloatLayout := ⟨-5, 15⟩

namespace FloatLayout

/-- A number written out, with at least one digit on either side of the point. -/
def positional (digits : List Char) (exponent : Int) : List Char :=
  let point := exponent + digits.length
  if 0 ≤ exponent then
    digits ++ List.replicate exponent.toNat '0' ++ ['.', '0']
  else if 0 < point then
    digits.take point.toNat ++ '.' :: digits.drop point.toNat
  else
    '0' :: '.' :: (List.replicate (-point).toNat '0' ++ digits)

/-- A number with an exponent, which always has a sign. -/
def scientific (digits : List Char) (exponent : Int) : List Char :=
  let leading := exponent + digits.length - 1
  let mantissa := match digits with
    | first :: second :: rest => first :: '.' :: second :: rest
    | digits => digits
  let sign := if leading < 0 then '-' else '+'
  mantissa ++ 'e' :: sign :: decimalDigits leading.natAbs

/-- The text of a positive decimal. -/
def text (layout : FloatLayout) (decimal : Binary64.Decimal) : List Char :=
  let digits := decimalDigits decimal.digits
  let leading := decimal.exponent + digits.length - 1
  if layout.lowest ≤ leading ∧ leading ≤ layout.highest then
    positional digits decimal.exponent
  else
    scientific digits decimal.exponent

end FloatLayout

/-- The numeral of a floating-point number: the shortest digits that read back. -/
def floatText (value : Binary64) : List Char :=
  let magnitude :=
    if value.isZero then ['0', '.', '0'] else floatLayout.text value.shortest
  if value.negative then '-' :: magnitude else magnitude

/-- The numeral of a number. -/
def Number.text : Number → List Char
  | .integer value => integerText value
  | .float value => floatText value

end Json
end ContainerBuild
