namespace ContainerBuild

/-!
# Finite binary floating-point numbers of double precision

A number is kept as its sign and its exact magnitude, `mantissa * 2 ^ exponent` units, where one
unit is the least positive number, `2 ^ (-1074)`.  Every finite number has one such form, so
equality of the structure tells `0.0` from `-0.0` and identifies nothing else.

`ofRatio` is the rounding rule: the nearest number, and of two nearest ones the even one.
Products and quotients are rounded by it.  Everything here is exact arithmetic on natural numbers.

Two numbers belong to a decimal.  `ofDecimal` is the number nearest to it, and `ofParts` the one
that a reader arrives at by one multiplication or division of rounded operands.  They often differ
in the last place: `5e32` is read as the number after the nearest one.
-/

/-- A finite number of double precision, zero with its sign.  A mantissa has at most 53 binary
digits, and fewer only at the least exponent. -/
structure Binary64 where
  negative : Bool
  mantissa : Nat
  exponent : Nat
  canonical : mantissa < 0x20000000000000 ∧ exponent ≤ 2045 ∧
    (exponent = 0 ∨ 0x10000000000000 ≤ mantissa)
deriving DecidableEq

namespace Binary64

/-- Zero with a sign. -/
def zero (negative : Bool) : Binary64 := ⟨negative, 0, 0, by decide⟩

instance : Inhabited Binary64 := ⟨zero false⟩

/-- Whether a number is one of the two zeros. -/
def isZero (x : Binary64) : Bool := x.mantissa == 0

/-- Equality of values: the two zeros count as one. -/
def sameValue (x y : Binary64) : Bool := x == y || (x.isZero && y.isZero)

/-- The number of a given form; none if the form is not canonical, as beyond the greatest
finite number. -/
def assemble? (negative : Bool) (mantissa exponent : Nat) : Option Binary64 :=
  if canonical : mantissa < 0x20000000000000 ∧ exponent ≤ 2045 ∧
      (exponent = 0 ∨ 0x10000000000000 ≤ mantissa) then
    some ⟨negative, mantissa, exponent, canonical⟩
  else
    none

/-- Divide and round to the nearest whole number, a half to the even neighbour. -/
def divideToEven (numerator denominator : Nat) : Nat :=
  let quotient := numerator / denominator
  let rest := numerator % denominator
  if denominator < 2 * rest ∨ (2 * rest = denominator ∧ quotient % 2 = 1) then
    quotient + 1
  else
    quotient

/-- The exponent at which a magnitude, given in whole units, leaves 53 binary digits. -/
def binade (units : Nat) : Nat := units.log2 - 52

/-- The units that make one. -/
def unitsOfOne : Nat := Nat.pow 2 1074

/-- The number nearest to `numerator / denominator`, a tie going to the even mantissa; none if
it lies beyond the finite numbers. -/
def ofRatio (negative : Bool) (numerator denominator : Nat) : Option Binary64 :=
  let scaled := numerator * unitsOfOne
  let exponent := binade (scaled / denominator)
  let mantissa := divideToEven scaled (denominator * Nat.pow 2 exponent)
  if mantissa = 0x20000000000000 then
    assemble? negative 0x10000000000000 (exponent + 1)
  else
    assemble? negative mantissa exponent

/-- The magnitude of a number in units. -/
def units (x : Binary64) : Nat := x.mantissa * Nat.pow 2 x.exponent

/-- The product of two numbers, rounded; none beyond the finite numbers. -/
def times (x y : Binary64) : Option Binary64 :=
  ofRatio (x.negative ^^ y.negative) (x.units * y.units) (unitsOfOne * unitsOfOne)

/-- The quotient by a number that is not zero, rounded; none beyond the finite numbers. -/
def dividedBy (x y : Binary64) : Option Binary64 :=
  ofRatio (x.negative ^^ y.negative) x.units y.units

/-! ## Decimals -/

/-- The digits of a whole number in decimal notation. -/
def decimalLength (digits : Nat) : Nat := (Nat.toDigits 10 digits).length

/-- The number nearest to `digits * 10 ^ exponent`, none beyond the finite numbers.

A magnitude of `10 ^ 310` and more is beyond them and one below `10 ^ (-330)` rounds to zero, so
that no power larger than the digits themselves call for is ever formed. -/
def ofDecimal (negative : Bool) (digits : Nat) (exponent : Int) : Option Binary64 :=
  let magnitude := exponent + decimalLength digits
  if digits = 0 ∨ magnitude < -330 then
    some (zero negative)
  else if 310 < magnitude then
    none
  else if 0 ≤ exponent then
    ofRatio negative (digits * Nat.pow 10 exponent.toNat) 1
  else
    ofRatio negative digits (Nat.pow 10 (-exponent).toNat)

/-- The greatest power of ten in the reader's table. -/
def greatestPower : Nat := 308

/-- A power of ten, rounded. -/
def powerOfTen (exponent : Nat) : Option Binary64 := ofRatio false (Nat.pow 10 exponent) 1

/-- A number divided by the greatest power of ten again and again, until it is zero or as often
as is asked for. -/
def lowered : Nat → Binary64 → Option Binary64
  | 0, x => some x
  | times + 1, x =>
      if x.isZero then
        some x
      else do
        let power ← powerOfTen greatestPower
        let quotient ← x.dividedBy power
        lowered times quotient

/-- What a reader makes of `significand * 10 ^ exponent`; none beyond the finite numbers.

The significand is rounded first, and then its product or quotient with a rounded power of ten. -/
def ofParts (negative : Bool) (significand : Nat) (exponent : Int) : Option Binary64 := do
  let start ← ofRatio negative significand 1
  if 0 ≤ exponent then
    if exponent ≤ greatestPower then
      let power ← powerOfTen exponent.toNat
      start.times power
    else if start.isZero then
      some start
    else
      none
  else
    let places := (-exponent).toNat
    let rounds := (places - 1) / greatestPower
    let rest ← lowered rounds start
    let power ← powerOfTen (places - rounds * greatestPower)
    rest.dividedBy power

end Binary64

end ContainerBuild
