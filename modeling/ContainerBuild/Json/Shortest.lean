import ContainerBuild.Json.Binary64

namespace ContainerBuild
namespace Binary64

/-!
# The shortest decimal that reads back

`shortest x` is a decimal with as few digits as possible among those that round to `x`, and the
nearest to `x` of those; of two equally near ones it ends in the even digit.  The search goes from
coarse decimal grids to finer ones.  On each grid only the two neighbours of `x` can read back if
any point does, so two trials settle it.

Each candidate is read back before it is chosen, and the exact expansion of `x` stands behind
the search.  So the result reads back to `x` for a reason that does not depend on how the
candidates were found.
-/

/-- A decimal magnitude, `digits * 10 ^ exponent`. -/
structure Decimal where
  digits : Nat
  exponent : Int
deriving DecidableEq

/-- Whether a decimal, under the sign of `x`, is read as `x`. -/
def readsBack (x : Binary64) (decimal : Decimal) : Bool :=
  ofDecimal x.negative decimal.digits decimal.exponent == some x

/-- The magnitude of `x` as a ratio of whole numbers. -/
def ratio (x : Binary64) : Nat × Nat := (x.units, unitsOfOne)

/-- The whole magnitude of `x` on the decimal grid of a given exponent. -/
def exactDecimal (x : Binary64) : Decimal :=
  if 1074 ≤ x.exponent then
    ⟨x.mantissa * Nat.pow 2 (x.exponent - 1074), 0⟩
  else
    ⟨x.mantissa * Nat.pow 5 (1074 - x.exponent), x.exponent - 1074⟩

/-- The two multiples of `10 ^ exponent` around the magnitude of `x`, the nearer one first, or the
even one first if they are equally near. -/
def neighbours (x : Binary64) (exponent : Int) : List Decimal :=
  let (numerator, denominator) := x.ratio
  let top := numerator * Nat.pow 10 (-exponent).toNat
  let bottom := denominator * Nat.pow 10 exponent.toNat
  let below := top / bottom
  if divideToEven top bottom = below then
    [⟨below, exponent⟩, ⟨below + 1, exponent⟩]
  else
    [⟨below + 1, exponent⟩, ⟨below, exponent⟩]

/-- A power of ten above the magnitude of `x`, and at most two steps above it. -/
def coarsest (x : Binary64) : Int :=
  let (numerator, denominator) := x.ratio
  (decimalLength numerator : Int) - decimalLength denominator + 1

/-- The first decimal that reads back, on successively finer grids. -/
def search (x : Binary64) : Nat → Int → Option Decimal
  | 0, _ => none
  | grids + 1, exponent =>
      match (x.neighbours exponent).find? x.readsBack with
      | some found => some found
      | none => search x grids (exponent - 1)

/-- The shortest decimal that is read as `x`.  Seventeen digits tell all numbers apart, which
two more grids than that cover. -/
def shortest (x : Binary64) : Decimal :=
  (x.search 19 x.coarsest).getD x.exactDecimal

/-- Whatever the search returns reads back. -/
theorem readsBack_of_search {x : Binary64} {grids : Nat} {exponent : Int} {decimal : Decimal}
    (found : x.search grids exponent = some decimal) : x.readsBack decimal = true := by
  induction grids generalizing exponent with
  | zero => simp [search] at found
  | succ grids inductionHypothesis =>
      rw [search] at found
      split at found
      next first candidate =>
        cases found
        exact List.find?_some candidate
      next => exact inductionHypothesis found

end Binary64
end ContainerBuild
