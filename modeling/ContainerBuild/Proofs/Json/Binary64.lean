import ContainerBuild.Json.Shortest
import Mathlib.Tactic.Ring

namespace ContainerBuild
namespace Binary64

/-!
# Decimals that read back

`shortest` is a search with a fallback.  What the search finds reads back by the way it is
chosen; here the fallback, the exact expansion, is shown to read back as well, so `shortest`
reads back for every number (`readsBack_shortest`).

A decimal means the same with zeros moved between its digits and its exponent
(`ofDecimal_shift`), which is what writing a decimal with places after the point does to it.
-/

/-! ## Ratios -/

theorem divideToEven_mul_right (numerator denominator : Nat) {factor : Nat}
    (positive : 0 < factor) :
    divideToEven (numerator * factor) (denominator * factor) =
      divideToEven numerator denominator := by
  have above : denominator * factor < 2 * (numerator % denominator * factor) ↔
      denominator < 2 * (numerator % denominator) := by
    rw [← Nat.mul_assoc]
    exact Nat.mul_lt_mul_right positive
  have half : 2 * (numerator % denominator * factor) = denominator * factor ↔
      2 * (numerator % denominator) = denominator := by
    rw [← Nat.mul_assoc]
    exact Nat.mul_left_inj (Nat.ne_of_gt positive)
  simp only [divideToEven, Nat.mul_div_mul_right _ _ positive, Nat.mul_mod_mul_right, above, half]

theorem power_eq (base exponent : Nat) : Nat.pow base exponent = base ^ exponent := rfl

theorem unitsOfOne_eq : unitsOfOne = 2 ^ 1074 := by decide +kernel

/-- A ratio means the same with a common factor. -/
theorem ofRatio_mul_right (negative : Bool) (numerator denominator : Nat) {factor : Nat}
    (positive : 0 < factor) :
    ofRatio negative (numerator * factor) (denominator * factor) =
      ofRatio negative numerator denominator := by
  have scaled : numerator * factor * 2 ^ 1074 = numerator * 2 ^ 1074 * factor :=
    Nat.mul_right_comm _ _ _
  have quotient : numerator * 2 ^ 1074 * factor / (denominator * factor) =
      numerator * 2 ^ 1074 / denominator := Nat.mul_div_mul_right _ _ positive
  have binade (exponent : Nat) : denominator * factor * 2 ^ exponent =
      denominator * 2 ^ exponent * factor := by ring
  simp only [ofRatio, unitsOfOne_eq, power_eq, scaled, quotient, binade,
    divideToEven_mul_right _ _ positive]

/-- The binade of a number's own magnitude is its exponent. -/
theorem binade_magnitude (x : Binary64) :
    binade (x.mantissa * 2 ^ x.exponent) = x.exponent := by
  rcases x.canonical with ⟨small, -, normal⟩
  rw [binade]
  rcases normal with zero | large
  · rw [zero, Nat.pow_zero, Nat.mul_one]
    by_cases none : x.mantissa = 0
    · simp [none]
    · have := (Nat.log2_lt (k := 53) none).2 small
      omega
  · have nonzero : x.mantissa * 2 ^ x.exponent ≠ 0 :=
      Nat.mul_ne_zero (by omega) (Nat.ne_of_gt (Nat.two_pow_pos _))
    have least : 2 ^ (52 + x.exponent) = 2 ^ 52 * 2 ^ x.exponent := Nat.pow_add _ _ _
    have beyond : 2 ^ (52 + x.exponent + 1) = 2 ^ 53 * 2 ^ x.exponent := by
      rw [← Nat.pow_add]
      congr 1
      omega
    have log : Nat.log2 (x.mantissa * 2 ^ x.exponent) = 52 + x.exponent := by
      rw [Nat.log2_eq_iff nonzero, least, beyond]
      exact ⟨Nat.mul_le_mul_right _ large,
        Nat.mul_lt_mul_of_pos_right small (Nat.two_pow_pos x.exponent)⟩
    omega

/-- A ratio that is a number exactly is read as that number. -/
theorem ofRatio_exact (x : Binary64) {numerator denominator : Nat} (positive : 0 < denominator)
    (equal : numerator * 2 ^ 1074 = x.mantissa * 2 ^ x.exponent * denominator) :
    ofRatio x.negative numerator denominator = some x := by
  rcases x.canonical with ⟨small, -, -⟩
  have quotient : numerator * 2 ^ 1074 / denominator = x.mantissa * 2 ^ x.exponent := by
    rw [equal, Nat.mul_div_cancel _ positive]
  have exponent := x.binade_magnitude
  have mantissa : divideToEven (numerator * 2 ^ 1074) (denominator * 2 ^ x.exponent) =
      x.mantissa := by
    have whole : numerator * 2 ^ 1074 = x.mantissa * (denominator * 2 ^ x.exponent) := by
      rw [equal]
      ring
    have divisor : 0 < denominator * 2 ^ x.exponent := Nat.mul_pos positive (Nat.two_pow_pos _)
    rw [whole, divideToEven, Nat.mul_div_cancel _ divisor, Nat.mul_mod_left]
    simp only [Nat.mul_zero, Nat.not_lt_zero, false_or]
    rw [if_neg fun tie => Nat.ne_of_lt divisor tie.1]
  simp only [ofRatio, unitsOfOne_eq, power_eq, quotient, exponent, mantissa]
  rw [if_neg (Nat.ne_of_lt small), assemble?, dif_pos x.canonical]

/-! ## Decimals -/

theorem decimalLength_mul_ten {digits : Nat} (positive : 0 < digits) :
    decimalLength (digits * 10) = decimalLength digits + 1 := by
  rw [decimalLength, decimalLength, Nat.toDigits_of_base_le (by decide) (by omega),
    Nat.mul_div_cancel _ (by decide), List.length_append, List.length_singleton]

theorem decimalLength_mul_pow {digits : Nat} (positive : 0 < digits) (places : Nat) :
    decimalLength (digits * 10 ^ places) = decimalLength digits + places := by
  induction places with
  | zero => rw [Nat.pow_zero, Nat.mul_one, Nat.add_zero]
  | succ places inductionHypothesis =>
      have front : 0 < digits * 10 ^ places := Nat.mul_pos positive (Nat.pow_pos (by decide))
      rw [Nat.pow_succ, ← Nat.mul_assoc, decimalLength_mul_ten front, inductionHypothesis]
      rfl

/-- A decimal means the same with zeros moved from its exponent to its digits. -/
theorem ofDecimal_shift (negative : Bool) (digits : Nat) (exponent : Int) (places : Nat) :
    ofDecimal negative (digits * 10 ^ places) (exponent - places) =
      ofDecimal negative digits exponent := by
  by_cases zero : digits = 0
  · simp only [zero, Nat.zero_mul, ofDecimal, true_or, if_true]
  have positive : 0 < digits := Nat.pos_of_ne_zero zero
  have power (k : Nat) : 0 < 10 ^ k := Nat.pow_pos (by decide)
  have nonzero : digits * 10 ^ places ≠ 0 := Nat.ne_of_gt (Nat.mul_pos positive (power places))
  have magnitude : exponent - places + (decimalLength digits + places : Nat) =
      exponent + decimalLength digits := by omega
  simp only [ofDecimal, power_eq, decimalLength_mul_pow positive, magnitude, zero, nonzero,
    false_or]
  split
  · rfl
  split
  · rfl
  -- the point can lie behind all digits on both sides, on one, or on neither
  by_cases wholeLeft : 0 ≤ exponent - places
  · have wholeRight : 0 ≤ exponent := by omega
    have power : digits * 10 ^ places * 10 ^ (exponent - places).toNat =
        digits * 10 ^ exponent.toNat := by
      rw [Nat.mul_assoc, ← Nat.pow_add]
      congr 2
      omega
    rw [if_pos wholeLeft, if_pos wholeRight, power]
  by_cases wholeRight : 0 ≤ exponent
  · have numerator : digits * 10 ^ places =
        digits * 10 ^ exponent.toNat * 10 ^ (-(exponent - places)).toNat := by
      rw [Nat.mul_assoc, ← Nat.pow_add]
      congr 2
      omega
    have scaled := ofRatio_mul_right negative (digits * 10 ^ exponent.toNat) 1
      (power (-(exponent - places)).toNat)
    rw [if_neg wholeLeft, if_pos wholeRight, numerator, ← scaled, Nat.one_mul]
  · have denominator : 10 ^ (-(exponent - places)).toNat =
        10 ^ (-exponent).toNat * 10 ^ places := by
      rw [← Nat.pow_add]
      congr 1
      omega
    rw [if_neg wholeLeft, if_neg wholeRight, denominator,
      ofRatio_mul_right negative digits _ (power places)]

/-- Within the range of magnitudes in which a ratio is formed at all, a decimal is read as the
ratio it stands for. -/
theorem ofDecimal_exact (x : Binary64) {digits : Nat} {exponent : Int}
    (positive : 0 < digits) (lower : -330 ≤ exponent + decimalLength digits)
    (upper : exponent + decimalLength digits ≤ 310)
    (equal : digits * 10 ^ exponent.toNat * 2 ^ 1074 =
      x.mantissa * 2 ^ x.exponent * 10 ^ (-exponent).toNat) :
    ofDecimal x.negative digits exponent = some x := by
  have notZero : ¬ (digits = 0 ∨ exponent + decimalLength digits < -330) := by omega
  have notLarge : ¬ 310 < exponent + decimalLength digits := by omega
  simp only [ofDecimal, power_eq, notZero, notLarge, if_false]
  split
  next whole =>
    have nothing : (-exponent).toNat = 0 := by omega
    rw [nothing, Nat.pow_zero] at equal
    exact ofRatio_exact x Nat.one_pos equal
  next fraction =>
    have nothing : exponent.toNat = 0 := by omega
    rw [nothing, Nat.pow_zero, Nat.mul_one] at equal
    exact ofRatio_exact x (Nat.pow_pos (by decide)) equal

theorem lt_pow_decimalLength (digits : Nat) : digits < 10 ^ decimalLength digits :=
  (Nat.length_toDigits_le_iff (by decide) Nat.length_toDigits_pos).1 (Nat.le_refl _)

theorem decimalLength_le_of_lt {digits places : Nat} (positive : 0 < places)
    (bound : digits < 10 ^ places) : decimalLength digits ≤ places :=
  (Nat.length_toDigits_le_iff (by decide) positive).2 bound

/-! ## The shortest decimal -/

theorem eq_zero_of_isZero {x : Binary64} (none : x.isZero = true) : zero x.negative = x := by
  rcases x with ⟨negative, mantissa, exponent, canonical⟩
  have nothing : mantissa = 0 := by simpa [isZero] using none
  subst nothing
  have least : exponent = 0 := by omega
  subst least
  rfl

theorem mantissa_pos {x : Binary64} (nonzero : x.isZero = false) : 0 < x.mantissa := by
  have different : x.mantissa ≠ 0 := by simpa [isZero] using nonzero
  exact Nat.pos_of_ne_zero different

/-- The exact expansion of a number without binary digits after the point reads back: no number
reaches `10 ^ 310`. -/
theorem readsBack_whole {x : Binary64} (positive : 0 < x.mantissa) (whole : 1074 ≤ x.exponent) :
    x.readsBack ⟨x.mantissa * 2 ^ (x.exponent - 1074), 0⟩ = true := by
  rcases x.canonical with ⟨small, bounded, -⟩
  rw [readsBack, beq_iff_eq]
  have digitsPositive : 0 < x.mantissa * 2 ^ (x.exponent - 1074) :=
    Nat.mul_pos positive (Nat.two_pow_pos _)
  have bound : x.mantissa * 2 ^ (x.exponent - 1074) < 10 ^ 310 := by
    calc x.mantissa * 2 ^ (x.exponent - 1074)
        < 2 ^ 53 * 2 ^ (x.exponent - 1074) :=
          Nat.mul_lt_mul_of_pos_right small (Nat.two_pow_pos _)
      _ ≤ 2 ^ 53 * 2 ^ 971 := Nat.mul_le_mul_left _ (Nat.pow_le_pow_right (by decide) (by omega))
      _ ≤ 10 ^ 310 := by decide +kernel
  have length := decimalLength_le_of_lt (by decide) bound
  refine ofDecimal_exact x digitsPositive (by dsimp only; omega) (by dsimp only; omega) ?_
  have split : 2 ^ x.exponent = 2 ^ (x.exponent - 1074) * 2 ^ 1074 := by
    rw [← Nat.pow_add]
    congr 1
    omega
  rw [split]
  simp only [Int.toNat_zero, Int.neg_zero, Nat.pow_zero, Nat.mul_one, Nat.mul_assoc]

theorem ten_pow_eq (places : Nat) : (10 : Nat) ^ places = 5 ^ places * 2 ^ places := by
  rw [← Nat.mul_pow]

theorem decimalLength_mul_five_pow_le {mantissa : Nat} (small : mantissa < 2 ^ 53)
    (places : Nat) : decimalLength (mantissa * 5 ^ places) ≤ 16 + places := by
  refine decimalLength_le_of_lt (by omega) ?_
  calc mantissa * 5 ^ places
      < 2 ^ 53 * 5 ^ places := Nat.mul_lt_mul_of_pos_right small (Nat.pow_pos (by decide))
    _ ≤ 10 ^ 16 * 10 ^ places :=
        Nat.mul_le_mul (by decide) (Nat.pow_le_pow_left (by decide) _)
    _ = 10 ^ (16 + places) := (Nat.pow_add _ _ _).symm

theorem lt_decimalLength_mul_five_pow {mantissa places : Nat} (positive : 0 < mantissa)
    (bounded : places ≤ 1074) : places < decimalLength (mantissa * 5 ^ places) + 330 := by
  refine (Nat.pow_lt_pow_iff_right (a := 10) (by decide)).1 ?_
  calc 10 ^ places
      ≤ mantissa * 5 ^ places * 2 ^ places := by
        rw [Nat.mul_assoc, ← ten_pow_eq]
        exact Nat.le_mul_of_pos_left _ positive
    _ < 10 ^ decimalLength (mantissa * 5 ^ places) * 2 ^ places :=
        Nat.mul_lt_mul_of_pos_right (lt_pow_decimalLength _) (Nat.two_pow_pos _)
    _ ≤ 10 ^ decimalLength (mantissa * 5 ^ places) * 2 ^ 1074 :=
        Nat.mul_le_mul_left _ (Nat.pow_le_pow_right (by decide) bounded)
    _ ≤ 10 ^ decimalLength (mantissa * 5 ^ places) * 10 ^ 330 :=
        Nat.mul_le_mul_left _ (by decide +kernel)
    _ = 10 ^ (decimalLength (mantissa * 5 ^ places) + 330) := by rw [Nat.pow_add]

/-- The exact expansion of a number with binary digits after the point reads back: as many
decimal digits come after the point, and no number is below `10 ^ (-330)`. -/
theorem readsBack_fraction {x : Binary64} (positive : 0 < x.mantissa)
    (fraction : x.exponent < 1074) :
    x.readsBack ⟨x.mantissa * 5 ^ (1074 - x.exponent), x.exponent - 1074⟩ = true := by
  rw [readsBack, beq_iff_eq]
  generalize depth : 1074 - x.exponent = places
  have upper := decimalLength_mul_five_pow_le x.canonical.1 places
  have bounded : places ≤ 1074 := by omega
  have lower := lt_decimalLength_mul_five_pow positive bounded
  refine ofDecimal_exact x (Nat.mul_pos positive (Nat.pow_pos (by decide)))
    (by dsimp only; omega) (by dsimp only; omega) ?_
  have noWhole : ((x.exponent : Int) - 1074).toNat = 0 := by omega
  have places_eq : (-((x.exponent : Int) - 1074)).toNat = places := by omega
  have split : 2 ^ 1074 = 2 ^ places * 2 ^ x.exponent := by
    rw [← Nat.pow_add]
    congr 1
    omega
  rw [noWhole, places_eq, ten_pow_eq places, split]
  ring

theorem readsBack_exactDecimal {x : Binary64} (nonzero : x.isZero = false) :
    x.readsBack x.exactDecimal = true := by
  have positive := mantissa_pos nonzero
  rw [exactDecimal, power_eq, power_eq]
  split
  next whole => exact readsBack_whole positive whole
  next fraction => exact readsBack_fraction positive (Nat.lt_of_not_le fraction)

/-- The shortest decimal of a number is read as that number. -/
theorem readsBack_shortest {x : Binary64} (nonzero : x.isZero = false) :
    x.readsBack x.shortest = true := by
  rw [shortest]
  cases found : x.search 19 x.coarsest with
  | none => exact readsBack_exactDecimal nonzero
  | some decimal => exact readsBack_of_search found

/-- The shortest decimal of a number that is not zero has a digit that is not zero. -/
theorem digits_shortest_pos {x : Binary64} (nonzero : x.isZero = false) :
    0 < x.shortest.digits := by
  have back := readsBack_shortest nonzero
  refine Nat.pos_of_ne_zero fun none => ?_
  rw [readsBack, beq_iff_eq, none] at back
  simp only [ofDecimal, true_or, if_true, Option.some.injEq] at back
  rw [← back] at nonzero
  exact absurd nonzero (by simp [isZero, zero])

end Binary64
end ContainerBuild
