import ContainerBuild.Proofs.Json.Durability

namespace ContainerBuild

/-!
# Numerals that are read exactly

A significand of at most 53 binary digits is a number as it stands, and so is every power of ten
up to the twenty-second, whose odd part is a power of five.  A product or quotient of two such
numbers is rounded once, so the reader arrives at the nearest number (`Numeral.float?_eq_nearest`).
A number whose text is of this kind is therefore durable (`Binary64.durable_of_short`).
-/

namespace Binary64

/-- A number that is a multiple of one is read as it stands. -/
theorem ofRatio_units {x : Binary64} {whole : Nat} (units : x.units = whole * unitsOfOne) :
    ofRatio x.negative whole 1 = some x := by
  rw [unitsOfOne_eq] at units
  exact ofRatio_exact x Nat.one_pos (units.symm.trans (Nat.mul_one _).symm)

/-- A whole number that is 53 binary digits times a power of two is a number as it stands. -/
theorem exists_whole (negative : Bool) {digits places : Nat} (positive : 0 < digits)
    (small : digits < 2 ^ 53) (few : places ≤ 971) :
    ∃ x : Binary64, x.negative = negative ∧ x.units = digits * 2 ^ places * unitsOfOne := by
  have log : digits.log2 < 53 := (Nat.log2_lt (Nat.ne_of_gt positive)).2 small
  -- the mantissa is moved up until it has all of its binary digits
  have lower : 2 ^ 52 ≤ digits * 2 ^ (52 - digits.log2) := by
    calc 2 ^ 52
        = 2 ^ digits.log2 * 2 ^ (52 - digits.log2) := by
          rw [← Nat.pow_add]
          congr 1
          omega
      _ ≤ digits * 2 ^ (52 - digits.log2) :=
          Nat.mul_le_mul_right _ (Nat.log2_self_le (Nat.ne_of_gt positive))
  have upper : digits * 2 ^ (52 - digits.log2) < 2 ^ 53 := by
    calc digits * 2 ^ (52 - digits.log2)
        < 2 ^ (digits.log2 + 1) * 2 ^ (52 - digits.log2) :=
          Nat.mul_lt_mul_of_pos_right Nat.lt_log2_self (Nat.two_pow_pos _)
      _ = 2 ^ 53 := by
          rw [← Nat.pow_add]
          congr 1
          omega
  have exponents : 52 - digits.log2 + (places + 1022 + digits.log2) = places + 1074 := by omega
  have power : 2 ^ (places + 1074) = 2 ^ places * unitsOfOne := by
    rw [pow_add, unitsOfOne_eq]
  refine ⟨⟨negative, digits * 2 ^ (52 - digits.log2), places + 1022 + digits.log2, upper,
    by omega, .inr lower⟩, rfl, ?_⟩
  simp only [units, power_eq]
  rw [Nat.mul_assoc, ← Nat.pow_add, exponents, power, Nat.mul_assoc]

theorem exists_significand (negative : Bool) {significand : Nat} (small : significand < 2 ^ 53) :
    ∃ x : Binary64, x.negative = negative ∧ x.units = significand * unitsOfOne := by
  rcases Nat.eq_zero_or_pos significand with rfl | positive
  · exact ⟨zero negative, rfl, by simp [units, zero]⟩
  · have whole := exists_whole negative positive small (Nat.zero_le 971)
    rwa [Nat.pow_zero, Nat.mul_one] at whole

/-- The powers of ten up to the twenty-second are numbers as they stand. -/
theorem exists_powerOfTen {exponent : Nat} (few : exponent ≤ 22) :
    ∃ x : Binary64, powerOfTen exponent = some x ∧ x.negative = false ∧
      x.units = 10 ^ exponent * unitsOfOne := by
  have small : 5 ^ exponent < 2 ^ 53 :=
    Nat.lt_of_le_of_lt (Nat.pow_le_pow_right (by decide) few) (by decide)
  rcases exists_whole false (Nat.pow_pos (by decide)) small (by omega : exponent ≤ 971) with
    ⟨x, plain, units⟩
  rw [← ten_pow_eq] at units
  have read := ofRatio_units units
  rw [plain] at read
  exact ⟨x, read, plain, units⟩

theorem unitsOfOne_pos : 0 < unitsOfOne := by decide +kernel

theorem ofRatio_zero (negative : Bool) {denominator : Nat} (positive : 0 < denominator) :
    ofRatio negative 0 denominator = some (zero negative) :=
  ofRatio_exact (zero negative) positive (by simp only [zero, Nat.zero_mul])

/-- A decimal of moderate size is read as a ratio. -/
theorem ofDecimal_eq_ofRatio (negative : Bool) {significand : Nat} {exponent : Int}
    (small : significand < 2 ^ 53) (lower : -22 ≤ exponent) (upper : exponent ≤ 22) :
    ofDecimal negative significand exponent =
      ofRatio negative (significand * 10 ^ exponent.toNat) (10 ^ (-exponent).toNat) := by
  have length : decimalLength significand ≤ 16 :=
    decimalLength_le_of_lt (by decide) (Nat.lt_of_lt_of_le small (by decide))
  rcases Nat.eq_zero_or_pos significand with rfl | positive
  · rw [Nat.zero_mul, ofRatio_zero negative (Nat.pow_pos (by decide))]
    rw [ofDecimal, if_pos (Or.inl rfl)]
  · have large : ¬ (significand = 0 ∨ exponent + decimalLength significand < -330) := by omega
    have bounded : ¬ 310 < exponent + decimalLength significand := by omega
    rw [ofDecimal, if_neg large, if_neg bounded]
    split
    next whole =>
      have none : (-exponent).toNat = 0 := by omega
      rw [none, Nat.pow_zero, power_eq]
    next fraction =>
      have none : exponent.toNat = 0 := by omega
      rw [none, Nat.pow_zero, Nat.mul_one, power_eq]

/-- A short decimal is read as the number nearest to it. -/
theorem ofParts_eq_ofDecimal (negative : Bool) {significand : Nat} {exponent : Int}
    (small : significand < 2 ^ 53) (lower : -22 ≤ exponent) (upper : exponent ≤ 22) :
    ofParts negative significand exponent = ofDecimal negative significand exponent := by
  rw [ofDecimal_eq_ofRatio negative small lower upper]
  rcases exists_significand negative small with ⟨x, rfl, units⟩
  have unit := unitsOfOne_pos
  simp only [ofParts, ofRatio_units units, Option.bind_eq_bind, Option.bind_some]
  by_cases whole : 0 ≤ exponent
  · rcases exists_powerOfTen (by omega : exponent.toNat ≤ 22) with
      ⟨power, found, plain, unitsOf⟩
    have bound : exponent ≤ (greatestPower : Int) := by
      unfold greatestPower
      omega
    have none : (-exponent).toNat = 0 := by omega
    have product : significand * unitsOfOne * (10 ^ exponent.toNat * unitsOfOne) =
        significand * 10 ^ exponent.toNat * (unitsOfOne * unitsOfOne) := by ring
    have scaled := ofRatio_mul_right x.negative (significand * 10 ^ exponent.toNat) 1
      (Nat.mul_pos unit unit)
    rw [Nat.one_mul] at scaled
    rw [if_pos whole, if_pos bound, found, none, Nat.pow_zero, Option.bind_some, times, plain,
      Bool.xor_false, units, unitsOf, product, scaled]
  · rcases exists_powerOfTen (by omega : (-exponent).toNat ≤ 22) with
      ⟨power, found, plain, unitsOf⟩
    have none : exponent.toNat = 0 := by omega
    have once : ((-exponent).toNat - 1) / greatestPower = 0 :=
      Nat.div_eq_of_lt (by unfold greatestPower; omega)
    rw [if_neg whole, once, none, Nat.zero_mul, Nat.sub_zero, found, lowered, Option.bind_some,
      Option.bind_some, dividedBy, plain, Bool.xor_false, units, unitsOf,
      ofRatio_mul_right _ _ _ unit, Nat.pow_zero, Nat.mul_one]

end Binary64

/-! ## Numerals -/

namespace Json.Numeral

theorem le_ofDigitChars (run : List Char) (front : Nat) :
    front ≤ Nat.ofDigitChars 10 run front := by
  induction run generalizing front with
  | nil => exact Nat.le_refl _
  | cons digit rest inductionHypothesis =>
      rw [Nat.ofDigitChars_cons]
      exact Nat.le_trans (by omega) (inductionHypothesis _)

/-- Digits that fit into a significand are all taken up. -/
theorem takeUp_of_lt {front : Nat} {run : List Char}
    (fits : Nat.ofDigitChars 10 run front < 0x10000000000000000) :
    takeUp front run = (Nat.ofDigitChars 10 run front, []) := by
  induction run generalizing front with
  | nil => rfl
  | cons digit rest inductionHypothesis =>
      rw [Nat.ofDigitChars_cons] at fits ⊢
      have room := Nat.lt_of_le_of_lt (le_ofDigitChars rest _) fits
      rw [takeUp, if_pos room]
      exact inductionHypothesis fits

/-- A numeral with a significand of 53 binary digits and a moderate exponent is read as the number
nearest to it. -/
theorem float?_eq_nearest {numeral : Numeral} (short : numeral.magnitude < 2 ^ 53)
    (lower : -22 ≤ numeral.exponent - numeral.fraction.length)
    (upper : numeral.exponent - numeral.fraction.length ≤ 22) :
    numeral.float? = numeral.nearest?.map .float := by
  have digits : Nat.ofDigitChars 10 numeral.fraction (ofDigits numeral.whole) =
      numeral.magnitude := by
    rw [magnitude, ofDigits, ofDigits, Nat.ofDigitChars_append]
  have front : ofDigits numeral.whole < 0x10000000000000000 := by
    have := le_ofDigitChars numeral.fraction (ofDigits numeral.whole)
    omega
  have whole : takeUp 0 numeral.whole = (ofDigits numeral.whole, []) := takeUp_of_lt front
  have fraction : takeUp (ofDigits numeral.whole) numeral.fraction = (numeral.magnitude, []) := by
    rw [takeUp_of_lt (by omega), digits]
  simp only [float?, whole, fraction, List.length_nil]
  rw [nearest?, ← Binary64.ofParts_eq_ofDecimal numeral.negative short lower upper]
  congr 2
  omega

end Json.Numeral

/-- A number is durable if its text has a significand of 53 binary digits and a moderate
exponent. -/
theorem Binary64.durable_of_short {x : Binary64} {numeral : Json.Numeral}
    (scanned : Json.Numeral.scan (Json.floatText x) = some (numeral, []))
    (short : numeral.magnitude < 2 ^ 53)
    (lower : -22 ≤ numeral.exponent - numeral.fraction.length)
    (upper : numeral.exponent - numeral.fraction.length ≤ 22) : x.Durable := by
  rcases Json.Numeral.spelledBy_floatText x with ⟨own, spelled, notPlain, nearest⟩
  have same := spelled.scan.symm.trans scanned
  cases same
  rw [Durable, scanned, Option.bind_some, Json.Numeral.value?, notPlain,
    Json.Numeral.float?_eq_nearest short lower upper, nearest]
  rfl

example : Json.DurableText "6.02e23" ∧ ¬ Json.DurableText "5e32" := by decide +kernel

end ContainerBuild
