import Lox.Number.Double
import Mathlib

/-!
Contract: the exact values of decimal and dyadic numbers, and rounding them to whole numbers.

Owns:
- the rational number that a decimal or a dyadic number is;
- rounding a rational number to a whole one, with a tie going to the even one, and that it is
  monotone and has one result;
- what `roundQuotient`, `Dyadic.rounded` and `Decimal.trimmed` are in these terms.

Does not own: which dyadic numbers are doubles.
-/

namespace Lox.Number

/-! ## Exact values -/

/-- The rational number that the decimal number is. -/
def Decimal.value (decimal : Decimal) : ℚ :=
  decimal.coefficient / 10 ^ decimal.places

/-- The rational number that the dyadic number is. -/
def Dyadic.value (dyadic : Dyadic) : ℚ :=
  dyadic.mantissa * 2 ^ dyadic.exponent

/-- A power with any exponent as a quotient of powers with natural exponents, of which one is
one. -/
theorem zpow_eq_div (base : ℚ) (exponent : ℤ) :
    base ^ exponent = base ^ exponent.toNat / base ^ (-exponent).toNat := by
  obtain ⟨natural, rfl | rfl⟩ := exponent.eq_nat_or_neg
  · simp
  · simp

theorem Decimal.value_eq_zero_iff {decimal : Decimal} :
    decimal.value = 0 ↔ decimal.coefficient = 0 := by
  have unit : (10 : ℚ) ^ decimal.places ≠ 0 := by positivity
  rw [value, div_eq_zero_iff, or_iff_left unit, Nat.cast_eq_zero]

namespace Dyadic

@[simp] theorem value_zero (exponent : ℤ) : value ⟨0, exponent⟩ = 0 := by
  simp [value]

theorem denominator_pos (dyadic : Dyadic) : 0 < dyadic.denominator := by
  rw [denominator, Nat.pow_eq]
  positivity

theorem value_eq_div (dyadic : Dyadic) :
    dyadic.value = dyadic.numerator / dyadic.denominator := by
  rw [value, zpow_eq_div, numerator, denominator, Nat.pow_eq, Nat.pow_eq]
  push_cast
  ring

theorem value_nonneg (dyadic : Dyadic) : 0 ≤ dyadic.value := by
  rw [value]
  positivity

/-- A whole dyadic number is one whose value is a natural number. -/
theorem isWhole_iff (dyadic : Dyadic) :
    dyadic.isWhole = true ↔ ∃ whole : ℕ, dyadic.value = whole := by
  have positive : (0 : ℚ) < dyadic.denominator := by exact_mod_cast dyadic.denominator_pos
  rw [isWhole, beq_iff_eq, ← Nat.dvd_iff_mod_eq_zero, value_eq_div]
  constructor
  · rintro ⟨whole, same⟩
    refine ⟨whole, ?_⟩
    rw [same, Nat.cast_mul, mul_div_cancel_left₀ _ positive.ne']
  · rintro ⟨whole, same⟩
    rw [div_eq_iff positive.ne'] at same
    exact ⟨whole, by rw [mul_comm]; exact_mod_cast same⟩

end Dyadic

/-! ## Rounding -/

/-- The whole number is within half of the exact one, and even if it is half away. -/
structure RoundsTo (exact : ℚ) (whole : ℕ) : Prop where
  le_add_half : exact ≤ whole + 1 / 2
  sub_half_le : (whole : ℚ) - 1 / 2 ≤ exact
  even_of_tie : exact = whole + 1 / 2 ∨ exact = whole - 1 / 2 → whole % 2 = 0

namespace RoundsTo

variable {exact other : ℚ} {whole otherWhole : ℕ}

/-- Greater numbers are rounded to greater ones. -/
theorem mono
    (rounds : RoundsTo exact whole)
    (otherRounds : RoundsTo other otherWhole)
    (ordered : exact ≤ other) :
    whole ≤ otherWhole := by
  by_contra exceeds
  have next : (otherWhole : ℚ) + 1 ≤ whole := by exact_mod_cast Nat.lt_of_not_le exceeds
  have above := rounds.sub_half_le
  have below := otherRounds.le_add_half
  -- Both are half away from the same number, and they are neighbours.
  have even := rounds.even_of_tie (.inr (by linarith))
  have otherEven := otherRounds.even_of_tie (.inl (by linarith))
  have neighbours : (whole : ℚ) = otherWhole + 1 := by linarith
  have : whole = otherWhole + 1 := by exact_mod_cast neighbours
  omega

/-- A number is rounded in one way only. -/
theorem unique (rounds : RoundsTo exact whole) (otherRounds : RoundsTo exact otherWhole) :
    whole = otherWhole :=
  Nat.le_antisymm (rounds.mono otherRounds le_rfl) (otherRounds.mono rounds le_rfl)

/-- What is less than half away is the rounded number. -/
theorem of_abs_lt (near : |exact - whole| < 1 / 2) : RoundsTo exact whole := by
  obtain ⟨above, below⟩ := abs_lt.1 near
  refine ⟨by linarith, by linarith, ?_⟩
  rintro (tie | tie) <;> linarith

theorem natCast (whole : ℕ) : RoundsTo whole whole :=
  of_abs_lt (by norm_num)

theorem abs_sub_le (rounds : RoundsTo exact whole) : |exact - whole| ≤ 1 / 2 :=
  abs_le.2 ⟨by linarith [rounds.sub_half_le], by linarith [rounds.le_add_half]⟩

end RoundsTo

/-- A quotient half way between two whole numbers is rounded to the even one. -/
theorem roundQuotient_mod_two_of_tie
    {numerator denominator : ℕ}
    (positive : 0 < denominator)
    (tie : 2 * numerator = 2 * (roundQuotient numerator denominator * denominator) + denominator ∨
      2 * numerator + denominator = 2 * (roundQuotient numerator denominator * denominator)) :
    roundQuotient numerator denominator % 2 = 0 := by
  have split := Nat.div_add_mod' numerator denominator
  have below := Nat.mod_lt numerator positive
  unfold roundQuotient at tie ⊢
  generalize numerator / denominator = quotient at *
  generalize numerator % denominator = remainder at *
  dsimp only at tie ⊢
  split at tie
  · omega
  · split at tie
    · rw [Nat.add_mul, Nat.one_mul] at tie
      omega
    · rename_i notLow notHigh
      rw [if_neg notLow, if_neg notHigh]
      omega

/-- Rounding a quotient rounds the rational number. -/
theorem roundsTo_roundQuotient (numerator : ℕ) {denominator : ℕ} (positive : 0 < denominator) :
    RoundsTo (numerator / denominator) (roundQuotient numerator denominator) := by
  have positiveRat : (0 : ℚ) < denominator := by exact_mod_cast positive
  have notAbove : (2 : ℚ) * (roundQuotient numerator denominator * denominator) ≤
      2 * numerator + denominator := by
    exact_mod_cast two_mul_roundQuotient_mul_le numerator denominator
  have notBelow : (2 : ℚ) * numerator ≤
      2 * (roundQuotient numerator denominator * denominator) + denominator := by
    exact_mod_cast two_mul_le_two_mul_roundQuotient_mul numerator positive
  refine ⟨?_, ?_, fun tie => roundQuotient_mod_two_of_tie positive ?_⟩
  · rw [div_le_iff₀ positiveRat]
    linarith
  · rw [le_div_iff₀ positiveRat]
    linarith
  · rcases tie with tie | tie
    · rw [div_eq_iff positiveRat.ne'] at tie
      have : (2 : ℚ) * numerator =
          2 * (roundQuotient numerator denominator * denominator) + denominator := by
        linarith
      exact .inl (by exact_mod_cast this)
    · rw [div_eq_iff positiveRat.ne'] at tie
      have : (2 : ℚ) * numerator + denominator =
          2 * (roundQuotient numerator denominator * denominator) := by
        linarith
      exact .inr (by exact_mod_cast this)

/-! ## Decimal places -/

namespace Dyadic

/-- Rounding to decimal places rounds the number of units of the last place. -/
theorem rounded_eq_iff {dyadic : Dyadic} {places coefficient : ℕ} :
    dyadic.rounded places = ⟨coefficient, places⟩ ↔
      RoundsTo (dyadic.value * 10 ^ places) coefficient := by
  have rounds := roundsTo_roundQuotient (dyadic.numerator * Nat.pow 10 places)
    dyadic.denominator_pos
  have scaled : ((dyadic.numerator * Nat.pow 10 places : ℕ) : ℚ) / dyadic.denominator =
      dyadic.value * 10 ^ places := by
    rw [value_eq_div, Nat.pow_eq]
    push_cast
    ring
  rw [scaled] at rounds
  rw [rounded, Decimal.mk.injEq, and_iff_left rfl]
  constructor
  · rintro rfl
    exact rounds
  · intro otherRounds
    exact rounds.unique otherRounds

end Dyadic

namespace Decimal

/-- Dropping zeros from the end of the places does not change the number. -/
theorem value_trimmed (decimal : Decimal) : decimal.trimmed.value = decimal.value := by
  obtain ⟨coefficient, places⟩ := decimal
  induction places generalizing coefficient with
  | zero => rfl
  | succ places inductionHypothesis =>
    rw [trimmed_succ]
    split
    · rename_i zero
      obtain ⟨tens, rfl⟩ := Nat.dvd_of_mod_eq_zero zero
      rw [inductionHypothesis, value, value, Nat.mul_div_cancel_left _ (by decide), pow_succ]
      push_cast
      field_simp
    · rfl

end Decimal

end Lox.Number
