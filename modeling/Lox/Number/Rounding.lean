/-!
Contract: rounding a quotient of natural numbers to the nearest natural number.

Owns:
- `roundQuotient`, with an exact half going to the even neighbour;
- its two half-unit bounds, and its value on a quotient without remainder.

Does not own: which quotients are rounded, or how a rounded number is written.
-/

namespace Lox.Number

/-- The natural number nearest to `numerator / denominator`; of two equally near ones the even
one. -/
def roundQuotient (numerator denominator : Nat) : Nat :=
  let quotient := numerator / denominator
  let remainder := numerator % denominator
  if 2 * remainder < denominator then quotient
  else if denominator < 2 * remainder then quotient + 1
  else quotient + quotient % 2

/-- Rounding adds at most half a unit. -/
theorem two_mul_roundQuotient_mul_le (numerator denominator : Nat) :
    2 * (roundQuotient numerator denominator * denominator) ≤ 2 * numerator + denominator := by
  have split := Nat.div_add_mod' numerator denominator
  have parity := Nat.mod_two_eq_zero_or_one (numerator / denominator)
  unfold roundQuotient
  generalize numerator / denominator = quotient at *
  generalize numerator % denominator = remainder at *
  dsimp only
  split <;> rename_i low
  · omega
  · split <;> rename_i high
    · rw [Nat.add_mul, Nat.one_mul]
      omega
    · rcases parity with even | odd
      · rw [even, Nat.add_zero]
        omega
      · rw [odd, Nat.add_mul, Nat.one_mul]
        omega

/-- Rounding takes away at most half a unit. -/
theorem two_mul_le_two_mul_roundQuotient_mul
    (numerator : Nat)
    {denominator : Nat}
    (positive : 0 < denominator) :
    2 * numerator ≤ 2 * (roundQuotient numerator denominator * denominator) + denominator := by
  have split := Nat.div_add_mod' numerator denominator
  have below := Nat.mod_lt numerator positive
  have parity := Nat.mod_two_eq_zero_or_one (numerator / denominator)
  unfold roundQuotient
  generalize numerator / denominator = quotient at *
  generalize numerator % denominator = remainder at *
  dsimp only
  split <;> rename_i low
  · omega
  · split <;> rename_i high
    · rw [Nat.add_mul, Nat.one_mul]
      omega
    · rcases parity with even | odd
      · rw [even, Nat.add_zero]
        omega
      · rw [odd, Nat.add_mul, Nat.one_mul]
        omega

/-- A quotient without remainder is not changed. -/
theorem roundQuotient_mul_self
    (quotient : Nat)
    {denominator : Nat}
    (positive : 0 < denominator) :
    roundQuotient (quotient * denominator) denominator = quotient := by
  simp [roundQuotient, positive]

end Lox.Number
