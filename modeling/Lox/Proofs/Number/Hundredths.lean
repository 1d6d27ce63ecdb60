import Lox.Proofs.Number.Shortest

/-!
Contract: doubles rounded to hundredths and read again.

Owns:
- that a double rounded to hundredths is read as a double that is rounded to the same hundredths.

Does not own: the written form of the hundredths, or signs.

Where doubles lie far apart, the hundredths are in the double's reading interval, so the double
itself is read.  Where they lie close together, another double can be read, but one so close to the
hundredths that it is rounded to them.
-/

namespace Lox.Number

namespace Dyadic

variable {dyadic : Dyadic} {hundredths : ℕ}

/-- Rounding to hundredths adds or takes away at most half of one. -/
private theorem abs_hundredths_sub_le (rounds : RoundsTo (dyadic.value * 100) hundredths) :
    |(hundredths : ℚ) / 100 - dyadic.value| ≤ 1 / 200 := by
  obtain ⟨below, above⟩ := abs_le.1 rounds.abs_sub_le
  exact abs_le.2 ⟨by linarith, by linarith⟩

/-- The first double of a binade is whole if its last place is not small. -/
private theorem exists_value_eq_of_first
    (first : dyadic.IsFirstOfBinade)
    (atLeast : -6 ≤ dyadic.exponent) :
    ∃ whole : ℕ, dyadic.value = whole := by
  refine ⟨2 ^ (mantissaWidth - 1 + dyadic.exponent).toNat, ?_⟩
  have exponents : ((mantissaWidth - 1 + dyadic.exponent).toNat : ℤ) =
      (mantissaWidth - 1 : ℕ) + dyadic.exponent := by
    simp only [mantissaWidth]
    omega
  rw [value, first.1, Nat.cast_pow, Nat.cast_pow, Nat.cast_ofNat,
    ← zpow_natCast _ (Int.toNat _), exponents, zpow_add₀ (by norm_num), zpow_natCast]

/-- Where the last place is not small, the hundredths are read as the double. -/
private theorem contains_hundredths
    (isDouble : dyadic.IsDouble)
    (atLeast : -6 ≤ dyadic.exponent)
    (rounds : RoundsTo (dyadic.value * 100) hundredths) :
    dyadic.readingInterval.Contains (hundredths / 100) := by
  by_cases first : dyadic.IsFirstOfBinade
  · obtain ⟨whole, value⟩ := exists_value_eq_of_first first atLeast
    have same : hundredths = whole * 100 := by
      refine rounds.unique ?_
      rw [value]
      exact_mod_cast RoundsTo.natCast (whole * 100)
    have exactly : (hundredths : ℚ) / 100 = dyadic.value := by
      rw [same, value]
      push_cast
      exact mul_div_cancel_right₀ _ (by norm_num)
    rw [exactly]
    exact contains_value isDouble.mantissa_pos
  · refine contains_of_abs_lt isDouble.mantissa_pos (.inr ⟨first, ?_⟩)
    have place := two_zpow_le atLeast
    norm_num at place
    have near := abs_hundredths_sub_le rounds
    linarith

/-- Where the last place is small, the double is not great, and the hundredths are not either. -/
private theorem hundredths_lt
    (normal : dyadic.IsNormal)
    (atMost : dyadic.exponent ≤ -7)
    (rounds : RoundsTo (dyadic.value * 100) hundredths) :
    (hundredths : ℚ) / 100 < 2 ^ (mantissaWidth - 1) * 2 ^ (-7 + 1 : ℤ) := by
  have mantissaLe : (dyadic.mantissa : ℚ) ≤ 2 ^ mantissaWidth - 1 := by
    have := normal.mantissa_lt
    have : dyadic.mantissa + 1 ≤ 2 ^ mantissaWidth := this
    have : (dyadic.mantissa : ℚ) + 1 ≤ 2 ^ mantissaWidth := by exact_mod_cast this
    linarith
  have valueLe : dyadic.value ≤ (2 ^ mantissaWidth - 1) * 2 ^ (-7 : ℤ) := by
    refine mul_le_mul mantissaLe (two_zpow_le atMost) (two_zpow_pos _).le ?_
    simp only [mantissaWidth]
    norm_num
  have notAbove := rounds.sub_half_le
  simp only [mantissaWidth] at valueLe ⊢
  norm_num at valueLe ⊢
  linarith

end Dyadic

variable {dyadic : Dyadic} {decimal : Decimal} {hundredths : ℕ}

/-- What a double's hundredths are read as has the same hundredths. -/
theorem Decimal.exists_roundsTo_nearestDouble
    (isDouble : dyadic = ⟨0, 0⟩ ∨ dyadic.IsDouble)
    (rounds : RoundsTo (dyadic.value * 100) hundredths)
    (isHundredths : decimal.value = hundredths / 100) :
    ∃ magnitude, Exact.ofDouble decimal.nearestDouble = .finite false magnitude ∧
      RoundsTo (magnitude.value * 100) hundredths := by
  rcases isDouble with rfl | isDouble
  · have zero : hundredths = 0 := by
      refine rounds.unique ?_
      rw [Dyadic.value_zero, zero_mul]
      exact_mod_cast RoundsTo.natCast 0
    rw [zero, Nat.cast_zero, zero_div, value_eq_zero_iff] at isHundredths
    exact ⟨⟨0, 0⟩, ofDouble_nearestDouble_of_zero isHundredths, rounds⟩
  rcases le_or_gt (-6) dyadic.exponent with atLeast | small
  · refine ⟨dyadic, ?_, rounds⟩
    have contains := Dyadic.contains_hundredths isDouble atLeast rounds
    rw [← isHundredths] at contains
    rw [nearestDouble_of_contains isDouble.normal isDouble.mantissa_pos contains]
    exact Dyadic.ofDouble_toDouble isDouble
  · have lt := Dyadic.hundredths_lt isDouble.normal (by omega) rounds
    rw [← isHundredths] at lt
    obtain ⟨magnitude, exact, near⟩ := exists_near_nearestDouble (by decide) (by decide) lt
    refine ⟨magnitude, exact, .of_abs_lt ?_⟩
    rw [isHundredths] at near
    norm_num at near
    obtain ⟨below, above⟩ := abs_le.1 near
    exact abs_lt.2 ⟨by linarith, by linarith⟩

/-- The decimal number that is shown for a double is read as one for which the same is shown. -/
theorem Exact.exists_rounded_eq
    {number : Float}
    {negative : Bool}
    (exact : ofDouble number = .finite negative dyadic) :
    ∃ magnitude, ofDouble (dyadic.rounded 2).trimmed.nearestDouble = .finite false magnitude ∧
      magnitude.rounded 2 = dyadic.rounded 2 := by
  obtain ⟨hundredths, rounded⟩ : ∃ hundredths, dyadic.rounded 2 = ⟨hundredths, 2⟩ := ⟨_, rfl⟩
  have rounds := Dyadic.rounded_eq_iff.1 rounded
  have shown : (dyadic.rounded 2).trimmed.value = hundredths / 100 := by
    rw [Decimal.value_trimmed, rounded, Decimal.value]
    norm_num
  norm_num at rounds
  obtain ⟨magnitude, readExact, readRounds⟩ :=
    Decimal.exists_roundsTo_nearestDouble (isDouble_of_ofDouble exact) rounds shown
  refine ⟨magnitude, readExact, ?_⟩
  rw [rounded, Dyadic.rounded_eq_iff]
  norm_num
  exact readRounds

end Lox.Number
