import Lox.Proofs.Number.Doubles

/-!
Contract: decimal numbers that are read as a given double.

Owns:
- that the numbers of a double's reading interval are read as the double;
- that decimal numbers are read as doubles without a minus sign, near to them if they are not too
  great;
- that the shortest decimal number of a double is in its reading interval, so that it is read as
  the double, and that it has places unless the double is whole.

Does not own: that no decimal number with fewer digits is in the interval.
-/

namespace Lox.Number

/-! ## Reading decimal numbers -/

namespace Decimal

variable {decimal : Decimal} {dyadic : Dyadic}

private theorem unit_pos (decimal : Decimal) : 0 < Nat.pow 10 decimal.places :=
  Nat.pow_pos (by decide)

private theorem value_eq_div (decimal : Decimal) :
    decimal.value = decimal.coefficient / (Nat.pow 10 decimal.places : ℕ) := by
  rw [value, Nat.pow_eq, Nat.cast_pow, Nat.cast_ofNat]

/-- A decimal number in the reading interval of a double is read as that double. -/
theorem nearestDouble_of_contains
    (normal : dyadic.IsNormal)
    (mantissaPositive : 0 < dyadic.mantissa)
    (contains : dyadic.readingInterval.Contains decimal.value) :
    decimal.nearestDouble = dyadic.toDouble := by
  rw [value_eq_div] at contains
  rw [nearestDouble, nearestDyadic_of_contains normal mantissaPositive decimal.unit_pos contains]

/-- Zero is read as zero. -/
theorem ofDouble_nearestDouble_of_zero (zero : decimal.coefficient = 0) :
    Exact.ofDouble decimal.nearestDouble = .finite false ⟨0, 0⟩ := by
  refine Dyadic.ofDouble_toDouble_of_zero ?_
  have mantissa (step : ℕ) : roundQuotient 0 step = 0 := by simp [roundQuotient]
  have notFull : 0 ≠ Nat.pow 2 mantissaWidth := by decide
  rw [zero, nearestDyadic]
  simp only [Nat.zero_mul, mantissa, if_neg notFull]

/-- What is read is a finite double without a minus sign, or infinity. -/
theorem exists_ofDouble_nearestDouble (decimal : Decimal) :
    Exact.ofDouble decimal.nearestDouble = .infinite false ∨
      ∃ magnitude, Exact.ofDouble decimal.nearestDouble = .finite false magnitude := by
  obtain zero | positive := Nat.eq_zero_or_pos decimal.coefficient
  · exact .inr ⟨_, ofDouble_nearestDouble_of_zero zero⟩
  have normal := isNormal_nearestDyadic positive decimal.unit_pos
  rw [nearestDouble]
  generalize nearestDyadic decimal.coefficient (Nat.pow 10 decimal.places) = dyadic at normal ⊢
  rcases le_or_gt dyadic.exponent greatestExponent with leGreatest | exceeds
  · obtain ⟨magnitude, exact, _⟩ := normal.exists_ofDouble leGreatest
    exact .inr ⟨magnitude, exact⟩
  · left
    have notLeast : dyadic.exponent ≠ leastExponent := (lt_trans (by decide) exceeds).ne'
    have full := normal.full.resolve_right notLeast
    exact Dyadic.ofDouble_toDouble_of_exceeds ((Nat.two_pow_pos _).trans_le full) exceeds

/-- A decimal number is read as a finite double at most half a place away if the place is that of
the doubles near the number, or a greater one. -/
theorem exists_near_nearestDouble
    {place : ℤ}
    (leastLe : leastExponent ≤ place)
    (ltGreatest : place < greatestExponent)
    (lt : decimal.value < 2 ^ (mantissaWidth - 1) * 2 ^ (place + 1)) :
    ∃ magnitude, Exact.ofDouble decimal.nearestDouble = .finite false magnitude ∧
      |decimal.value - magnitude.value| ≤ 2 ^ place / 2 := by
  obtain zero | positive := Nat.eq_zero_or_pos decimal.coefficient
  · refine ⟨_, ofDouble_nearestDouble_of_zero zero, ?_⟩
    rw [value, Dyadic.value, zero]
    simpa using (half_pos (two_zpow_pos place)).le
  have isPlace := isLastPlace_lastPlace positive decimal.unit_pos
  have exponentLe := nearestDyadic_exponent_le decimal.coefficient (Nat.pow 10 decimal.places)
  have near := nearestDyadic_near positive decimal.unit_pos isPlace
  rw [← value_eq_div] at isPlace near
  have placeLe : lastPlace decimal.coefficient (Nat.pow 10 decimal.places) ≤ place := by
    rcases isPlace.full with full | least
    · by_contra above
      have := two_zpow_le (show place + 1 ≤ lastPlace decimal.coefficient
        (Nat.pow 10 decimal.places) by omega)
      have := mul_le_mul_of_nonneg_left this
        (show (0 : ℚ) ≤ 2 ^ (mantissaWidth - 1) by positivity)
      linarith
    · exact least.trans_le leastLe
  obtain ⟨magnitude, exact, sameValue⟩ :=
    (isNormal_nearestDyadic positive decimal.unit_pos).exists_ofDouble (by omega)
  refine ⟨magnitude, exact, ?_⟩
  rw [sameValue]
  have := two_zpow_le placeLe
  linarith

end Decimal

/-! ## The shortest decimal number -/

namespace ReadingInterval

variable {interval : ReadingInterval} {exponent : ℤ}

/-- The integers that the search compares are units of the interval and points of the grid, all
times the same number. -/
private theorem exists_comparison (unit exponent : ℤ) :
    ∃ scale step : ℕ,
      scale = Nat.pow 2 unit.toNat * Nat.pow 10 (-exponent).toNat ∧
        step = Nat.pow 2 (-unit).toNat * Nat.pow 10 exponent.toNat ∧
        0 < step ∧
        (∀ units points : ℕ, units * scale ≤ points * step ↔
          (units : ℚ) * 2 ^ unit ≤ points * 10 ^ exponent) ∧
        ∀ units points : ℕ, points * step ≤ units * scale ↔
          (points : ℚ) * 10 ^ exponent ≤ units * 2 ^ unit := by
  obtain ⟨scale, scaleEq⟩ : ∃ scale, scale = Nat.pow 2 unit.toNat * Nat.pow 10 (-exponent).toNat :=
    ⟨_, rfl⟩
  obtain ⟨step, stepEq⟩ : ∃ step, step = Nat.pow 2 (-unit).toNat * Nat.pow 10 exponent.toNat :=
    ⟨_, rfl⟩
  obtain ⟨common, isCommon⟩ : ∃ common : ℚ,
      common = 2 ^ (-unit).toNat * 10 ^ (-exponent).toNat := ⟨_, rfl⟩
  have commonPositive : 0 < common := by
    rw [isCommon]
    positivity
  have isScale : (scale : ℚ) = 2 ^ unit * common := by
    rw [scaleEq, isCommon, zpow_eq_div, Nat.pow_eq, Nat.pow_eq]
    push_cast
    field_simp
  have isStep : (step : ℚ) = 10 ^ exponent * common := by
    rw [stepEq, isCommon, zpow_eq_div, Nat.pow_eq, Nat.pow_eq]
    push_cast
    field_simp
  refine ⟨scale, step, scaleEq, stepEq, ?_, fun units points => ?_, fun units points => ?_⟩
  · have : (0 : ℚ) < step := by
      rw [isStep]
      positivity
    exact_mod_cast this
  · rw [← Nat.cast_le (α := ℚ), Nat.cast_mul, Nat.cast_mul, isScale, isStep, ← mul_assoc,
      ← mul_assoc, mul_le_mul_iff_left₀ commonPositive]
  · rw [← Nat.cast_le (α := ℚ), Nat.cast_mul, Nat.cast_mul, isScale, isStep, ← mul_assoc,
      ← mul_assoc, mul_le_mul_iff_left₀ commonPositive]

/-- The point that the search finds is in the interval. -/
theorem contains_of_gridPoint?
    {point : ℕ}
    (lowLe : interval.low ≤ interval.centre)
    (ltHigh : interval.centre < interval.high)
    (found : interval.gridPoint? exponent = some point) :
    interval.Contains (point * 10 ^ exponent) := by
  obtain ⟨scale, step, isScale, isStep, stepPositive, le_iff, ge_iff⟩ :=
    exists_comparison interval.unit exponent
  have lt_iff (units points : ℕ) : units * scale < points * step ↔
      (units : ℚ) * 2 ^ interval.unit < points * 10 ^ exponent := by
    rw [← not_le, ge_iff, not_le]
  have gt_iff (units points : ℕ) : points * step < units * scale ↔
      (points : ℚ) * 10 ^ exponent < units * 2 ^ interval.unit := by
    rw [← not_le, le_iff, not_le]
  have unitPositive := two_zpow_pos interval.unit
  have lowLe' : (interval.low : ℚ) * 2 ^ interval.unit ≤ interval.centre * 2 ^ interval.unit :=
    mul_le_mul_of_nonneg_right (by exact_mod_cast lowLe) unitPositive.le
  have ltHigh' : (interval.centre : ℚ) * 2 ^ interval.unit < interval.high * 2 ^ interval.unit :=
    mul_lt_mul_of_pos_right (by exact_mod_cast ltHigh) unitPositive
  -- The centre is between the two points that are looked at.
  have below := (ge_iff _ _).1 (Nat.div_mul_le_self (interval.centre * scale) step)
  have above := (lt_iff _ _).1 (Nat.lt_mul_of_div_lt
    (Nat.lt_succ_self (interval.centre * scale / step)) stepPositive)
  push_cast at above
  unfold gridPoint? at found
  rw [← isScale, ← isStep] at found
  unfold Contains
  generalize interval.closed = closed at found ⊢
  cases closed with
  | true =>
    simp only [if_true] at found ⊢
    split at found
    · rename_i inside
      cases found
      have belowInside := of_decide_eq_true (Bool.and_eq_true_iff.1 inside).1
      exact ⟨(le_iff _ _).1 belowInside, below.trans ltHigh'.le⟩
    · split at found <;> cases found
      rename_i aboveInside
      have atMost := (ge_iff _ _).1 (of_decide_eq_true aboveInside)
      push_cast at atMost ⊢
      exact ⟨lowLe'.trans above.le, atMost⟩
  | false =>
    simp only [Bool.false_eq_true, if_false] at found ⊢
    split at found
    · rename_i inside
      cases found
      have belowInside := of_decide_eq_true (Bool.and_eq_true_iff.1 inside).1
      exact ⟨(lt_iff _ _).1 belowInside, below.trans_lt ltHigh'⟩
    · split at found <;> cases found
      rename_i aboveInside
      have atMost := (gt_iff _ _).1 (of_decide_eq_true aboveInside)
      push_cast at atMost ⊢
      exact ⟨lowLe'.trans_lt above, atMost⟩

end ReadingInterval

theorem Decimal.value_ofGrid (point : ℕ) (exponent : ℤ) :
    (Decimal.ofGrid point exponent).value = point * 10 ^ exponent := by
  rw [ofGrid, value_trimmed, value, zpow_eq_div, Nat.pow_eq]
  push_cast
  ring

namespace Dyadic

variable {dyadic : Dyadic}

theorem value_exactDecimal (dyadic : Dyadic) : dyadic.exactDecimal.value = dyadic.value := by
  have factors : (10 : ℚ) ^ (-dyadic.exponent).toNat =
      2 ^ (-dyadic.exponent).toNat * 5 ^ (-dyadic.exponent).toNat := by
    rw [← mul_pow]
    norm_num
  rw [exactDecimal, Decimal.value, value, numerator, factors, zpow_eq_div, Nat.pow_eq, Nat.pow_eq]
  push_cast
  field_simp

/-- The shortest decimal number of a double is in its reading interval. -/
theorem contains_shortest (mantissaPositive : 0 < dyadic.mantissa) :
    dyadic.readingInterval.Contains dyadic.shortest.value := by
  rw [shortest, if_neg mantissaPositive.ne']
  dsimp only
  split
  · rename_i point exponent found
    obtain ⟨candidate, _, foundAt⟩ := List.exists_of_findSome?_eq_some found
    obtain ⟨found, foundPoint, same⟩ := Option.map_eq_some_iff.1 foundAt
    obtain ⟨rfl, rfl⟩ := Prod.mk.inj same
    rw [Decimal.value_ofGrid]
    refine ReadingInterval.contains_of_gridPoint? ?_ ?_ foundPoint
    · simp only [readingInterval]
      split <;> omega
    · exact Nat.lt_add_of_pos_right (by decide)
  · rw [value_exactDecimal]
    exact contains_value mantissaPositive

/-- The shortest decimal number of a double is read as that double. -/
theorem nearestDouble_shortest (isDouble : dyadic.IsDouble) :
    dyadic.shortest.nearestDouble = dyadic.toDouble :=
  Decimal.nearestDouble_of_contains isDouble.normal isDouble.mantissa_pos
    (contains_shortest isDouble.mantissa_pos)

/-- A double whose shortest decimal number is whole is whole itself: it is a whole number of last
places and less than one of them away. -/
theorem isWhole_of_shortest
    (mantissaPositive : 0 < dyadic.mantissa)
    (noPlaces : dyadic.shortest.places = 0) :
    dyadic.isWhole = true := by
  have near := abs_sub_le_of_contains mantissaPositive (contains_shortest mantissaPositive)
  rw [Decimal.value, noPlaces, pow_zero, div_one] at near
  generalize dyadic.shortest.coefficient = whole at near
  rw [isWhole_iff]
  rw [value] at near ⊢
  obtain ⟨places, isExponent | isExponent⟩ := dyadic.exponent.eq_nat_or_neg
  · refine ⟨dyadic.mantissa * 2 ^ places, ?_⟩
    rw [isExponent, zpow_natCast]
    push_cast
    rfl
  · have power : (0 : ℚ) < 2 ^ places := by positivity
    rw [isExponent, zpow_neg, zpow_natCast] at near ⊢
    have scaled : ((whole : ℚ) - dyadic.mantissa * (2 ^ places)⁻¹) * 2 ^ places =
        ((whole * 2 ^ places - dyadic.mantissa : ℤ) : ℚ) := by
      push_cast
      field_simp
    have bound := mul_le_mul_of_nonneg_right near power.le
    rw [← abs_of_pos power, ← abs_mul, abs_of_pos power, scaled, div_mul_eq_mul_div,
      inv_mul_cancel₀ power.ne'] at bound
    have same : (whole * 2 ^ places - dyadic.mantissa : ℤ) = 0 := by
      rw [← Int.abs_lt_one_iff]
      have : |((whole * 2 ^ places - dyadic.mantissa : ℤ) : ℚ)| < 1 := bound.trans_lt (by norm_num)
      exact_mod_cast this
    refine ⟨whole, ?_⟩
    rw [← div_eq_mul_inv, div_eq_iff power.ne']
    exact_mod_cast (sub_eq_zero.1 same).symm

/-- A whole double written with one place, a zero, is read as that double. -/
theorem nearestDouble_rounded
    (isDouble : dyadic.IsDouble)
    (whole : dyadic.isWhole = true) :
    (dyadic.rounded 1).nearestDouble = dyadic.toDouble := by
  obtain ⟨number, value⟩ := dyadic.isWhole_iff.1 whole
  have tenfold : dyadic.rounded 1 = ⟨number * 10, 1⟩ := by
    rw [rounded_eq_iff, value, pow_one]
    exact_mod_cast RoundsTo.natCast (number * 10)
  have sameValue : (dyadic.rounded 1).value = dyadic.value := by
    rw [tenfold, Decimal.value, value, pow_one]
    push_cast
    exact mul_div_cancel_right₀ _ (by norm_num)
  refine Decimal.nearestDouble_of_contains isDouble.normal isDouble.mantissa_pos ?_
  rw [sameValue]
  exact contains_value isDouble.mantissa_pos

end Dyadic

namespace Exact

variable {number : Float} {magnitude : Dyadic}

/-- A decimal number that is read as the magnitude is read as the double, if that has no minus
sign; for zero, that is any decimal number that is zero. -/
private theorem nearestDouble_eq
    {decimal : Decimal}
    (exact : ofDouble number = .finite false magnitude)
    (isZero : magnitude = ⟨0, 0⟩ → decimal.coefficient = 0)
    (isRead : magnitude.IsDouble → decimal.nearestDouble = magnitude.toDouble) :
    decimal.nearestDouble = number := by
  rw [← toDouble_of_ofDouble exact]
  rcases isDouble_of_ofDouble exact with rfl | isDouble
  · exact (toDouble_of_ofDouble (Decimal.ofDouble_nearestDouble_of_zero (isZero rfl))).symm
  · exact isRead isDouble

/-- The shortest decimal number of a double without a minus sign is read as the double. -/
theorem nearestDouble_shortest (exact : ofDouble number = .finite false magnitude) :
    magnitude.shortest.nearestDouble = number := by
  refine nearestDouble_eq exact ?_ Dyadic.nearestDouble_shortest
  rintro rfl
  rfl

/-- So is a whole one with a zero as its place. -/
theorem nearestDouble_rounded
    (exact : ofDouble number = .finite false magnitude)
    (whole : magnitude.isWhole = true) :
    (magnitude.rounded 1).nearestDouble = number := by
  refine nearestDouble_eq exact ?_ fun isDouble => Dyadic.nearestDouble_rounded isDouble whole
  rintro rfl
  rfl

end Exact

end Lox.Number
