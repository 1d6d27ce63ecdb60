import Lox.Number.Shortest
import Lox.Proofs.Number.Magnitude

/-!
Contract: which numbers are read as which double.

Owns:
- the last place that a double near a number has, which is what `lastPlace` finds;
- the dyadic numbers that are doubles if their exponent is not too great;
- that `nearestDyadic` gives a double within half a last place of the number;
- that it gives a double for all numbers of the double's reading interval.

Does not own: the bits of doubles, or which decimal number is written for one.
-/

namespace Lox.Number

theorem two_zpow_pos (exponent : ℤ) : (0 : ℚ) < 2 ^ exponent :=
  zpow_pos (by norm_num) exponent

theorem two_zpow_add_one (exponent : ℤ) : (2 : ℚ) ^ (exponent + 1) = 2 * 2 ^ exponent := by
  rw [zpow_add_one₀ (by norm_num), mul_comm]

theorem two_zpow_le {lower higher : ℤ} (ordered : lower ≤ higher) :
    (2 : ℚ) ^ lower ≤ 2 ^ higher :=
  zpow_le_zpow_right₀ (by norm_num) ordered

/-! ## The last place -/

/-- The place is the last one of doubles near the number: at it, the number has as many binary
digits as a full mantissa, or it has fewer and the place is that of the smallest doubles. -/
structure IsLastPlace (exact : ℚ) (place : ℤ) : Prop where
  least_le : leastExponent ≤ place
  lt : exact < 2 ^ mantissaWidth * 2 ^ place
  full : 2 ^ (mantissaWidth - 1) * 2 ^ place ≤ exact ∨ place = leastExponent

namespace IsLastPlace

variable {exact : ℚ} {place other : ℤ}

private theorem not_lt
    (isPlace : IsLastPlace exact place)
    (isOther : IsLastPlace exact other) :
    ¬ place < other := by
  intro below
  have notLeast : other ≠ leastExponent := by
    have := isPlace.least_le
    omega
  have full := isOther.full.resolve_right notLeast
  have next : (2 : ℚ) ^ (place + 1) ≤ 2 ^ other := two_zpow_le (by omega)
  have lt := isPlace.lt
  rw [two_zpow_add_one] at next
  simp only [mantissaWidth] at full lt
  norm_num at full lt
  linarith

/-- A number has one last place. -/
theorem unique (isPlace : IsLastPlace exact place) (isOther : IsLastPlace exact other) :
    place = other := by
  have notBelow := isPlace.not_lt isOther
  have notAbove := isOther.not_lt isPlace
  omega

end IsLastPlace

section LastPlace

variable {numerator denominator : ℕ}

private theorem two_pow_log2_bounds {number : ℕ} (positive : 0 < number) :
    (2 : ℚ) ^ number.log2 ≤ number ∧ (number : ℚ) < 2 * 2 ^ number.log2 := by
  have low : (2 : ℚ) ^ number.log2 ≤ number := by
    exact_mod_cast Nat.log2_self_le positive.ne'
  have high : (number : ℚ) < 2 ^ (number.log2 + 1) := by
    exact_mod_cast Nat.lt_log2_self
  rw [pow_succ'] at high
  exact ⟨low, high⟩

/-- The lengths of the parts of a quotient tell it up to a factor of two on each side. -/
private theorem quotient_bounds
    {guess : ℤ}
    (positive : 0 < numerator)
    (denominatorPositive : 0 < denominator)
    (isGuess : guess = numerator.log2 - denominator.log2) :
    (2 : ℚ) ^ (guess - 1) ≤ numerator / denominator ∧
      (numerator : ℚ) / denominator < 2 ^ (guess + 1) := by
  have denominatorRat : (0 : ℚ) < denominator := by exact_mod_cast denominatorPositive
  obtain ⟨low, high⟩ := two_pow_log2_bounds positive
  obtain ⟨denominatorLow, denominatorHigh⟩ := two_pow_log2_bounds denominatorPositive
  have power : (2 : ℚ) ^ guess * 2 ^ denominator.log2 = 2 ^ numerator.log2 := by
    rw [← zpow_natCast, ← zpow_natCast, ← zpow_add₀ (by norm_num), isGuess, sub_add_cancel]
  constructor
  · have halved : (2 : ℚ) ^ guess = 2 * 2 ^ (guess - 1) := by
      rw [← two_zpow_add_one, sub_add_cancel]
    have := mul_lt_mul_of_pos_left denominatorHigh (two_zpow_pos (guess - 1))
    rw [halved] at power
    rw [le_div_iff₀ denominatorRat]
    linarith
  · rw [div_lt_iff₀ denominatorRat, two_zpow_add_one]
    have := mul_le_mul_of_nonneg_left denominatorLow (two_zpow_pos guess).le
    linarith

/-- The position of the leading binary digit of a quotient, by comparing it with the power of two
that the lengths of its parts suggest. -/
private theorem exists_leading
    (positive : 0 < numerator)
    (denominatorPositive : 0 < denominator) :
    ∃ leading : ℤ,
      lastPlace numerator denominator = max (leading - (mantissaWidth - 1)) leastExponent ∧
        (2 : ℚ) ^ leading ≤ numerator / denominator ∧
        (numerator : ℚ) / denominator < 2 ^ (leading + 1) := by
  have denominatorRat : (0 : ℚ) < denominator := by exact_mod_cast denominatorPositive
  obtain ⟨guess, isGuess⟩ : ∃ guess : ℤ, guess = numerator.log2 - denominator.log2 := ⟨_, rfl⟩
  obtain ⟨below, above⟩ := quotient_bounds positive denominatorPositive isGuess
  have compared : denominator * Nat.pow 2 guess.toNat ≤ numerator * Nat.pow 2 (-guess).toNat ↔
      (2 : ℚ) ^ guess ≤ numerator / denominator := by
    have scale : (0 : ℚ) < 2 ^ (-guess).toNat := by positivity
    rw [zpow_eq_div, div_le_div_iff₀ scale denominatorRat, Nat.pow_eq, Nat.pow_eq,
      ← Nat.cast_le (α := ℚ)]
    push_cast
    rw [mul_comm]
  by_cases reached : (2 : ℚ) ^ guess ≤ numerator / denominator
  · refine ⟨guess, ?_, reached, above⟩
    rw [lastPlace, ← isGuess]
    rw [if_pos (compared.2 reached)]
  · refine ⟨guess - 1, ?_, below, ?_⟩
    · rw [lastPlace, ← isGuess]
      rw [if_neg (mt compared.1 reached)]
    · rw [sub_add_cancel]
      exact not_le.1 reached

/-- `lastPlace` finds the last place. -/
theorem isLastPlace_lastPlace
    (positive : 0 < numerator)
    (denominatorPositive : 0 < denominator) :
    IsLastPlace (numerator / denominator) (lastPlace numerator denominator) := by
  obtain ⟨leading, place, low, high⟩ := exists_leading positive denominatorPositive
  have exponents (exponent : ℤ) (digits : ℕ) :
      (2 : ℚ) ^ digits * 2 ^ exponent = 2 ^ (digits + exponent) := by
    rw [← zpow_natCast, ← zpow_add₀ (by norm_num)]
  rw [place]
  refine ⟨le_max_right _ _, ?_, ?_⟩
  · rw [exponents]
    refine high.trans_le (two_zpow_le ?_)
    simp only [mantissaWidth]
    omega
  · rw [exponents]
    rcases le_or_gt leastExponent (leading - (mantissaWidth - 1)) with normal | small
    · left
      rw [max_eq_left normal]
      refine le_trans (two_zpow_le ?_) low
      simp only [mantissaWidth]
      omega
    · right
      exact max_eq_right small.le

end LastPlace

/-! ## Doubles as dyadic numbers -/

namespace Dyadic

/-- The mantissa fits a double and is as long as it can be at the exponent. -/
structure IsNormal (dyadic : Dyadic) : Prop where
  mantissa_lt : dyadic.mantissa < 2 ^ mantissaWidth
  least_le : leastExponent ≤ dyadic.exponent
  full : 2 ^ (mantissaWidth - 1) ≤ dyadic.mantissa ∨ dyadic.exponent = leastExponent

variable {dyadic other : Dyadic}

theorem IsNormal.value_lt (normal : dyadic.IsNormal) :
    dyadic.value < 2 ^ mantissaWidth * 2 ^ dyadic.exponent := by
  have fits : (dyadic.mantissa : ℚ) < 2 ^ mantissaWidth := by exact_mod_cast normal.mantissa_lt
  exact mul_lt_mul_of_pos_right fits (two_zpow_pos _)

/-- A normal number has its exponent as last place. -/
theorem IsNormal.isLastPlace (normal : dyadic.IsNormal) :
    IsLastPlace dyadic.value dyadic.exponent := by
  refine ⟨normal.least_le, normal.value_lt, normal.full.imp_left fun full => ?_⟩
  have full' : (2 : ℚ) ^ (mantissaWidth - 1) ≤ dyadic.mantissa := by exact_mod_cast full
  exact mul_le_mul_of_nonneg_right full' (two_zpow_pos _).le

/-- Normal numbers are ordered by their exponents and then by their mantissas. -/
theorem IsNormal.value_lt_of_exponent_lt
    (normal : dyadic.IsNormal)
    (otherNormal : other.IsNormal)
    (below : dyadic.exponent < other.exponent) :
    dyadic.value < other.value := by
  have notLeast : other.exponent ≠ leastExponent := by
    have := normal.least_le
    omega
  have full := otherNormal.isLastPlace.full.resolve_right notLeast
  have next : (2 : ℚ) ^ (dyadic.exponent + 1) ≤ 2 ^ other.exponent := two_zpow_le (by omega)
  have lt := normal.value_lt
  rw [two_zpow_add_one] at next
  simp only [mantissaWidth] at full lt
  norm_num at full lt
  linarith

end Dyadic

/-! ## The nearest double -/

section Nearest

variable {numerator denominator : ℕ}

/-- The mantissa of the nearest double before a digit too many is moved. -/
private theorem roundsTo_mantissa
    (numerator : ℕ)
    {denominator : ℕ}
    (denominatorPositive : 0 < denominator)
    (place : ℤ) :
    RoundsTo (numerator / denominator / 2 ^ place)
      (roundQuotient (numerator * Nat.pow 2 (-place).toNat)
        (denominator * Nat.pow 2 place.toNat)) := by
  have positive : 0 < denominator * Nat.pow 2 place.toNat := by
    rw [Nat.pow_eq]
    positivity
  have rounds := roundsTo_roundQuotient (numerator * Nat.pow 2 (-place).toNat) positive
  have scaled : ((numerator * Nat.pow 2 (-place).toNat : ℕ) : ℚ) /
      (denominator * Nat.pow 2 place.toNat : ℕ) = numerator / denominator / 2 ^ place := by
    rw [zpow_eq_div, Nat.pow_eq, Nat.pow_eq]
    push_cast
    field_simp
  rwa [scaled] at rounds

/-- The nearest double is the one whose mantissa is rounded at the last place. -/
theorem nearestDyadic_eq
    {place : ℤ}
    {mantissa : ℕ}
    (positive : 0 < numerator)
    (denominatorPositive : 0 < denominator)
    (isPlace : IsLastPlace (numerator / denominator) place)
    (rounds : RoundsTo (numerator / denominator / 2 ^ place) mantissa) :
    nearestDyadic numerator denominator =
      if mantissa = 2 ^ mantissaWidth then ⟨2 ^ (mantissaWidth - 1), place + 1⟩
      else ⟨mantissa, place⟩ := by
  have samePlace : lastPlace numerator denominator = place :=
    (isLastPlace_lastPlace positive denominatorPositive).unique isPlace
  have sameMantissa := (roundsTo_mantissa numerator denominatorPositive place).unique rounds
  rw [nearestDyadic, samePlace, sameMantissa]
  rfl

/-- The nearest double is at most half a last place away. -/
theorem nearestDyadic_near
    {place : ℤ}
    (positive : 0 < numerator)
    (denominatorPositive : 0 < denominator)
    (isPlace : IsLastPlace (numerator / denominator) place) :
    |(numerator : ℚ) / denominator - (nearestDyadic numerator denominator).value| ≤
      2 ^ place / 2 := by
  have rounds := roundsTo_mantissa numerator denominatorPositive place
  generalize roundQuotient _ _ = mantissa at rounds
  have value : (nearestDyadic numerator denominator).value = mantissa * 2 ^ place := by
    rw [nearestDyadic_eq positive denominatorPositive isPlace rounds]
    split
    · rename_i moved
      rw [Dyadic.value, two_zpow_add_one, moved]
      simp only [mantissaWidth]
      norm_num
      ring
    · rfl
  have scaled : (numerator : ℚ) / denominator - mantissa * 2 ^ place =
      (numerator / denominator / 2 ^ place - mantissa) * 2 ^ place := by
    rw [sub_mul, div_mul_cancel₀ _ (two_zpow_pos place).ne']
  rw [value, scaled, abs_mul, abs_of_pos (two_zpow_pos place)]
  have near := mul_le_mul_of_nonneg_right rounds.abs_sub_le (two_zpow_pos place).le
  linarith

theorem nearestDyadic_exponent_le (numerator denominator : ℕ) :
    (nearestDyadic numerator denominator).exponent ≤ lastPlace numerator denominator + 1 := by
  unfold nearestDyadic
  dsimp only
  split
  · exact le_rfl
  · exact (Int.lt_add_one_of_le le_rfl).le

/-- The nearest double is normal. -/
theorem isNormal_nearestDyadic
    (positive : 0 < numerator)
    (denominatorPositive : 0 < denominator) :
    (nearestDyadic numerator denominator).IsNormal := by
  have isPlace := isLastPlace_lastPlace positive denominatorPositive
  generalize lastPlace numerator denominator = place at isPlace
  have rounds := roundsTo_mantissa numerator denominatorPositive place
  generalize roundQuotient _ _ = mantissa at rounds
  have notAbove : mantissa ≤ 2 ^ mantissaWidth := by
    refine rounds.mono (.natCast _) ?_
    rw [div_le_iff₀ (two_zpow_pos place)]
    exact_mod_cast isPlace.lt.le
  rw [nearestDyadic_eq positive denominatorPositive isPlace rounds]
  split
  · have leastLe := isPlace.least_le
    refine ⟨Nat.pow_lt_pow_right (by decide) (by decide), ?_, .inl le_rfl⟩
    exact leastLe.trans (Int.le_add_one le_rfl)
  · refine ⟨lt_of_le_of_ne notAbove ‹_›, isPlace.least_le, isPlace.full.imp_left fun full => ?_⟩
    refine (RoundsTo.natCast _).mono rounds ?_
    rw [le_div_iff₀ (two_zpow_pos place)]
    exact_mod_cast full

end Nearest

/-! ## Reading intervals -/

/-- The number is in the interval. -/
def ReadingInterval.Contains (interval : ReadingInterval) (exact : ℚ) : Prop :=
  if interval.closed then
    interval.low * 2 ^ interval.unit ≤ exact ∧ exact ≤ interval.high * 2 ^ interval.unit
  else interval.low * 2 ^ interval.unit < exact ∧ exact < interval.high * 2 ^ interval.unit

namespace Dyadic

variable {dyadic : Dyadic} {exact : ℚ}

/-- The double is the least of a greater exponent than the one before it. -/
def IsFirstOfBinade (dyadic : Dyadic) : Prop :=
  dyadic.mantissa = 2 ^ (mantissaWidth - 1) ∧ leastExponent < dyadic.exponent

private theorem quarter (exponent : ℤ) : (2 : ℚ) ^ (exponent - 2) = 2 ^ exponent / 4 := by
  rw [zpow_sub₀ (by norm_num)]
  norm_num

/-- The upper end of the reading interval is half a place above the double. -/
theorem readingInterval_high (dyadic : Dyadic) :
    (dyadic.readingInterval.high : ℚ) * 2 ^ dyadic.readingInterval.unit =
      dyadic.value + 2 ^ dyadic.exponent / 2 := by
  rw [readingInterval, quarter, value]
  push_cast
  ring

/-- The lower end of the reading interval is half a place below the double, or a quarter at the
beginning of a binade. -/
theorem readingInterval_low (mantissaPositive : 0 < dyadic.mantissa) :
    (dyadic.IsFirstOfBinade ∧
        (dyadic.readingInterval.low : ℚ) * 2 ^ dyadic.readingInterval.unit =
          dyadic.value - 2 ^ dyadic.exponent / 4) ∨
      ¬ dyadic.IsFirstOfBinade ∧
        (dyadic.readingInterval.low : ℚ) * 2 ^ dyadic.readingInterval.unit =
          dyadic.value - 2 ^ dyadic.exponent / 2 := by
  by_cases first : dyadic.IsFirstOfBinade
  · refine .inl ⟨first, ?_⟩
    have condition : dyadic.mantissa = Nat.pow 2 (mantissaWidth - 1) ∧
        leastExponent < dyadic.exponent := first
    rw [readingInterval, if_pos condition, quarter, value, Nat.cast_sub (by omega)]
    push_cast
    ring
  · refine .inr ⟨first, ?_⟩
    have condition : ¬ (dyadic.mantissa = Nat.pow 2 (mantissaWidth - 1) ∧
        leastExponent < dyadic.exponent) := first
    rw [readingInterval, if_neg condition, quarter, value, Nat.cast_sub (by omega)]
    push_cast
    ring

theorem readingInterval_closed_iff :
    dyadic.readingInterval.closed = true ↔ dyadic.mantissa % 2 = 0 := by
  rw [readingInterval, beq_iff_eq]

/-- What is less than a quarter of a place away is in the reading interval, and beyond the
beginning of a binade also what is less than half a place away. -/
theorem contains_of_abs_lt
    (mantissaPositive : 0 < dyadic.mantissa)
    (near : |exact - dyadic.value| < 2 ^ dyadic.exponent / 4 ∨
      ¬ dyadic.IsFirstOfBinade ∧ |exact - dyadic.value| < 2 ^ dyadic.exponent / 2) :
    dyadic.readingInterval.Contains exact := by
  have power := two_zpow_pos dyadic.exponent
  have inside : dyadic.readingInterval.low * 2 ^ dyadic.readingInterval.unit < exact ∧
      exact < dyadic.readingInterval.high * 2 ^ dyadic.readingInterval.unit := by
    rw [readingInterval_high]
    rcases readingInterval_low mantissaPositive with ⟨first, low⟩ | ⟨_, low⟩
    · obtain ⟨below, above⟩ := abs_lt.1 (near.resolve_right fun other => other.1 first)
      constructor <;> linarith
    · have half : |exact - dyadic.value| < 2 ^ dyadic.exponent / 2 := by
        rcases near with quarter | ⟨_, half⟩
        · linarith
        · exact half
      obtain ⟨below, above⟩ := abs_lt.1 half
      constructor <;> linarith
  unfold ReadingInterval.Contains
  split
  · exact ⟨inside.1.le, inside.2.le⟩
  · exact inside

theorem contains_value (mantissaPositive : 0 < dyadic.mantissa) :
    dyadic.readingInterval.Contains dyadic.value := by
  refine contains_of_abs_lt mantissaPositive (.inl ?_)
  rw [sub_self, abs_zero]
  exact div_pos (two_zpow_pos _) (by norm_num)

/-- The numbers of a reading interval are at most half a place away, and only if the mantissa is
even are they as much; those below the beginning of a binade are at most a quarter away. -/
private theorem bounds_of_contains
    (mantissaPositive : 0 < dyadic.mantissa)
    (contains : dyadic.readingInterval.Contains exact) :
    (exact ≤ dyadic.value + 2 ^ dyadic.exponent / 2 ∧
      dyadic.value - 2 ^ dyadic.exponent / 2 ≤ exact) ∧
      (dyadic.IsFirstOfBinade → dyadic.value - 2 ^ dyadic.exponent / 4 ≤ exact) ∧
      (exact = dyadic.value + 2 ^ dyadic.exponent / 2 ∨
        exact = dyadic.value - 2 ^ dyadic.exponent / 2 → dyadic.mantissa % 2 = 0) := by
  have power := two_zpow_pos dyadic.exponent
  have low := readingInterval_low mantissaPositive
  unfold ReadingInterval.Contains at contains
  rw [readingInterval_high] at contains
  split at contains
  · rename_i closed
    have even := readingInterval_closed_iff.1 closed
    obtain ⟨below, above⟩ := contains
    rcases low with ⟨first, low⟩ | ⟨notFirst, low⟩ <;> rw [low] at below
    · exact ⟨⟨above, by linarith⟩, fun _ => below, fun _ => even⟩
    · exact ⟨⟨above, below⟩, fun first => absurd first notFirst, fun _ => even⟩
  · obtain ⟨below, above⟩ := contains
    rcases low with ⟨first, low⟩ | ⟨notFirst, low⟩ <;> rw [low] at below
    · refine ⟨⟨above.le, by linarith⟩, fun _ => below.le, ?_⟩
      rintro (tie | tie) <;> linarith
    · refine ⟨⟨above.le, below.le⟩, fun first => absurd first notFirst, ?_⟩
      rintro (tie | tie) <;> linarith

theorem abs_sub_le_of_contains
    (mantissaPositive : 0 < dyadic.mantissa)
    (contains : dyadic.readingInterval.Contains exact) :
    |exact - dyadic.value| ≤ 2 ^ dyadic.exponent / 2 := by
  obtain ⟨⟨above, below⟩, _, _⟩ := bounds_of_contains mantissaPositive contains
  exact abs_le.2 ⟨by linarith, by linarith⟩

end Dyadic

section OfContains

variable {dyadic : Dyadic} {numerator denominator : ℕ}

/-- At the place of the double, the numbers of its reading interval are rounded to its
mantissa. -/
private theorem roundsTo_of_contains
    (mantissaPositive : 0 < dyadic.mantissa)
    (contains : dyadic.readingInterval.Contains (numerator / denominator)) :
    RoundsTo (numerator / denominator / 2 ^ dyadic.exponent) dyadic.mantissa := by
  obtain ⟨⟨above, below⟩, _, even⟩ := Dyadic.bounds_of_contains mantissaPositive contains
  have power := two_zpow_pos dyadic.exponent
  simp only [Dyadic.value] at above below even
  refine ⟨?_, ?_, fun tie => even ?_⟩
  · rw [div_le_iff₀ power]
    linarith
  · rw [le_div_iff₀ power]
    linarith
  · rw [div_eq_iff power.ne', div_eq_iff power.ne'] at tie
    exact tie.imp (fun tie => by linarith) (fun tie => by linarith)

/-- Only numbers below the beginning of a binade are in the reading interval of a double without
having its last place. -/
private theorem isFirstOfBinade_of_contains
    (normal : dyadic.IsNormal)
    (mantissaPositive : 0 < dyadic.mantissa)
    (contains : dyadic.readingInterval.Contains (numerator / denominator))
    (otherPlace : ¬ IsLastPlace (numerator / denominator) dyadic.exponent) :
    dyadic.IsFirstOfBinade ∧
      (numerator : ℚ) / denominator < 2 ^ (mantissaWidth - 1) * 2 ^ dyadic.exponent := by
  obtain ⟨⟨above, below⟩, _, _⟩ := Dyadic.bounds_of_contains mantissaPositive contains
  have power := two_zpow_pos dyadic.exponent
  simp only [Dyadic.value] at above below
  have atMost : (dyadic.mantissa : ℚ) + 1 ≤ 2 ^ mantissaWidth := by
    exact_mod_cast normal.mantissa_lt
  have lt : (numerator : ℚ) / denominator < 2 ^ mantissaWidth * 2 ^ dyadic.exponent := by
    have := mul_le_mul_of_nonneg_right atMost power.le
    linarith
  have notFull : (numerator : ℚ) / denominator < 2 ^ (mantissaWidth - 1) * 2 ^ dyadic.exponent :=
    not_le.1 fun full => otherPlace ⟨normal.least_le, lt, .inl full⟩
  have notLeast : dyadic.exponent ≠ leastExponent :=
    fun least => otherPlace ⟨normal.least_le, lt, .inr least⟩
  refine ⟨⟨le_antisymm (not_lt.1 fun greater => ?_) (normal.full.resolve_right notLeast),
    lt_of_le_of_ne normal.least_le notLeast.symm⟩, notFull⟩
  -- The next mantissa is a whole place above the beginning of the binade.
  have next : (2 : ℚ) ^ (mantissaWidth - 1) + 1 ≤ dyadic.mantissa := by exact_mod_cast greater
  have := mul_le_mul_of_nonneg_right next power.le
  linarith

/-- The numbers a quarter of a place below the beginning of a binade are rounded up to it. -/
private theorem nearestDyadic_of_first
    (first : dyadic.IsFirstOfBinade)
    (positive : 0 < numerator)
    (denominatorPositive : 0 < denominator)
    (quarterBelow : dyadic.value - 2 ^ dyadic.exponent / 4 ≤ numerator / denominator)
    (notFull : (numerator : ℚ) / denominator < 2 ^ (mantissaWidth - 1) * 2 ^ dyadic.exponent) :
    nearestDyadic numerator denominator = dyadic := by
  obtain ⟨mantissa, exponent⟩ := dyadic
  obtain ⟨isMantissa, leastLt⟩ := first
  dsimp only at isMantissa leastLt quarterBelow notFull
  subst isMantissa
  have halfPower := two_zpow_pos (exponent - 1)
  have halved : (2 : ℚ) ^ exponent = 2 * 2 ^ (exponent - 1) := by
    rw [← two_zpow_add_one, sub_add_cancel]
  simp only [Dyadic.value, mantissaWidth] at quarterBelow notFull
  norm_num at quarterBelow notFull
  have isPlace : IsLastPlace (numerator / denominator) (exponent - 1) := by
    refine ⟨Int.le_sub_one_of_lt leastLt, ?_, .inl ?_⟩ <;> simp only [mantissaWidth] <;> norm_num
    · linarith
    · linarith
  have rounds : RoundsTo (numerator / denominator / 2 ^ (exponent - 1)) (2 ^ mantissaWidth) := by
    refine ⟨?_, ?_, fun _ => by decide⟩
    · rw [div_le_iff₀ halfPower]
      simp only [mantissaWidth]
      norm_num
      linarith
    · rw [le_div_iff₀ halfPower]
      simp only [mantissaWidth]
      norm_num
      linarith
  rw [nearestDyadic_eq positive denominatorPositive isPlace rounds, if_pos rfl, sub_add_cancel]

/-- The numbers in the reading interval of a double are read as that double. -/
theorem nearestDyadic_of_contains
    (normal : dyadic.IsNormal)
    (mantissaPositive : 0 < dyadic.mantissa)
    (denominatorPositive : 0 < denominator)
    (contains : dyadic.readingInterval.Contains (numerator / denominator)) :
    nearestDyadic numerator denominator = dyadic := by
  obtain ⟨⟨_, below⟩, belowFirst, _⟩ := Dyadic.bounds_of_contains mantissaPositive contains
  have positive : 0 < numerator := by
    have power := two_zpow_pos dyadic.exponent
    have atLeastOne : (1 : ℚ) ≤ dyadic.mantissa := by exact_mod_cast mantissaPositive
    have atLeastPower : (2 : ℚ) ^ dyadic.exponent ≤ dyadic.value :=
      le_mul_of_one_le_left power.le atLeastOne
    refine Nat.pos_of_ne_zero fun zero => ?_
    rw [zero, Nat.cast_zero, zero_div] at below
    linarith
  by_cases isPlace : IsLastPlace (numerator / denominator) dyadic.exponent
  · rw [nearestDyadic_eq positive denominatorPositive isPlace
      (roundsTo_of_contains mantissaPositive contains), if_neg normal.mantissa_lt.ne]
  · obtain ⟨first, notFull⟩ := isFirstOfBinade_of_contains normal mantissaPositive contains isPlace
    exact nearestDyadic_of_first first positive denominatorPositive (belowFirst first) notFull

end OfContains

end Lox.Number
