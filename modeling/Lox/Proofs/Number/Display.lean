import Lox.Proofs.Number.Doubles
import Lox.Proofs.Token.Numerals
import Lox.Value

/-!
Contract: the text that shows a number.

Owns:
- the form of that text, and the number that a text of the form writes;
- that a finite double is shown by the hundredths nearest to its exact value, an exact tie going to
  the even ones, and that greater doubles are shown as greater numbers.

Does not own: how the text is read again.
-/

namespace Lox.Number

/-! ## Displays -/

/-- The parts of a displayed number: at least one digit without a superfluous zero in front, and at
most two places, the last of which is not a zero. -/
structure Display where
  negative : Bool
  whole : List Char
  places : List Char
  whole_ne_nil : whole ≠ []
  whole_digits : ∀ digit ∈ whole, digit.isDigit = true
  whole_leading : whole.head? = some '0' → whole = ['0']
  places_digits : ∀ digit ∈ places, digit.isDigit = true
  places_length_le : places.length ≤ 2
  places_last : places.getLast? ≠ some '0'

namespace Display

/-- The characters behind the sign.  The point stands only in front of places. -/
def digits (display : Display) : List Char :=
  display.whole ++ if display.places = [] then [] else '.' :: display.places

/-- The displayed text. -/
def text (display : Display) : String :=
  String.ofList ((if display.negative then ['-'] else []) ++ display.digits)

/-- The decimal number that the digits write. -/
def decimal (display : Display) : Decimal :=
  ⟨Nat.ofDigitChars 10 (display.whole ++ display.places) 0, display.places.length⟩

/-- The number that is displayed, without its sign. -/
def magnitude (display : Display) : ℚ :=
  display.decimal.value

/-- The number that is displayed. -/
def value (display : Display) : ℚ :=
  signed display.negative display.magnitude

theorem numeral (display : Display) : Numeral display.digits display.decimal := by
  rw [digits, decimal]
  split
  · rename_i noPlaces
    have numeral := Numeral.whole display.whole_ne_nil display.whole_digits
    rw [noPlaces]
    simpa using numeral
  · rename_i places
    exact .point display.whole_ne_nil display.whole_digits places display.places_digits

theorem head?_digits_ne_minus (display : Display) : display.digits.head? ≠ some '-' := by
  intro minus
  obtain ⟨rest, shape⟩ := List.head?_eq_some_iff.1 minus
  have member : '-' ∈ display.digits := shape ▸ List.mem_cons_self
  rcases display.numeral.isDigit_or_eq_of_mem '-' member with digit | point
  · contradiction
  · contradiction

/-- A text displays one number. -/
theorem value_eq_of_text_eq {display other : Display} (same : display.text = other.text) :
    display.value = other.value := by
  have sameList := String.ofList_injective same
  have parts : display.negative = other.negative ∧ display.digits = other.digits := by
    cases sign : display.negative <;> cases otherSign : other.negative <;>
      rw [sign, otherSign] at sameList
    · exact ⟨rfl, sameList⟩
    · exact absurd (congrArg List.head? sameList) display.head?_digits_ne_minus
    · exact absurd (congrArg List.head? sameList).symm other.head?_digits_ne_minus
    · exact ⟨rfl, (List.cons.inj sameList).2⟩
  obtain ⟨sameSign, sameDigits⟩ := parts
  have read := display.numeral.read?_eq
  rw [sameDigits, other.numeral.read?_eq] at read
  rw [value, value, magnitude, magnitude, sameSign, Option.some.inj read]

end Display

/-! ## Hundredths -/

namespace Decimal

theorem places_trimmed_le (decimal : Decimal) : decimal.trimmed.places ≤ decimal.places := by
  obtain ⟨coefficient, places⟩ := decimal
  induction places generalizing coefficient with
  | zero => exact le_rfl
  | succ places inductionHypothesis =>
    rw [trimmed_succ]
    split
    · exact (inductionHypothesis _).trans (Nat.le_succ places)
    · exact le_rfl

/-- Of the places that are left, the last is not a zero. -/
theorem coefficient_trimmed_mod (decimal : Decimal) (places : decimal.trimmed.places ≠ 0) :
    decimal.trimmed.coefficient % 10 ≠ 0 := by
  obtain ⟨coefficient, allPlaces⟩ := decimal
  induction allPlaces generalizing coefficient with
  | zero => exact absurd rfl places
  | succ others inductionHypothesis =>
    rw [trimmed_succ] at places ⊢
    split at places
    · rename_i zero
      rw [if_pos zero]
      exact inductionHypothesis _ places
    · rename_i nonzero
      rw [if_neg nonzero]
      exact nonzero

end Decimal

/-- A decimal number of at most two places, without zeros at their end, as a display. -/
def Display.ofDecimal
    (negative : Bool)
    (decimal : Decimal)
    (atMost : decimal.places ≤ 2)
    (lastPlace : decimal.places ≠ 0 → decimal.coefficient % 10 ≠ 0) :
    Display where
  negative := negative
  whole := decimal.wholeDigits
  places := decimal.placeDigits
  whole_ne_nil := decimal.wholeDigits_ne_nil
  whole_digits := Decimal.isDigit_of_mem_wholeDigits
  whole_leading := Decimal.wholeDigits_eq_of_head?
  places_digits := Decimal.isDigit_of_mem_placeDigits
  places_length_le := decimal.length_placeDigits.trans_le atMost
  places_last := by
    by_cases noPlaces : decimal.places = 0
    · rw [List.eq_nil_of_length_eq_zero (decimal.length_placeDigits.trans noPlaces)]
      exact nofun
    · exact Decimal.getLast?_placeDigits_ne (lastPlace noPlaces)

section OfDecimal

variable
  {negative : Bool}
  {decimal : Decimal}
  {atMost : decimal.places ≤ 2}
  {lastPlace : decimal.places ≠ 0 → decimal.coefficient % 10 ≠ 0}

theorem Display.text_ofDecimal :
    (ofDecimal negative decimal atMost lastPlace).text = Format.sign negative ++ decimal.text := by
  have sameDigits : (ofDecimal negative decimal atMost lastPlace).digits = decimal.chars := by
    change decimal.wholeDigits ++ (if decimal.placeDigits = [] then [] else _) = _
    have places := decimal.length_placeDigits
    by_cases noPlaces : decimal.places = 0
    · rw [Decimal.chars_of_noPlaces noPlaces, if_pos, List.append_nil]
      exact List.eq_nil_of_length_eq_zero (places.trans noPlaces)
    · rw [Decimal.chars_of_places noPlaces, if_neg]
      · rfl
      · rintro noDigits
        rw [noDigits] at places
        exact noPlaces places.symm
  rw [text, sameDigits, String.ofList_append]
  cases negative <;> rfl

theorem Display.magnitude_ofDecimal :
    (ofDecimal negative decimal atMost lastPlace).magnitude = decimal.value := by
  have same : (ofDecimal negative decimal atMost lastPlace).decimal = decimal := by
    change Decimal.mk (Nat.ofDigitChars 10 (decimal.wholeDigits ++ decimal.placeDigits) 0)
      decimal.placeDigits.length = _
    rw [decimal.ofDigitChars_digits, decimal.length_placeDigits]
  rw [magnitude, same]

end OfDecimal

/-- The hundredths are nearest to the number: no other ones are nearer, and if others are as near,
these are even. -/
structure IsNearestHundredths (exact : ℚ) (hundredths : ℕ) : Prop where
  near (other : ℤ) : |exact - hundredths / 100| ≤ |exact - other / 100|
  even_of_tie (other : ℤ) :
    other ≠ hundredths → |exact - hundredths / 100| = |exact - other / 100| → hundredths % 2 = 0

theorem isNearestHundredths_of_roundsTo
    {exact : ℚ}
    {hundredths : ℕ}
    (rounds : RoundsTo (exact * 100) hundredths) :
    IsNearestHundredths exact hundredths := by
  have scaled (other : ℚ) : |exact - other / 100| = |exact * 100 - other| / 100 := by
    have hundredfold : exact * 100 - other = (exact - other / 100) * 100 := by ring
    rw [hundredfold, abs_mul, abs_of_pos (show (0 : ℚ) < 100 by norm_num)]
    exact (mul_div_cancel_right₀ _ (by norm_num)).symm
  have half := rounds.abs_sub_le
  -- Any other whole number is at least one away from the rounded one.
  have others (other : ℤ) (differs : other ≠ hundredths) : 1 / 2 ≤ |exact * 100 - other| := by
    have apart : (1 : ℚ) ≤ |(hundredths : ℚ) - other| := by
      have : 1 ≤ |(hundredths : ℤ) - other| := Int.one_le_abs (sub_ne_zero.2 differs.symm)
      exact_mod_cast this
    have triangle := abs_sub_le (hundredths : ℚ) (exact * 100) other
    rw [abs_sub_comm (hundredths : ℚ) (exact * 100)] at triangle
    linarith
  constructor
  · intro other
    rw [scaled, scaled]
    by_cases same : other = hundredths
    · rw [same, Int.cast_natCast]
    · have := others other same
      linarith
  · intro other differs tie
    rw [scaled, scaled] at tie
    have atLeast := others other differs
    have isHalf : |exact * 100 - hundredths| = 1 / 2 := by linarith
    rcases (abs_eq (by norm_num)).1 isHalf with above | below
    · exact rounds.even_of_tie (.inl (by linarith))
    · exact rounds.even_of_tie (.inr (by linarith))

/-- Displays are ordered as the exact values are. -/
theorem signed_le_signed_of_roundsTo
    {negative otherNegative : Bool}
    {exact other : ℚ}
    {hundredths otherHundredths : ℕ}
    (nonneg : 0 ≤ exact)
    (otherNonneg : 0 ≤ other)
    (rounds : RoundsTo (exact * 100) hundredths)
    (otherRounds : RoundsTo (other * 100) otherHundredths)
    (ordered : signed negative exact ≤ signed otherNegative other) :
    signed negative (hundredths / 100) ≤ signed otherNegative (otherHundredths / 100) := by
  have mono {lower higher : ℚ} {lowerHundredths higherHundredths : ℕ}
      (rounds : RoundsTo (lower * 100) lowerHundredths)
      (otherRounds : RoundsTo (higher * 100) higherHundredths)
      (ordered : lower ≤ higher) :
      (lowerHundredths : ℚ) / 100 ≤ higherHundredths / 100 := by
    have := rounds.mono otherRounds (mul_le_mul_of_nonneg_right ordered (by norm_num))
    have : (lowerHundredths : ℚ) ≤ higherHundredths := by exact_mod_cast this
    linarith
  cases negative <;> cases otherNegative
  · exact mono rounds otherRounds ordered
  · -- A number that is not negative is below a negative one: both are zero.
    have order : exact ≤ -other := ordered
    have zero : RoundsTo ((0 : ℚ) * 100) 0 := by
      rw [zero_mul]
      exact_mod_cast RoundsTo.natCast 0
    have notPositive := mono rounds zero (by linarith)
    have otherNotPositive := mono otherRounds zero (by linarith)
    change (hundredths : ℚ) / 100 ≤ -(otherHundredths / 100)
    simp only [Nat.cast_zero, zero_div] at notPositive otherNotPositive
    linarith
  · have : (0 : ℚ) ≤ hundredths / 100 := by positivity
    have : (0 : ℚ) ≤ otherHundredths / 100 := by positivity
    exact (neg_nonpos.2 ‹_›).trans ‹_›
  · exact neg_le_neg (mono otherRounds rounds (neg_le_neg_iff.1 ordered))

end Lox.Number

namespace Lox

open Number

/-- The display of a finite double, with the hundredths that it shows. -/
theorem Value.exists_display
    {number : Float}
    {negative : Bool}
    {magnitude : Number.Dyadic}
    (exact : Exact.ofDouble number = .finite negative magnitude) :
    ∃ (display : Display) (hundredths : ℕ),
      (Value.number number).text = display.text ∧ display.negative = negative ∧
        display.magnitude = hundredths / 100 ∧ RoundsTo (magnitude.value * 100) hundredths := by
  obtain ⟨hundredths, rounded⟩ : ∃ hundredths, magnitude.rounded 2 = ⟨hundredths, 2⟩ := ⟨_, rfl⟩
  have rounds := Dyadic.rounded_eq_iff.1 rounded
  have atMost : (magnitude.rounded 2).trimmed.places ≤ 2 :=
    (magnitude.rounded 2).places_trimmed_le
  have lastPlace := (magnitude.rounded 2).coefficient_trimmed_mod
  refine ⟨.ofDecimal negative (magnitude.rounded 2).trimmed atMost lastPlace, hundredths, ?_, rfl,
    ?_, ?_⟩
  · rw [Display.text_ofDecimal]
    exact Value.text_number_of_ofDouble exact
  · rw [Display.magnitude_ofDecimal, Decimal.value_trimmed, rounded, Decimal.value]
    norm_num
  · norm_num at rounds
    exact rounds

/-- A finite double is shown as the nearest hundredths, with a minus sign if its sign bit is set.
So greater doubles are shown as greater numbers. -/
theorem text_number_hundredths {number : Float} (finite : number.isFinite = true) :
    ∃ (display : Display) (magnitude : Number.Dyadic) (hundredths : ℕ),
      (Value.number number).text = display.text ∧
        display.negative = number.toBits.toBitVec.msb ∧
        Exact.ofDouble number = .finite display.negative magnitude ∧
        display.magnitude = hundredths / 100 ∧
        IsNearestHundredths magnitude.value hundredths ∧
        ∀ (other : Float) (otherDisplay : Display), other.isFinite = true → number ≤ other →
          (Value.number other).text = otherDisplay.text → display.value ≤ otherDisplay.value := by
  obtain ⟨negative, magnitude, exact⟩ := Exact.isFinite_iff.1 finite
  obtain ⟨display, hundredths, text, rfl, shown, rounds⟩ := Value.exists_display exact
  refine ⟨display, magnitude, hundredths, text, Exact.negative_eq_msb exact, exact, shown,
    isNearestHundredths_of_roundsTo rounds, ?_⟩
  intro other otherDisplay otherFinite ordered otherText
  obtain ⟨otherNegative, otherMagnitude, otherExact⟩ := Exact.isFinite_iff.1 otherFinite
  obtain ⟨found, otherHundredths, foundText, rfl, otherShown, otherRounds⟩ :=
    Value.exists_display otherExact
  rw [← Display.value_eq_of_text_eq (foundText.symm.trans otherText), Display.value, Display.value,
    shown, otherShown]
  exact signed_le_signed_of_roundsTo magnitude.value_nonneg otherMagnitude.value_nonneg rounds
    otherRounds (Exact.signed_le_signed exact otherExact ordered)

/-- A negative number half way between two hundredths. -/
theorem text_number_hundredths_sample :
    (-Decimal.nearestDouble ⟨125, 3⟩).isFinite = true ∧
      ∃ (display : Display) (magnitude : Number.Dyadic) (hundredths : ℕ),
        (Value.number (-Decimal.nearestDouble ⟨125, 3⟩)).text = display.text ∧
          display.negative = (-Decimal.nearestDouble ⟨125, 3⟩).toBits.toBitVec.msb ∧
          Exact.ofDouble (-Decimal.nearestDouble ⟨125, 3⟩) = .finite display.negative magnitude ∧
          display.magnitude = hundredths / 100 ∧
          IsNearestHundredths magnitude.value hundredths ∧
          ∀ (other : Float) (otherDisplay : Display), other.isFinite = true →
            -Decimal.nearestDouble ⟨125, 3⟩ ≤ other →
            (Value.number other).text = otherDisplay.text →
              display.value ≤ otherDisplay.value := by
  have finite : (-Decimal.nearestDouble ⟨125, 3⟩).isFinite = true := by
    with_unfolding_all rfl
  exact ⟨finite, text_number_hundredths finite⟩

end Lox
