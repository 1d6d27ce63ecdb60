import Lox.Proofs.Token.Rescanning

/-!
Contract: written decimal numbers as sources.

Owns:
- that the written form of a decimal number is a numeral that writes it;
- the parts of the written form: a whole part without a superfluous zero, and the places;
- that scanning a numeral, with or without a minus sign in front of it, gives its tokens.

Does not own: which decimal number is written for a double.
-/

namespace Lox

/-! ## Digits -/

theorem isDigit_of_mem_toDigits {number : Nat} :
    ∀ digit ∈ Nat.toDigits 10 number, digit.isDigit = true :=
  fun _ member => Nat.isDigit_of_mem_toDigits (by decide) (by decide) member

/-- Only zero is written with a zero in front. -/
theorem eq_zero_of_head?_toDigits
    {number : Nat}
    (leading : (Nat.toDigits 10 number).head? = some '0') :
    number = 0 := by
  induction number using Nat.strongRecOn with
  | ind number inductionHypothesis =>
    rcases Nat.lt_or_ge number 10 with small | large
    · clear inductionHypothesis
      revert leading
      revert number
      decide
    · rw [Nat.toDigits_of_base_le (by decide) large, List.head?_append,
        List.head?_eq_some_head Nat.toDigits_ne_nil, Option.some_or,
        ← List.head?_eq_some_head Nat.toDigits_ne_nil] at leading
      have := inductionHypothesis (number / 10) (by omega) leading
      omega

namespace Number.Decimal

/-! ## Written forms -/

section Padded

variable {width number : Nat}

theorem isDigit_of_mem_paddedDigits :
    ∀ digit ∈ paddedDigits width number, digit.isDigit = true := by
  intro digit member
  rcases List.mem_append.1 member with padding | inNumber
  · rw [List.eq_of_mem_replicate padding]
    rfl
  · exact isDigit_of_mem_toDigits digit inNumber

theorem ofDigitChars_paddedDigits (width number : Nat) :
    Nat.ofDigitChars 10 (paddedDigits width number) 0 = number := by
  rw [paddedDigits, Nat.ofDigitChars_append, Nat.ofDigitChars_replicate_zero, Nat.mul_zero,
    Nat.ofDigitChars_ten_toDigits]

/-- A number below the power of ten has as many digits as are asked for. -/
theorem length_paddedDigits (positive : 0 < width) (fits : number < Nat.pow 10 width) :
    (paddedDigits width number).length = width := by
  have atMost := (Nat.length_toDigits_le_iff (by decide) positive).2 fits
  rw [paddedDigits, List.length_append, List.length_replicate]
  omega

end Padded

/-- The digits before the point. -/
def wholeDigits (decimal : Decimal) : List Char :=
  Nat.toDigits 10 (decimal.coefficient / Nat.pow 10 decimal.places)

/-- The digits after the point. -/
def placeDigits (decimal : Decimal) : List Char :=
  match decimal.places with
  | 0 => []
  | places + 1 => paddedDigits (places + 1) (decimal.coefficient % Nat.pow 10 (places + 1))

variable {decimal : Decimal}

theorem chars_of_noPlaces (noPlaces : decimal.places = 0) :
    decimal.chars = decimal.wholeDigits := by
  rw [chars, wholeDigits, noPlaces]
  exact congrArg (Nat.toDigits 10) (Nat.div_one _).symm

theorem chars_of_places (places : decimal.places ≠ 0) :
    decimal.chars = decimal.wholeDigits ++ '.' :: decimal.placeDigits := by
  rw [chars, wholeDigits, placeDigits]
  split
  · contradiction
  · rename_i same
    rw [same]

theorem wholeDigits_ne_nil (decimal : Decimal) : decimal.wholeDigits ≠ [] :=
  Nat.toDigits_ne_nil

theorem isDigit_of_mem_wholeDigits : ∀ digit ∈ decimal.wholeDigits, digit.isDigit = true :=
  isDigit_of_mem_toDigits

/-- The whole part has no zero in front but the one that it is. -/
theorem wholeDigits_eq_of_head? (leading : decimal.wholeDigits.head? = some '0') :
    decimal.wholeDigits = ['0'] := by
  rw [wholeDigits, eq_zero_of_head?_toDigits leading]
  rfl

theorem isDigit_of_mem_placeDigits : ∀ digit ∈ decimal.placeDigits, digit.isDigit = true := by
  rw [placeDigits]
  split
  · intro digit member
    cases member
  · exact isDigit_of_mem_paddedDigits

theorem length_placeDigits (decimal : Decimal) : decimal.placeDigits.length = decimal.places := by
  rw [placeDigits]
  split
  · rename_i same
    exact same.symm
  · rename_i places same
    rw [length_paddedDigits (Nat.succ_pos places) (Nat.mod_lt _ (Nat.pow_pos (by decide))), same]

/-- All the digits are those of the coefficient. -/
theorem ofDigitChars_digits (decimal : Decimal) :
    Nat.ofDigitChars 10 (decimal.wholeDigits ++ decimal.placeDigits) 0 = decimal.coefficient := by
  have places := decimal.length_placeDigits
  rw [Nat.ofDigitChars_append, wholeDigits, Nat.ofDigitChars_ten_toDigits,
    Nat.ofDigitChars_eq_ofDigitChars_zero, places, placeDigits]
  split
  · rename_i noPlaces
    rw [noPlaces, Nat.ofDigitChars_nil, Nat.pow_zero, Nat.one_mul, Nat.add_zero]
    exact Nat.div_one _
  · rename_i same
    rw [ofDigitChars_paddedDigits, same]
    exact Nat.div_add_mod _ _

/-- The last digit is a zero only if that of the coefficient is one. -/
theorem getLast?_placeDigits_ne (lastPlace : decimal.coefficient % 10 ≠ 0) :
    decimal.placeDigits.getLast? ≠ some '0' := by
  intro last
  obtain ⟨others, same⟩ := List.getLast?_eq_some_iff.1 last
  have digits := decimal.ofDigitChars_digits
  rw [same, ← List.append_assoc, Nat.ofDigitChars_append, Nat.ofDigitChars_cons,
    Nat.ofDigitChars_nil] at digits
  omega

/-- The written form is a numeral that writes the number. -/
theorem numeral_chars (decimal : Decimal) : Numeral decimal.chars decimal := by
  have digits := decimal.ofDigitChars_digits
  have places := decimal.length_placeDigits
  by_cases noPlaces : decimal.places = 0
  · have noDigits := List.eq_nil_of_length_eq_zero (places.trans noPlaces)
    rw [noDigits, List.append_nil] at digits
    have numeral := Numeral.whole decimal.wholeDigits_ne_nil isDigit_of_mem_wholeDigits
    rw [digits, ← noPlaces, ← chars_of_noPlaces noPlaces] at numeral
    exact numeral
  · have someDigits : decimal.placeDigits ≠ [] := by
      rw [← List.length_pos_iff, places]
      exact Nat.pos_of_ne_zero noPlaces
    have numeral := Numeral.point decimal.wholeDigits_ne_nil isDigit_of_mem_wholeDigits
      someDigits isDigit_of_mem_placeDigits
    rw [digits, places, ← chars_of_places noPlaces] at numeral
    exact numeral

end Number.Decimal

/-! ## Scanning -/

section Scanning

variable {text : List Char} {decimal : Number.Decimal}

theorem Numeral.count_lineFeed (numeral : Numeral text decimal) : text.count '\n' = 0 := by
  refine List.count_eq_zero.2 fun member => ?_
  rcases numeral.isDigit_or_eq_of_mem '\n' member with digit | point
  · contradiction
  · contradiction

/-- A numeral by itself is one segment. -/
theorem Numeral.exists_cutting (numeral : Numeral text decimal) :
    ∃ cut, Cutting text [cut] ∧ cut.segment.fault? = none ∧
      ∀ line, cut.token? line =
        some ⟨.number decimal.nearestDouble, String.ofList text, line⟩ := by
  have spells : Spells text [] (.token (.number decimal.nearestDouble)) := .number numeral
  have atEnd : ∀ next ∈ ([] : List Char).head?, isBlank next = true :=
    fun _ found => nomatch found
  obtain ⟨segment, ⟨⟨first, passed, same, begins⟩, -⟩, meaning⟩ := spells.exists_read_token atEnd
  obtain rfl : text = first :: passed := same
  have cutting := Cutting.step begins .done
  rw [List.append_nil] at cutting
  exact ⟨_, cutting, (Cut.token?_of_meaning meaning 0).2,
    fun line => (Cut.token?_of_meaning meaning line).1⟩

/-- A numeral is scanned as one number. -/
theorem Numeral.lex_eq (numeral : Numeral text decimal) :
    lex (String.ofList text) =
      ⟨[⟨.number decimal.nearestDouble, String.ofList text, 1⟩, Token.endAt 1], []⟩ := by
  obtain ⟨cut, cutting, noFault, token⟩ := numeral.exists_cutting
  rw [← String.toList_ofList (l := text)] at cutting
  rw [cutting.lex_eq, errorsOf_eq_nil_iff.2 (List.forall_mem_singleton.2 noFault), tokensOf, token,
    String.toList_ofList, numeral.count_lineFeed]
  rfl

/-- A numeral behind a minus sign is scanned as the sign and the number. -/
theorem Numeral.lex_minus (numeral : Numeral text decimal) :
    lex (String.ofList ('-' :: text)) =
      ⟨[⟨.symbol .minus, "-", 1⟩, ⟨.number decimal.nearestDouble, String.ofList text, 1⟩,
        Token.endAt 1], []⟩ := by
  obtain ⟨cut, others, noFault, token⟩ := numeral.exists_cutting
  have begins : Segment.Begins '-' [] (.symbol .minus) text :=
    Segment.begins_symbol rfl (by decide) (.inl rfl)
  have cutting := Cutting.step begins others
  rw [List.nil_append, ← String.toList_ofList (l := '-' :: text)] at cutting
  have noFaults : ∀ cut' ∈ [⟨.symbol .minus, ['-']⟩, cut], cut'.segment.fault? = none :=
    List.forall_mem_cons.2 ⟨rfl, List.forall_mem_singleton.2 noFault⟩
  rw [cutting.lex_eq, errorsOf_eq_nil_iff.2 noFaults, tokensOf, tokensOf, token,
    String.toList_ofList, List.count_cons_of_ne (by decide), numeral.count_lineFeed]
  rfl

end Scanning

end Lox
