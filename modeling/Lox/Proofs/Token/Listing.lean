import Lox.Proofs.Number.Shortest
import Lox.Proofs.Token.Numerals
import Lox.Token.Listing

/-!
Contract: the literal column of number tokens.

Owns:
- the values that number tokens have;
- that the literal of a finite number is scanned as that number again.

Does not own: the literal of infinity, which is a word.
-/

namespace Lox

/-- The value of a number token is the double nearest to the number that its text writes. -/
theorem Token.Scanned.exists_numeral
    {token : Token}
    {value : Float}
    (scanned : token.Scanned)
    (isNumber : token.kind = .number value) :
    ∃ decimal : Number.Decimal, Numeral token.lexeme.toList decimal ∧
      value = decimal.nearestDouble := by
  obtain ⟨rest, spells⟩ := scanned.spells
  rw [isNumber] at spells
  generalize token.lexeme.toList = text at spells ⊢
  cases spells with
  | number numeral => exact ⟨_, numeral, rfl⟩

theorem Token.Scanned.ofDouble_eq
    {token : Token}
    {value : Float}
    (scanned : token.Scanned)
    (isNumber : token.kind = .number value)
    (finite : value.isFinite = true) :
    ∃ magnitude, Number.Exact.ofDouble value = .finite false magnitude := by
  obtain ⟨decimal, _, rfl⟩ := scanned.exists_numeral isNumber
  obtain ⟨negative, magnitude, exact⟩ := Number.Exact.isFinite_iff.1 finite
  rcases decimal.exists_ofDouble_nearestDouble with infinite | found
  · rw [exact] at infinite
    cases infinite
  · exact found

namespace Number.Format

open Number

variable {number : Float} {magnitude : Dyadic}

/-- With a place, a double without a minus sign is written as a number that is read as the
double, and that has places. -/
theorem withPlace_digits (exact : Exact.ofDouble number = .finite false magnitude) :
    (withPlace.digits magnitude).nearestDouble = number ∧
      (withPlace.digits magnitude).places ≠ 0 := by
  simp only [withPlace]
  split
  · rename_i whole
    exact ⟨Exact.nearestDouble_rounded exact whole, Nat.one_ne_zero⟩
  · rename_i notWhole
    refine ⟨Exact.nearestDouble_shortest exact, fun noPlaces => notWhole ?_⟩
    rcases Exact.isDouble_of_ofDouble exact with rfl | isDouble
    · rfl
    · exact Dyadic.isWhole_of_shortest isDouble.mantissa_pos noPlaces

end Number.Format

/-- In a listing, the literal of a finite number has digits on both sides of a point, and it is
scanned as that number. -/
theorem lex_literal_of_number
    {source : String}
    {token : Token}
    {value : Float}
    (member : token ∈ (lex source).tokens)
    (isNumber : token.kind = .number value)
    (finite : value.isFinite = true) :
    ∃ literal : String,
      token.listing = "NUMBER " ++ token.lexeme ++ " " ++ literal ∧
        lex literal = ⟨[⟨.number value, literal, 1⟩, Token.endAt 1], []⟩ ∧
        ∃ whole fraction : List Char, literal.toList = whole ++ '.' :: fraction ∧
          whole ≠ [] ∧ (∀ digit ∈ whole, digit.isDigit = true) ∧
          fraction ≠ [] ∧ ∀ digit ∈ fraction, digit.isDigit = true := by
  have notEnd : token.isEnd = false := by simp [Token.isEnd, isNumber]
  have scanned : token.Scanned := ⟨notEnd, source, member⟩
  obtain ⟨magnitude, exact⟩ := scanned.ofDouble_eq isNumber finite
  obtain ⟨sameDouble, places⟩ := Number.Format.withPlace_digits exact
  have written := Number.Format.withPlace.write_of_ofDouble exact
  generalize Number.Format.withPlace.digits magnitude = decimal at sameDouble places written
  rw [Number.Format.sign, if_neg Bool.false_ne_true, String.empty_append] at written
  refine ⟨decimal.text, ?_, ?_, decimal.wholeDigits, decimal.placeDigits, ?_,
    decimal.wholeDigits_ne_nil, Number.Decimal.isDigit_of_mem_wholeDigits, ?_,
    Number.Decimal.isDigit_of_mem_placeDigits⟩
  · rw [Token.listing, isNumber, TokenKind.literal, written]
    rfl
  · rw [Number.Decimal.text, decimal.numeral_chars.lex_eq, sameDouble]
  · rw [Number.Decimal.text, String.toList_ofList, Number.Decimal.chars_of_places places]
  · rw [← List.length_pos_iff, decimal.length_placeDigits]
    exact Nat.pos_of_ne_zero places

/-- A numeral with more zeros than its number needs. -/
theorem lex_literal_of_number_sample :
    (⟨.number (Number.Decimal.nearestDouble ⟨1250, 3⟩), "01.250", 2⟩ : Token) ∈
        (lex "\n01.250;").tokens ∧
      (Number.Decimal.nearestDouble ⟨1250, 3⟩).isFinite = true ∧
      ∃ literal : String,
        Token.listing ⟨.number (Number.Decimal.nearestDouble ⟨1250, 3⟩), "01.250", 2⟩ =
            "NUMBER " ++ "01.250" ++ " " ++ literal ∧
          lex literal = ⟨[⟨.number (Number.Decimal.nearestDouble ⟨1250, 3⟩), literal, 1⟩,
            Token.endAt 1], []⟩ ∧
          ∃ whole fraction : List Char, literal.toList = whole ++ '.' :: fraction ∧
            whole ≠ [] ∧ (∀ digit ∈ whole, digit.isDigit = true) ∧
            fraction ≠ [] ∧ ∀ digit ∈ fraction, digit.isDigit = true := by
  have tokens : (lex "\n01.250;").tokens =
      [⟨.number (Number.Decimal.nearestDouble ⟨1250, 3⟩), "01.250", 2⟩,
        ⟨.symbol .semicolon, ";", 2⟩, Token.endAt 2] := by
    with_unfolding_all rfl
  have member : (⟨.number (Number.Decimal.nearestDouble ⟨1250, 3⟩), "01.250", 2⟩ : Token) ∈
      (lex "\n01.250;").tokens := by
    rw [tokens]
    exact List.mem_cons_self
  have finite : (Number.Decimal.nearestDouble ⟨1250, 3⟩).isFinite = true := by
    with_unfolding_all rfl
  exact ⟨member, finite, lex_literal_of_number member rfl finite⟩

end Lox
