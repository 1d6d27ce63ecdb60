import Lox.Number.Shortest

/-!
Contract: the written form of doubles.

Owns:
- the record of choices that make a number format;
- writing a double in a format.

Does not own: which format a token, an expression or a value is written in.
-/

namespace Lox.Number

/-- A way to write doubles: the word for infinity and the decimal number that is written for a
finite magnitude. -/
structure Format where
  infinity : String
  digits : Dyadic → Decimal

namespace Format

/-- A minus sign for negative numbers, zero and infinity included, and nothing for others. -/
def sign (negative : Bool) : String :=
  if negative then "-" else ""

/-- The text of a double in the format.  A number that is none is `NaN` in every format. -/
def write (format : Format) (number : Float) : String :=
  match Exact.ofDouble number with
  | .notANumber => "NaN"
  | .infinite negative => sign negative ++ format.infinity
  | .finite negative magnitude => sign negative ++ (format.digits magnitude).text

theorem write_of_ofDouble
    (format : Format)
    {number : Float}
    {negative : Bool}
    {magnitude : Dyadic}
    (exact : Exact.ofDouble number = .finite negative magnitude) :
    format.write number = sign negative ++ (format.digits magnitude).text := by
  rw [write, exact]

/-- The fewest digits that are read as the same number, never with an exponent. -/
def shortest : Format where
  infinity := "inf"
  digits := Dyadic.shortest

/-- As `shortest`, but a whole number has all its digits and one place, a zero. -/
def withPlace : Format where
  infinity := "inf"
  digits := fun magnitude =>
    if magnitude.isWhole then magnitude.rounded 1 else magnitude.shortest

/-- At most two places: the exact number rounded to hundredths, a tie to the even one, without
zeros at the end of the places. -/
def hundredths : Format where
  infinity := "Infinity"
  digits := fun magnitude => (magnitude.rounded 2).trimmed

end Format

end Lox.Number
