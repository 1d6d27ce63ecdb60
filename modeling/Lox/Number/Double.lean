import Lox.Number.Decimal
import Lox.Number.Rounding

/-!
Contract: doubles as exact numbers.

Owns:
- dyadic numbers, the exact magnitudes of finite doubles;
- the exact value `Exact.ofDouble` of a double;
- rounding a dyadic number to decimal places, and a decimal number to the nearest double.

Does not own: the shortest decimal that stands for a double, or any choice of written form.
-/

namespace Lox.Number

/-! ## Dyadic numbers -/

/-- The number `mantissa * 2 ^ exponent`. -/
structure Dyadic where
  mantissa : Nat
  exponent : Int
deriving DecidableEq, Repr

namespace Dyadic

/-- The numerator of the number as a fraction over `denominator`. -/
def numerator (dyadic : Dyadic) : Nat :=
  dyadic.mantissa * Nat.pow 2 dyadic.exponent.toNat

/-- The power of two under `numerator`. -/
def denominator (dyadic : Dyadic) : Nat :=
  Nat.pow 2 (-dyadic.exponent).toNat

/-- Whether the number is a whole number. -/
def isWhole (dyadic : Dyadic) : Bool :=
  dyadic.numerator % dyadic.denominator == 0

/-- The nearest decimal number with that many places; an exact tie goes to the even last
digit. -/
def rounded (places : Nat) (dyadic : Dyadic) : Decimal :=
  ⟨roundQuotient (dyadic.numerator * Nat.pow 10 places) dyadic.denominator, places⟩

end Dyadic

/-! ## The exact value of a double -/

/-- What a double stands for.  Zero is the finite number of mantissa zero, of either sign. -/
inductive Exact where
  | notANumber
  | infinite (negative : Bool)
  | finite (negative : Bool) (magnitude : Dyadic)
deriving DecidableEq, Repr

namespace Exact

/-- Whether a sign of the binary format is the minus sign. -/
private def isMinus : Float.Model.UnpackedFloat.Sign → Bool
  | .negative => true
  | .positive => false

/-- The exact value of a double. -/
def ofDouble (number : Float) : Exact :=
  match number.toModel.unpack with
  | .notANumber => .notANumber
  | .infinity sign => .infinite (isMinus sign)
  | .zero sign => .finite (isMinus sign) ⟨0, 0⟩
  | .finite sign mantissa exponent _ => .finite (isMinus sign) ⟨mantissa, exponent⟩

end Exact

/-! ## The nearest double -/

/-- The number of binary digits of a full mantissa. -/
def mantissaWidth : Nat := 53

/-- The exponent of the last place of the smallest doubles. -/
def leastExponent : Int := -1074

/-- The exponent of the last place that a double near `numerator / denominator` has: the one at
which the mantissa has its full width, but never below that of the smallest doubles. -/
def lastPlace (numerator denominator : Nat) : Int :=
  let guess : Int := numerator.log2 - denominator.log2
  let leading :=
    if denominator * Nat.pow 2 guess.toNat ≤ numerator * Nat.pow 2 (-guess).toNat then guess
    else guess - 1
  max (leading - (mantissaWidth - 1)) leastExponent

/-- The dyadic number of a double's width nearest to `numerator / denominator`; an exact tie
goes to the even mantissa.  A mantissa that rounding has made one digit too wide is a power of
two and moves one place up. -/
def nearestDyadic (numerator denominator : Nat) : Dyadic :=
  let exponent := lastPlace numerator denominator
  let mantissa :=
    roundQuotient (numerator * Nat.pow 2 (-exponent).toNat)
      (denominator * Nat.pow 2 exponent.toNat)
  if mantissa = Nat.pow 2 mantissaWidth then ⟨Nat.pow 2 (mantissaWidth - 1), exponent + 1⟩
  else ⟨mantissa, exponent⟩

/-- The non-negative double with that exact value.  A value beyond the largest finite double
becomes infinity. -/
def Dyadic.toDouble (dyadic : Dyadic) : Float :=
  .ofModel <| .pack <|
    if zero : dyadic.mantissa = 0 then .zero .positive
    else .finite .positive dyadic.mantissa dyadic.exponent (Nat.pos_of_ne_zero zero)

/-- The double nearest to a decimal number. -/
def Decimal.nearestDouble (decimal : Decimal) : Float :=
  (nearestDyadic decimal.coefficient (Nat.pow 10 decimal.places)).toDouble

end Lox.Number
