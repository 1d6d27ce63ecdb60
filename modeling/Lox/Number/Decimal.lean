/-!
Contract: non-negative decimal numbers with a fixed number of places.

Owns:
- the type `Decimal`, its text and the removal of trailing zeros;
- reading the digits of a numeral.

Does not own: signs, infinities, or the conversion to and from binary.
-/

namespace Lox.Number

/-- The number `coefficient / 10 ^ places`, written with exactly `places` digits after the
point. -/
structure Decimal where
  coefficient : Nat
  places : Nat
deriving DecidableEq, Repr

namespace Decimal

/-! ## Text -/

/-- The decimal digits of a number, with zeros put in front up to the given width. -/
def paddedDigits (width number : Nat) : List Char :=
  let digits := Nat.toDigits 10 number
  List.replicate (width - digits.length) '0' ++ digits

/-- At least one digit for the whole part; then, if there are places, a point and as many
digits. -/
def chars (decimal : Decimal) : List Char :=
  match decimal.places with
  | 0 => Nat.toDigits 10 decimal.coefficient
  | places + 1 =>
    let unit := Nat.pow 10 (places + 1)
    Nat.toDigits 10 (decimal.coefficient / unit) ++
      '.' :: paddedDigits (places + 1) (decimal.coefficient % unit)

/-- The written form of the number. -/
def text (decimal : Decimal) : String :=
  String.ofList decimal.chars

/-! ## Trailing zeros -/

/-- Drops zeros from the end of the places. -/
private def trim : (coefficient places : Nat) → Decimal
  | coefficient, 0 => ⟨coefficient, 0⟩
  | coefficient, places + 1 =>
    if coefficient % 10 = 0 then trim (coefficient / 10) places
    else ⟨coefficient, places + 1⟩

/-- The same number with as few places as it can be written with. -/
def trimmed (decimal : Decimal) : Decimal :=
  trim decimal.coefficient decimal.places

/-- The last place is dropped if it is a zero, and then the ones before it. -/
theorem trimmed_succ (coefficient places : Nat) :
    trimmed ⟨coefficient, places + 1⟩ =
      if coefficient % 10 = 0 then trimmed ⟨coefficient / 10, places⟩
      else ⟨coefficient, places + 1⟩ := rfl

/-! ## Reading -/

/-- The value of a run of digits, continuing from the value of the digits before it. -/
def valueFrom (before : Nat) (digits : List Char) : Nat :=
  digits.foldl (fun value digit => 10 * value + (digit.toNat - '0'.toNat)) before

/-- Reads a numeral: digits, or digits, a point and digits.  Anything else is no numeral. -/
def read? (numeral : List Char) : Option Decimal :=
  let whole := numeral.takeWhile Char.isDigit
  if whole.isEmpty then none
  else
    match numeral.dropWhile Char.isDigit with
    | [] => some ⟨valueFrom 0 whole, 0⟩
    | '.' :: fraction =>
      if !fraction.isEmpty && fraction.all Char.isDigit then
        some ⟨valueFrom (valueFrom 0 whole) fraction, fraction.length⟩
      else none
    | _ => none

end Decimal

end Lox.Number
