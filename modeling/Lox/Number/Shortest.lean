import Lox.Number.Double

/-!
Contract: the shortest decimal number that stands for a double.

Owns:
- the interval of numbers that are read as a given double;
- the search for the coarsest decimal grid with a point in that interval.

Does not own: how the decimal number found is written.

Powers of ten are grids of decimal numbers.  Fewer digits are a coarser grid, so the search goes
from coarse to fine; of the points of the first grid that meets the interval it takes the one
nearest to the double, and of two equally near ones the greater.
-/

namespace Lox.Number

/-- The numbers that are read as one double, in quarters of its last place: from `low` to
`high`, ends included if `closed`.  The double itself is `centre`. -/
structure ReadingInterval where
  low : Nat
  centre : Nat
  high : Nat
  unit : Int
  closed : Bool
deriving DecidableEq, Repr

namespace Dyadic

/-- Half a place on each side; below the least mantissa of full width the doubles lie twice as
close, so there it is a quarter.  A tie is read as the even mantissa. -/
def readingInterval (double : Dyadic) : ReadingInterval where
  low :=
    if double.mantissa = Nat.pow 2 (mantissaWidth - 1) ∧ leastExponent < double.exponent then
      4 * double.mantissa - 1
    else 4 * double.mantissa - 2
  centre := 4 * double.mantissa
  high := 4 * double.mantissa + 2
  unit := double.exponent - 2
  closed := double.mantissa % 2 == 0

end Dyadic

namespace ReadingInterval

/-- The multiple of `10 ^ exponent` in the interval that is nearest to its centre, if there is
one: one of the two neighbours of the centre on that grid.  With `scale / step` the size of the
interval's unit on the grid, the point `k` is compared with `n` units as `k * step` with
`n * scale`. -/
def gridPoint? (interval : ReadingInterval) (exponent : Int) : Option Nat :=
  let scale := Nat.pow 2 interval.unit.toNat * Nat.pow 10 (-exponent).toNat
  let step := Nat.pow 2 (-interval.unit).toNat * Nat.pow 10 exponent.toNat
  let below := interval.centre * scale / step
  let inside := fun (smaller greater : Nat) =>
    if interval.closed then decide (smaller ≤ greater) else decide (smaller < greater)
  let belowInside := inside (interval.low * scale) (below * step)
  let aboveInside := inside ((below + 1) * step) (interval.high * scale)
  if belowInside && (!aboveInside || 2 * (interval.centre * scale) < (2 * below + 1) * step) then
    some below
  else if aboveInside then some (below + 1)
  else none

end ReadingInterval

/-- The decimal number `point * 10 ^ exponent`, with as few places as possible. -/
def Decimal.ofGrid (point : Nat) (exponent : Int) : Decimal :=
  Decimal.trimmed ⟨point * Nat.pow 10 exponent.toNat, (-exponent).toNat⟩

namespace Dyadic

/-- The exponents of the grids, from one above the size of the double down to its last binary
place, where the double itself is a point of the grid. -/
def gridExponents (double : Dyadic) : List Int :=
  let top : Int := (double.numerator / double.denominator).log2 / 3 + 1
  (List.range (top - min double.exponent 0 + 1).toNat).map fun (steps : Nat) => top - steps

/-- All digits of the number. -/
def exactDecimal (double : Dyadic) : Decimal :=
  ⟨double.numerator * Nat.pow 5 (-double.exponent).toNat, (-double.exponent).toNat⟩

/-- The decimal number with the fewest digits that is read as the given double; zero is zero. -/
def shortest (double : Dyadic) : Decimal :=
  if double.mantissa = 0 then ⟨0, 0⟩
  else
    let interval := double.readingInterval
    match double.gridExponents.findSome? fun exponent =>
      (interval.gridPoint? exponent).map fun point => (point, exponent) with
    | some (point, exponent) => Decimal.ofGrid point exponent
    | none => double.exactDecimal

end Dyadic

end Lox.Number
