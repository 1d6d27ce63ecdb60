/-!
Contract: sets of characters written as ranges of code points.

Owns:
- the form of a range table and the membership test on it.

Does not own: the tables of particular character properties.
-/

namespace Lox.Text

/-- A set of code points as closed ranges, first and last code point of each. -/
abbrev CodePointRanges := Array (Nat × Nat)

namespace CodePointRanges

/-- Whether the code point of the character lies in one of the ranges. -/
def contains (ranges : CodePointRanges) (character : Char) : Bool :=
  ranges.any fun (first, last) => first ≤ character.toNat && character.toNat ≤ last

/-- A character is in the set exactly if one of the ranges reaches around its code point. -/
theorem contains_iff {ranges : CodePointRanges} {character : Char} :
    ranges.contains character = true ↔
      ∃ range ∈ ranges.toList, range.1 ≤ character.toNat ∧ character.toNat ≤ range.2 := by
  simp [contains, ← Array.any_toList]

end CodePointRanges

end Lox.Text
