import Lox.Number.Format

/-!
Contract: the values of the language.

Owns:
- values, their truth and their equality;
- the text that shows a value, and the text of a value in a rendered expression.

Does not own: where values come from.
-/

namespace Lox

/-- A value. -/
inductive Value where
  | nil
  | boolean (truth : Bool)
  | number (number : Float)
  | string (content : String)
deriving DecidableEq

namespace Value

/-- Only `nil` and `false` do not hold. -/
def isTruthy : Value → Bool
  | nil => false
  | boolean truth => truth
  | number _ | string _ => true

/-- Equality in the language: values of different types differ; numbers are compared as numbers,
so a number that is none differs from itself and the two zeros are equal. -/
def equals : Value → Value → Bool
  | nil, nil => true
  | boolean left, boolean right => left == right
  | number left, number right => left == right
  | string left, string right => left == right
  | _, _ => false

/-- The text of a value, with numbers in the given format. -/
def textIn (format : Number.Format) : Value → String
  | nil => "nil"
  | boolean truth => if truth then "true" else "false"
  | number value => format.write value
  | string content => content

/-- The text that shows a value: numbers have at most two places. -/
def text : Value → String :=
  textIn .hundredths

theorem text_number_of_ofDouble
    {number : Float}
    {negative : Bool}
    {magnitude : Number.Dyadic}
    (exact : Number.Exact.ofDouble number = .finite negative magnitude) :
    (Value.number number).text =
      Number.Format.sign negative ++ (magnitude.rounded 2).trimmed.text :=
  Number.Format.hundredths.write_of_ofDouble exact

/-- The text of a literal in a rendered expression: numbers have all their digits. -/
def rendering : Value → String :=
  textIn .shortest

end Value

end Lox
