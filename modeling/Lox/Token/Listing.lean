import Lox.Number.Format
import Lox.Token.Basic

/-!
Contract: the text of a token in a listing.

Owns:
- the literal column: the content of a string, the value of a number, `null` otherwise;
- the line of a token.

Does not own: the choice of digits of a number.
-/

namespace Lox

/-- The literal column.  A whole number keeps one place after the point. -/
def TokenKind.literal : TokenKind → String
  | .string content => content
  | .number value => Number.Format.withPlace.write value
  | _ => "null"

/-- The kind, the lexeme and the literal, with a space between them. -/
def Token.listing (token : Token) : String :=
  token.kind.name ++ " " ++ token.lexeme ++ " " ++ token.kind.literal

end Lox
