import Lox.Syntax.Tree

/-!
Contract: the canonical text of an expression.

Owns:
- the fully parenthesised form, operator before operands.

Does not own: the text of literals.
-/

namespace Lox

namespace Expr

/-- The characters of the expression's text in front of `tail`.  An operator, a grouping and an
assignment stand in parentheses before their parts, with a space before each part. -/
def renderBefore (tail : List Char) : Expr → List Char
  | .literal value => value.rendering.toList ++ tail
  | .reference name => name.lexeme.toList ++ tail
  | .grouping inner => "(group ".toList ++ renderBefore (')' :: tail) inner
  | .unary operator operand =>
    '(' :: operator.symbol.spelling.toList ++ ' ' :: renderBefore (')' :: tail) operand
  | .binary left operator right =>
    '(' :: operator.symbol.spelling.toList ++
      ' ' :: renderBefore (' ' :: renderBefore (')' :: tail) right) left
  | .assign name value =>
    "(assign ".toList ++ name.lexeme.toList ++ ' ' :: renderBefore (')' :: tail) value

/-- The canonical text of the expression. -/
def text (expression : Expr) : String :=
  String.ofList (renderBefore [] expression)

end Expr

end Lox
