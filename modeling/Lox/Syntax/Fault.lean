import Lox.Token.Basic

/-!
Contract: what can be wrong with a sequence of tokens.

Owns:
- syntax faults and their messages;
- syntax errors, which point at a token by its place in the input.

Does not own: when a fault arises.
-/

namespace Lox

/-- What can be wrong with a sequence of tokens. -/
inductive SyntaxFault where
  | missingRightParen
  | expectedExpression
  | expectedSemicolonAfterValue
  | expectedSemicolonAfterExpression
  | expectedSemicolonAfterVarDeclaration
  | expectedVariableName
  | expectedRightBrace
  | invalidAssignmentTarget
  | tooMuchNesting
deriving DecidableEq, Repr

/-- The message of the fault. -/
def SyntaxFault.message : SyntaxFault → String
  | missingRightParen => "Expect ')' after expression."
  | expectedExpression => "Expect expression."
  | expectedSemicolonAfterValue => "Expect ';' after value."
  | expectedSemicolonAfterExpression => "Expect ';' after expression."
  | expectedSemicolonAfterVarDeclaration => "Expect ';' after variable declaration."
  | expectedVariableName => "Expect variable name."
  | expectedRightBrace => "Expect '\x7d' after block."
  | invalidAssignmentTarget => "Invalid assignment target."
  | tooMuchNesting => "Too much nesting."

/-- A fault, the number of tokens before the one it is found at, and that token. -/
structure SyntaxError where
  fault : SyntaxFault
  index : Nat
  token : Token
deriving DecidableEq

/-- The report that points at the offending token. -/
def SyntaxError.diagnostic (error : SyntaxError) : Diagnostic :=
  error.token.diagnostic error.fault.message

end Lox
