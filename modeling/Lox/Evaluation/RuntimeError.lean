/-!
Contract: why the evaluation of a program stops.

Owns:
- the reasons why output is not taken;
- runtime errors and their messages.

Does not own: when they arise.
-/

namespace Lox

/-- Why an output takes no more bytes: it says that it is full, or it accepts none of them. -/
inductive WriteFault where
  | full
  | acceptsNothing
deriving DecidableEq, Repr

/-- The words for the reason. -/
def WriteFault.message : WriteFault → String
  | full => "output full"
  | acceptsNothing => "failed to write whole buffer"

/-- What stops an evaluation. -/
inductive RuntimeError where
  | operandMustBeNumber
  | operandsMustBeNumbers
  | operandsMustBeNumbersOrStrings
  | undefinedVariable (name : String)
  | output (fault : WriteFault)
deriving DecidableEq, Repr

/-- The message of the error. -/
def RuntimeError.message : RuntimeError → String
  | operandMustBeNumber => "Operand must be a number."
  | operandsMustBeNumbers => "Operands must be numbers."
  | operandsMustBeNumbersOrStrings => "Operands must be two numbers or two strings."
  | undefinedVariable name => "Undefined variable \"" ++ name ++ "\"."
  | output fault => "Failed to write output: " ++ fault.message

end Lox
