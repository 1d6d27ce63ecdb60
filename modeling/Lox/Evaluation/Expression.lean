import Lox.Evaluation.Environment
import Lox.Syntax.Tree

/-!
Contract: the evaluation of expressions.

Owns:
- what the operators do;
- the value of an expression, and the environment after it, also where an error stops it.

Does not own: statements.
-/

namespace Lox

/-! ## Operators -/

/-- The value of a unary operator. -/
def UnaryOp.apply : UnaryOp → Value → Except RuntimeError Value
  | negate, .number number => .ok (.number (-number))
  | negate, _ => .error .operandMustBeNumber
  | not, value => .ok (.boolean (!value.isTruthy))

/-- An operator on numbers alone. -/
private def onNumbers (compute : Float → Float → Value) :
    Value → Value → Except RuntimeError Value
  | .number left, .number right => .ok (compute left right)
  | _, _ => .error .operandsMustBeNumbers

private theorem onNumbers_error
    {compute : Float → Float → Value}
    {left right : Value}
    {error : RuntimeError}
    (failed : onNumbers compute left right = .error error) :
    error = .operandsMustBeNumbers := by
  unfold onNumbers at failed
  split at failed
  · cases failed
  · cases failed
    rfl

/-- The value of an operator with two operands.  Any values can be compared for equality; texts
can be joined; all else is for numbers. -/
def BinaryOp.apply : BinaryOp → Value → Value → Except RuntimeError Value
  | equal, left, right => .ok (.boolean (left.equals right))
  | notEqual, left, right => .ok (.boolean (!left.equals right))
  | greater, left, right => onNumbers (fun l r => .boolean (r < l)) left right
  | greaterEqual, left, right => onNumbers (fun l r => .boolean (r ≤ l)) left right
  | less, left, right => onNumbers (fun l r => .boolean (l < r)) left right
  | lessEqual, left, right => onNumbers (fun l r => .boolean (l ≤ r)) left right
  | subtract, left, right => onNumbers (fun l r => .number (l - r)) left right
  | multiply, left, right => onNumbers (fun l r => .number (l * r)) left right
  | divide, left, right => onNumbers (fun l r => .number (l / r)) left right
  | add, .number left, .number right => .ok (.number (left + right))
  | add, .string left, .string right => .ok (.string (left ++ right))
  | add, _, _ => .error .operandsMustBeNumbersOrStrings

/-- A unary operator only fails because of its operand. -/
theorem UnaryOp.apply_error
    {operator : UnaryOp}
    {value : Value}
    {error : RuntimeError}
    (failed : operator.apply value = .error error) :
    error = .operandMustBeNumber := by
  cases operator with
  | negate =>
    cases value with
    | number number => cases failed
    | _ =>
      cases failed
      rfl
  | not => cases failed

/-- An operator with two operands only fails because of its operands. -/
theorem BinaryOp.apply_error
    {operator : BinaryOp}
    {left right : Value}
    {error : RuntimeError}
    (failed : operator.apply left right = .error error) :
    error = .operandsMustBeNumbers ∨ error = .operandsMustBeNumbersOrStrings := by
  cases operator with
  | equal | notEqual => cases failed
  | add =>
    cases left <;> cases right <;> cases failed <;> exact .inr rfl
  | _ => exact .inl (onNumbers_error failed)

/-! ## Expressions -/

/-- The value of an expression and the environment after its assignments.  Operands are
evaluated from left to right, and the value of an assignment before its name is looked up.  An
error leaves the environment as it was when the error arose. -/
def Expr.evaluate : Expr → Environment → Except RuntimeError Value × Environment
  | .literal value, environment => (.ok value, environment)
  | .reference name, environment => (environment.get name.lexeme, environment)
  | .grouping inner, environment => inner.evaluate environment
  | .unary operator operand, environment =>
    match operand.evaluate environment with
    | (.error error, environment) => (.error error, environment)
    | (.ok value, environment) => (operator.apply value, environment)
  | .binary left operator right, environment =>
    match left.evaluate environment with
    | (.error error, environment) => (.error error, environment)
    | (.ok leftValue, environment) =>
      match right.evaluate environment with
      | (.error error, environment) => (.error error, environment)
      | (.ok rightValue, environment) => (operator.apply leftValue rightValue, environment)
  | .assign name value, environment =>
    match value.evaluate environment with
    | (.error error, environment) => (.error error, environment)
    | (.ok value, environment) =>
      match environment.assign name.lexeme value with
      | .error error => (.error error, environment)
      | .ok environment => (.ok value, environment)

end Lox
