import Lox.Token.Basic
import Lox.Value

/-!
Contract: the syntax trees of the language.

Owns:
- operators, their symbols and their precedence;
- names, expressions, statements and programs.

Does not own: how trees are read from tokens, shown, or evaluated.
-/

namespace Lox

/-! ## Operators -/

/-- The operators with one operand, which stands after them. -/
inductive UnaryOp where
  | not
  | negate
deriving DecidableEq, Repr

namespace UnaryOp

/-- The symbol of the operator. -/
def symbol : UnaryOp → Symbol
  | not => .bang
  | negate => .minus

/-- The operator that a token of the kind stands for before an operand. -/
def ofKind? : TokenKind → Option UnaryOp
  | .symbol .bang => some not
  | .symbol .minus => some negate
  | _ => none

/-- An operator is written with its symbol, and with nothing else. -/
theorem ofKind?_eq_some_iff {kind : TokenKind} {operator : UnaryOp} :
    ofKind? kind = some operator ↔ kind = .symbol operator.symbol := by
  constructor
  · intro found
    unfold ofKind? at found
    split at found <;> simp_all [symbol]
    all_goals subst found; rfl
  · rintro rfl
    cases operator <;> rfl

end UnaryOp

/-- The levels of operators with two operands, from the loosest to the tightest. -/
inductive Level where
  | equality
  | comparison
  | term
  | factor
deriving DecidableEq, Repr

/-- The operators with two operands. -/
inductive BinaryOp where
  | equal
  | notEqual
  | greater
  | greaterEqual
  | less
  | lessEqual
  | add
  | subtract
  | multiply
  | divide
deriving DecidableEq, Repr

namespace BinaryOp

/-- The symbol of the operator. -/
def symbol : BinaryOp → Symbol
  | equal => .equalEqual
  | notEqual => .bangEqual
  | greater => .greater
  | greaterEqual => .greaterEqual
  | less => .less
  | lessEqual => .lessEqual
  | add => .plus
  | subtract => .minus
  | multiply => .star
  | divide => .slash

/-- How tightly the operator binds. -/
def level : BinaryOp → Level
  | equal | notEqual => .equality
  | greater | greaterEqual | less | lessEqual => .comparison
  | add | subtract => .term
  | multiply | divide => .factor

/-- The operator that a token of the kind stands for between two operands. -/
def ofKind? : TokenKind → Option BinaryOp
  | .symbol .equalEqual => some equal
  | .symbol .bangEqual => some notEqual
  | .symbol .greater => some greater
  | .symbol .greaterEqual => some greaterEqual
  | .symbol .less => some less
  | .symbol .lessEqual => some lessEqual
  | .symbol .plus => some add
  | .symbol .minus => some subtract
  | .symbol .star => some multiply
  | .symbol .slash => some divide
  | _ => none

/-- An operator is written with its symbol, and with nothing else. -/
theorem ofKind?_eq_some_iff {kind : TokenKind} {operator : BinaryOp} :
    ofKind? kind = some operator ↔ kind = .symbol operator.symbol := by
  constructor
  · intro found
    unfold ofKind? at found
    split at found <;> simp_all [symbol]
    all_goals subst found; rfl
  · rintro rfl
    cases operator <;> rfl

end BinaryOp

/-! ## Trees -/

/-- A name in a program: the text of an identifier and the line it stands on. -/
structure Name where
  lexeme : String
  line : Nat
deriving DecidableEq, Repr

/-- The token that the name was. -/
def Name.token (name : Name) : Token :=
  ⟨.identifier, name.lexeme, name.line⟩

/-- An expression.  Parentheses stay in the tree, as groupings. -/
inductive Expr where
  | literal (value : Value)
  | reference (name : Name)
  | grouping (inner : Expr)
  | unary (operator : UnaryOp) (operand : Expr)
  | binary (left : Expr) (operator : BinaryOp) (right : Expr)
  | assign (name : Name) (value : Expr)
deriving DecidableEq

/-- A statement over the trees of expressions. -/
inductive Statement (Tree : Type) where
  | expression (tree : Tree)
  | print (tree : Tree)
  | var (name : Name) (initializer : Option Tree)
  | block (body : List (Statement Tree))

/-- A program: statements in order. -/
abbrev Program := List (Statement Expr)

end Lox
