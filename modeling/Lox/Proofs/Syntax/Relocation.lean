import Lox.Evaluation.Statement
import Lox.Proofs.Syntax.RoundTrip
import Lox.Proofs.Token.Cutting

/-!
Contract: programs on other lines.

Owns:
- moving tokens, pieces and trees to other lines;
- that writing follows the move, and that precedence and nesting are not changed by it;
- that neither evaluation nor execution depends on lines.

Does not own: why tokens stand on other lines.
-/

namespace Lox

variable (place : Nat → Nat)

/-! ## Moving -/

/-- The name with its line changed. -/
def Name.relocate (name : Name) : Name :=
  { name with line := place name.line }

/-- The piece with the line of its name changed. -/
def Piece.relocate : Piece → Piece
  | .name called => .name (called.relocate place)
  | .mark kind => .mark kind

/-- The expression with the lines of its names changed. -/
def Expr.relocate : Expr → Expr
  | .literal value => .literal value
  | .reference name => .reference (name.relocate place)
  | .grouping inner => .grouping inner.relocate
  | .unary operator operand => .unary operator operand.relocate
  | .binary left operator right => .binary left.relocate operator right.relocate
  | .assign name value => .assign (name.relocate place) value.relocate

mutual

/-- The statement with the lines of its names changed. -/
def Statement.relocate : Statement Expr → Statement Expr
  | .expression tree => .expression (tree.relocate place)
  | .print tree => .print (tree.relocate place)
  | .var name none => .var (name.relocate place) none
  | .var name (some initializer) => .var (name.relocate place) (some (initializer.relocate place))
  | .block body => .block (Program.relocate body)

/-- The program with the lines of its names changed. -/
def Program.relocate : List (Statement Expr) → List (Statement Expr)
  | [] => []
  | statement :: rest => statement.relocate :: Program.relocate rest

end

/-! ## Writing -/

theorem Token.piece_relocate (token : Token) :
    (token.relocate place).piece = token.piece.relocate place := by
  obtain ⟨kind, lexeme, line⟩ := token
  by_cases identifier : kind = .identifier
  · simp [piece, relocate, Piece.relocate, Name.relocate, identifier]
  · simp [piece, relocate, Piece.relocate, identifier]

theorem Expr.pieces_relocate (tree : Expr) :
    (tree.relocate place).pieces = tree.pieces.map (Piece.relocate place) := by
  induction tree with
  | literal value => rfl
  | reference name => rfl
  | grouping inner inductionHypothesis =>
    simp [relocate, pieces, Piece.relocate, inductionHypothesis]
  | unary operator operand inductionHypothesis =>
    simp [relocate, pieces, Piece.relocate, inductionHypothesis]
  | binary left operator right leftHypothesis rightHypothesis =>
    simp [relocate, pieces, Piece.relocate, leftHypothesis, rightHypothesis]
  | assign name value inductionHypothesis =>
    simp [relocate, pieces, Piece.relocate, inductionHypothesis]

mutual

theorem Statement.pieces_relocate :
    (statement : Statement Expr) →
      (statement.relocate place).pieces = statement.pieces.map (Piece.relocate place)
  | .expression tree => by
    simp [Statement.relocate, Statement.pieces, Piece.relocate, tree.pieces_relocate]
  | .print tree => by
    simp [Statement.relocate, Statement.pieces, Piece.relocate, tree.pieces_relocate]
  | .var name none => rfl
  | .var name (some initializer) => by
    simp [Statement.relocate, Statement.pieces, Piece.relocate, initializer.pieces_relocate]
  | .block body => by
    simp [Statement.relocate, Statement.pieces, Piece.relocate, Program.pieces_relocate body]

theorem Program.pieces_relocate :
    (program : List (Statement Expr)) →
      Program.pieces (Program.relocate place program) =
        (Program.pieces program).map (Piece.relocate place)
  | [] => rfl
  | statement :: rest => by
    rw [Program.relocate, Program.pieces, statement.pieces_relocate, Program.pieces_relocate rest,
      Program.pieces, List.map_append]

end

/-! ## Precedence and nesting -/

@[simp] theorem Expr.rank_relocate (tree : Expr) : (tree.relocate place).rank = tree.rank := by
  cases tree <;> rfl

@[simp] theorem Expr.respectsPrecedence_relocate (tree : Expr) :
    (tree.relocate place).RespectsPrecedence ↔ tree.RespectsPrecedence := by
  induction tree with
  | literal value => rfl
  | reference name => rfl
  | grouping inner inductionHypothesis => exact inductionHypothesis
  | unary operator operand inductionHypothesis =>
    simp only [relocate, RespectsPrecedence, rank_relocate, inductionHypothesis]
  | binary left operator right leftHypothesis rightHypothesis =>
    simp only [relocate, RespectsPrecedence, rank_relocate, leftHypothesis, rightHypothesis]
  | assign name value inductionHypothesis => exact inductionHypothesis

@[simp] theorem Expr.chainLength_relocate (level : Level) (tree : Expr) :
    (tree.relocate place).chainLength level = tree.chainLength level := by
  induction tree with
  | binary left operator right leftHypothesis _ =>
    rw [relocate, chainLength, chainLength, leftHypothesis]
  | _ => rfl

@[simp] theorem Expr.nesting_relocate (tree : Expr) :
    (tree.relocate place).nesting = tree.nesting := by
  induction tree with
  | literal value => rfl
  | reference name => rfl
  | grouping inner inductionHypothesis => rw [relocate, nesting, inductionHypothesis, nesting]
  | unary operator operand inductionHypothesis =>
    rw [relocate, nesting, inductionHypothesis, nesting]
  | binary left operator right leftHypothesis rightHypothesis =>
    rw [relocate, nesting, chainLength_relocate, leftHypothesis, rightHypothesis, nesting]
  | assign name value inductionHypothesis => rw [relocate, nesting, inductionHypothesis, nesting]

mutual

theorem Statement.trees_relocate :
    (statement : Statement Expr) →
      (statement.relocate place).trees = statement.trees.map (Expr.relocate place)
  | .expression _ | .print _ | .var _ none | .var _ (some _) => rfl
  | .block body => Program.trees_relocate body

theorem Program.trees_relocate :
    (program : List (Statement Expr)) →
      Program.trees (Program.relocate place program) =
        (Program.trees program).map (Expr.relocate place)
  | [] => rfl
  | statement :: rest => by
    rw [Program.relocate, Program.trees, statement.trees_relocate, Program.trees_relocate rest,
      Program.trees, List.map_append]

end

mutual

theorem Statement.nesting_relocate :
    (statement : Statement Expr) → (statement.relocate place).nesting = statement.nesting
  | .expression tree => tree.nesting_relocate place
  | .print tree => tree.nesting_relocate place
  | .var _ none => rfl
  | .var _ (some initializer) => initializer.nesting_relocate place
  | .block body => congrArg (· + 1) (Program.nesting_relocate body)

theorem Program.nesting_relocate :
    (program : List (Statement Expr)) →
      Program.nesting (Program.relocate place program) = Program.nesting program
  | [] => rfl
  | statement :: rest => by
    rw [Program.relocate, Program.nesting, statement.nesting_relocate,
      Program.nesting_relocate rest, Program.nesting]

end

theorem Program.WrittenBy.relocate
    {program : Program}
    {tokens : List Token}
    (writes : program.WrittenBy tokens) :
    Program.WrittenBy (Program.relocate place program) (tokens.map (Token.relocate place)) := by
  obtain ⟨respects, written⟩ := writes
  constructor
  · intro tree member
    rw [Program.trees_relocate] at member
    obtain ⟨original, originalMember, rfl⟩ := List.mem_map.1 member
    exact (original.respectsPrecedence_relocate place).2 (respects original originalMember)
  · have moved : Token.piece ∘ Token.relocate place = Piece.relocate place ∘ Token.piece :=
      funext (Token.piece_relocate place)
    have before : (tokens.map (Token.relocate place)).takeWhile (!·.isEnd) =
        (tokens.takeWhile (!·.isEnd)).map (Token.relocate place) :=
      List.takeWhile_map
    rw [before, List.map_map, moved, ← List.map_map, written, Program.pieces_relocate]

/-! ## Execution -/

/-- The value of an expression does not depend on where its names stand. -/
theorem Expr.evaluate_relocate (tree : Expr) (environment : Environment) :
    (tree.relocate place).evaluate environment = tree.evaluate environment := by
  induction tree generalizing environment with
  | literal value => rfl
  | reference name => rfl
  | grouping inner inductionHypothesis => exact inductionHypothesis environment
  | unary operator operand inductionHypothesis =>
    rw [relocate, evaluate, inductionHypothesis, evaluate]
  | binary left operator right leftHypothesis rightHypothesis =>
    simp only [relocate, evaluate, leftHypothesis, rightHypothesis]
  | assign name value inductionHypothesis =>
    simp only [relocate, evaluate, inductionHypothesis]
    rfl

theorem World.evaluate_relocate (tree : Expr) (world : World) :
    world.evaluate (tree.relocate place) = world.evaluate tree := by
  rw [evaluate, tree.evaluate_relocate, evaluate]

mutual

theorem Statement.execute_relocate :
    (statement : Statement Expr) → (world : World) →
      (statement.relocate place).execute world = statement.execute world
  | .expression tree, world => by
    rw [Statement.relocate, Statement.execute, world.evaluate_relocate, Statement.execute]
  | .print tree, world => by
    rw [Statement.relocate, Statement.execute, world.evaluate_relocate, Statement.execute]
  | .var name none, world => rfl
  | .var name (some initializer), world => by
    rw [Statement.relocate, Statement.execute, world.evaluate_relocate, Statement.execute]
    rfl
  | .block body, world => by
    rw [Statement.relocate, Statement.execute, executeAll_relocate body, Statement.execute]

/-- What a program does does not depend on where its names stand. -/
theorem executeAll_relocate :
    (program : List (Statement Expr)) → (world : World) →
      executeAll (Program.relocate place program) world = executeAll program world
  | [], world => rfl
  | statement :: rest, world => by
    simp only [Program.relocate, executeAll, statement.execute_relocate,
      executeAll_relocate rest]

end

end Lox
