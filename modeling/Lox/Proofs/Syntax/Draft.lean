import Lox.Proofs.Syntax.Parallel

/-!
Contract: programs whose assignments have any target.

Owns:
- drafts, which are trees with any expression as the target of an assignment;
- reading drafts, with the grammar of the language;
- that accepted programs are accepted as drafts, and that other faults than a target of an
  assignment are found at the same place.

Does not own: which drafts are programs.
-/

namespace Lox

/-- An expression in which anything may be assigned to. -/
inductive Draft where
  | literal (value : Value)
  | reference (name : Name)
  | grouping (inner : Draft)
  | unary (operator : UnaryOp) (operand : Draft)
  | binary (left : Draft) (operator : BinaryOp) (right : Draft)
  | assign (target value : Draft)

namespace Draft

/-- The trees of drafts: whatever stands before an equals sign is assigned to. -/
def builder : Grammar.Builder Draft where
  literal := .literal
  reference := .reference
  grouping := .grouping
  unary := .unary
  binary := .binary
  assign target _ value := some (.assign target value)

/-- The program of drafts that the tokens are. -/
def programOfTokens (tokens : List Token) : Except SyntaxError (List (Statement Draft)) :=
  Grammar.readProgram builder tokens

/-- Drafts are read as trees are, except where the target of an assignment is refused. -/
def asRead : Grammar.Parallel Expr.builder builder where
  tokens := Eq
  trees _ _ := True
  statements _ _ := True
  excused fault := fault = .invalidAssignmentTarget
  kind_eq same := congrArg Token.kind same
  literal _ := trivial
  reference _ := trivial
  grouping _ := trivial
  unary _ _ _ _ := trivial
  binary _ _ _ _ _ _ _ := trivial
  assign := by
    intro target value otherTarget otherValue unread others _ _ _
    cases target with
    | reference name => exact .inl ⟨_, _, rfl, rfl, trivial⟩
    | _ => exact .inr ⟨rfl, .inl rfl⟩
  expression _ := trivial
  print _ := trivial
  declared _ := trivial
  initialized _ _ := trivial
  block _ := trivial

theorem reading_programOfTokens (tokens : List Token) :
    asRead.Reading (List.Forall₂ asRead.statements) (Program.ofTokens tokens)
      (programOfTokens tokens) :=
  (Grammar.Parallel.keeps_program asRead).reading (List.forall₂_same.2 fun _ _ => rfl) rfl

/-- Faults that are not about the target of an assignment are the same for drafts. -/
theorem programOfTokens_eq_error
    {tokens : List Token}
    {error : SyntaxError}
    (failed : Program.ofTokens tokens = .error error)
    (noTarget : error.fault ≠ .invalidAssignmentTarget) :
    programOfTokens tokens = .error error := by
  have reading := reading_programOfTokens tokens
  rw [failed] at reading
  generalize programOfTokens tokens = read at reading ⊢
  cases reading with
  | refused fault index same => rw [show _ = _ from same]
  | excused isExcused _ => exact absurd isExcused noTarget

end Draft

end Lox
