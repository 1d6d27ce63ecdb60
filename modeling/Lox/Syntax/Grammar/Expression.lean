import Lox.Syntax.Grammar.Reader
import Lox.Syntax.Tree

/-!
Contract: the grammar of expressions.

Owns:
- the readers of all levels of expressions;
- the limit on nesting, as the room that is left at each depth;
- that every one of these readers takes at least one token.

Does not own: what trees are built, which is up to a `Builder`.

Nesting is what the recursion is on.  At each depth there are a reader of operands and a reader
of whole expressions; they are made from the same two readers one level deeper.  A unary
operator, a parenthesis and the value of an assignment go one level deeper.  So does, within its
own chain, each further operator of a chain of operators of one level.  Where there is no room
left, going deeper is refused at the token that would be inside.
-/

namespace Lox.Grammar

/-- How trees are put together from what the grammar reads. -/
structure Builder (Tree : Type) where
  literal : Value → Tree
  reference : Name → Tree
  grouping : Tree → Tree
  unary : UnaryOp → Tree → Tree
  binary : Tree → BinaryOp → Tree → Tree
  /-- From the target, the tokens from the equals sign on, and the value.  There is no tree if
  nothing can be assigned to the target. -/
  assign : Tree → List Token → Tree → Option Tree

/-- The readers at one depth of nesting. -/
structure Readers (Tree : Type) where
  operand : Reader Tree
  expression : Reader Tree

section

variable {Tree : Type} (builder : Builder Tree)

/-! ## Operands -/

/-- A literal, a name, or an expression in parentheses. -/
def primary (deeper : Readers Tree) : Reader Tree
  | [] => refuse .expectedExpression []
  | token :: rest =>
    match token.kind with
    | .keyword .nilWord => .ok (builder.literal .nil, rest)
    | .keyword .trueWord => .ok (builder.literal (.boolean true), rest)
    | .keyword .falseWord => .ok (builder.literal (.boolean false), rest)
    | .number value => .ok (builder.literal (.number value), rest)
    | .string content => .ok (builder.literal (.string content), rest)
    | .identifier => .ok (builder.reference ⟨token.lexeme, token.line⟩, rest)
    | .symbol .leftParen => do
      let (inner, rest) ← deeper.expression rest
      let rest ← expect (.symbol .rightParen) .missingRightParen rest
      return (builder.grouping inner, rest)
    | _ => refuse .expectedExpression (token :: rest)

/-- A unary operator and its operand, or a primary expression. -/
def operand (deeper : Readers Tree) : Reader Tree
  | [] => primary builder deeper []
  | token :: rest =>
    match UnaryOp.ofKind? token.kind with
    | some operator => do
      let (inner, rest) ← deeper.operand rest
      return (builder.unary operator inner, rest)
    | none => primary builder deeper (token :: rest)

/-! ## Chains of operators -/

/-- The operator of the level that a token of the kind stands for. -/
def operatorAt? (level : Level) (kind : TokenKind) : Option BinaryOp :=
  (BinaryOp.ofKind? kind).filter (·.level = level)

/-- Goes on with a chain of operators of the level: each takes all before it as its left
operand.  With no room left, the operator is refused at the token after it. -/
def chainFrom (level : Level) (next : Reader Tree) : (room : Nat) → Tree → Reader Tree
  | _, left, [] => .ok (left, [])
  | room, left, token :: rest =>
    match operatorAt? level token.kind with
    | none => .ok (left, token :: rest)
    | some operator =>
      match room with
      | 0 => refuse .tooMuchNesting rest
      | room + 1 => do
        let (right, rest) ← next rest
        chainFrom level next room (builder.binary left operator right) rest

/-- Operands of the next tighter level with operators of the level between them. -/
def chain (level : Level) (room : Nat) (next : Reader Tree) : Reader Tree :=
  fun unread => do
    let (left, rest) ← next unread
    chainFrom builder level next room left rest

/-- An expression without assignment: a chain of comparisons for equality, whose operands are
chains of comparisons, of sums, and of products. -/
def equality (room : Nat) (deeper : Readers Tree) : Reader Tree :=
  chain builder .equality room <|
  chain builder .comparison room <|
  chain builder .term room <|
  chain builder .factor room <|
  operand builder deeper

/-! ## Assignments -/

/-- An expression without assignment; if an equals sign follows it is the target, and the value
comes after.  The value is read before the target is refused. -/
def assignment (room : Nat) (deeper : Readers Tree) : Reader Tree :=
  fun unread => do
    let (target, rest) ← equality builder room deeper unread
    match rest with
    | [] => return (target, [])
    | token :: inside =>
      if token.kind = .symbol .equal then
        let (value, after) ← deeper.expression inside
        match builder.assign target rest value with
        | some tree => return (tree, after)
        | none => refuse .invalidAssignmentTarget rest
      else return (target, rest)

/-! ## Nesting -/

/-- How many levels expressions and blocks may go down together. -/
def maxNesting : Nat := 128

/-- The readers of one depth, from those one level deeper. -/
def readersWithin (room : Nat) (deeper : Readers Tree) : Readers Tree where
  operand := operand builder deeper
  expression := assignment builder room deeper

/-- The readers at the depth that leaves the room. -/
def readers : (room : Nat) → Readers Tree
  | 0 => readersWithin builder 0 ⟨refuse .tooMuchNesting, refuse .tooMuchNesting⟩
  | room + 1 => readersWithin builder (room + 1) (readers room)

/-- The reader of expressions at the depth that leaves the room. -/
def expression (room : Nat) : Reader Tree :=
  (readers builder room).expression

/-! ## Progress -/

variable {builder}

private theorem length_lt_of_single
    {token : Token}
    {unread rest : List Token}
    {tree result : Tree}
    (read : (.ok (tree, unread) : Except Refusal (Tree × List Token)) = .ok (result, rest)) :
    rest.length < (token :: unread).length := by
  cases read
  simp

private theorem advances_primary
    {deeper : Readers Tree}
    (expressionAdvances : Advances deeper.expression) :
    Advances (primary builder deeper) := by
  intro unread result rest read
  unfold primary at read
  split at read
  · cases read
  · rename_i token after
    split at read
    · exact length_lt_of_single read
    · exact length_lt_of_single read
    · exact length_lt_of_single read
    · exact length_lt_of_single read
    · exact length_lt_of_single read
    · exact length_lt_of_single read
    · obtain ⟨⟨inner, unclosed⟩, inside, read⟩ := exists_of_bind_eq_ok read
      obtain ⟨last, closed, read⟩ := exists_of_bind_eq_ok read
      cases read
      exact Nat.lt_succ_of_lt (Nat.lt_trans (expect_length closed) (expressionAdvances inside))
    · cases read

private theorem advances_operand
    {deeper : Readers Tree}
    (operandAdvances : Advances deeper.operand)
    (expressionAdvances : Advances deeper.expression) :
    Advances (operand builder deeper) := by
  intro unread result rest read
  unfold operand at read
  split at read
  · exact advances_primary expressionAdvances read
  · rename_i token after
    split at read
    · obtain ⟨⟨inner, remaining⟩, inside, read⟩ := exists_of_bind_eq_ok read
      cases read
      exact Nat.lt_succ_of_lt (operandAdvances inside)
    · exact advances_primary expressionAdvances read

private theorem length_chainFrom
    {level : Level}
    {next : Reader Tree}
    (nextAdvances : Advances next)
    (room : Nat)
    (left : Tree)
    {unread rest : List Token}
    {result : Tree}
    (read : chainFrom builder level next room left unread = .ok (result, rest)) :
    rest.length ≤ unread.length := by
  fun_induction chainFrom builder level next room left unread with
  | case1 =>
    cases read
    exact Nat.le_refl _
  | case2 =>
    cases read
    exact Nat.le_refl _
  | case3 => cases read
  | case4 left token after operator _ room inductionHypothesis =>
    obtain ⟨⟨right, remaining⟩, inside, read⟩ := exists_of_bind_eq_ok read
    have first := nextAdvances inside
    have others := inductionHypothesis right remaining read
    exact Nat.le_succ_of_le (Nat.le_trans others (Nat.le_of_lt first))

private theorem advances_chain
    {level : Level}
    {room : Nat}
    {next : Reader Tree}
    (nextAdvances : Advances next) :
    Advances (chain builder level room next) := by
  intro unread result rest read
  obtain ⟨⟨left, remaining⟩, inside, read⟩ := exists_of_bind_eq_ok read
  exact Nat.lt_of_le_of_lt (length_chainFrom nextAdvances _ _ read) (nextAdvances inside)

private theorem advances_assignment
    {room : Nat}
    {deeper : Readers Tree}
    (operandAdvances : Advances deeper.operand)
    (expressionAdvances : Advances deeper.expression) :
    Advances (assignment builder room deeper) := by
  intro unread result rest read
  have equalityAdvances : Advances (equality builder room deeper) :=
    advances_chain <| advances_chain <| advances_chain <| advances_chain <|
      advances_operand operandAdvances expressionAdvances
  obtain ⟨⟨target, after⟩, left, read⟩ := exists_of_bind_eq_ok read
  have first := equalityAdvances left
  dsimp only at read
  split at read
  · cases read
    exact first
  · rename_i token inside
    split at read
    · obtain ⟨⟨value, remaining⟩, right, read⟩ := exists_of_bind_eq_ok read
      dsimp only at read
      split at read
      · cases read
        have second := expressionAdvances right
        simp only [List.length_cons] at first
        omega
      · cases read
    · cases read
      exact first

private theorem advances_readers (room : Nat) :
    Advances (readers builder room).operand ∧ Advances (readers builder room).expression := by
  induction room with
  | zero =>
    exact ⟨advances_operand (advances_refuse _) (advances_refuse _),
      advances_assignment (advances_refuse _) (advances_refuse _)⟩
  | succ room inductionHypothesis =>
    exact ⟨advances_operand inductionHypothesis.1 inductionHypothesis.2,
      advances_assignment inductionHypothesis.1 inductionHypothesis.2⟩

/-- An expression has at least one token. -/
theorem advances_expression (room : Nat) : Advances (expression builder room) :=
  (advances_readers room).2

end

end Lox.Grammar
