import Lox.Syntax.Parsed

/-!
Contract: how trees are written as tokens.

Owns:
- pieces, which are what the grammar sees of a token;
- the pieces that an expression, a statement and a program are written with;
- precedence as an order of ranks, and the trees that respect it;
- the tokens that an expression of a rank goes on with;
- nesting, as the grammar counts it.

Does not own: reading.

Nothing here mentions a reader.  `Grammar.Sound` and `Grammar.Complete` compare the readers with
these definitions, and the two together say that reading is the inverse of writing.
-/

namespace Lox

/-! ## Pieces -/

/-- What the grammar sees of a token: an identifier as the name that it is, and any other token
as its kind with its payload, whatever its text and its line. -/
inductive Piece where
  | name (name : Name)
  | mark (kind : TokenKind)
deriving DecidableEq

/-- The piece of a token. -/
def Token.piece (token : Token) : Piece :=
  if token.kind = .identifier then .name ⟨token.lexeme, token.line⟩ else .mark token.kind

theorem Token.piece_of_kind_eq
    {token : Token}
    {kind : TokenKind}
    (same : token.kind = kind)
    (noName : kind ≠ .identifier) :
    token.piece = .mark kind := by
  rw [piece, same, if_neg noName]

theorem Token.piece_eq_name_iff {token : Token} {name : Name} :
    token.piece = .name name ↔ token = name.token := by
  obtain ⟨kind, lexeme, line⟩ := token
  obtain ⟨nameLexeme, nameLine⟩ := name
  by_cases identifier : kind = .identifier
  · simp [piece, identifier, Name.token]
  · simp [piece, identifier, Name.token]

theorem Token.kind_of_piece_eq_mark
    {token : Token}
    {kind : TokenKind}
    (seen : token.piece = .mark kind) :
    token.kind = kind ∧ kind ≠ .identifier := by
  unfold piece at seen
  split at seen
  · cases seen
  · rename_i noName
    cases seen
    exact ⟨rfl, noName⟩

/-- The tokens begin with ones that are seen as the pieces, and go on with the rest. -/
def BeginsWith (tokens : List Token) (pieces : List Piece) (rest : List Token) : Prop :=
  ∃ front, tokens = front ++ rest ∧ front.map Token.piece = pieces

@[simp] theorem beginsWith_nil_iff {tokens rest : List Token} :
    BeginsWith tokens [] rest ↔ tokens = rest := by
  simp [BeginsWith]

theorem beginsWith_cons_iff
    {tokens rest : List Token}
    {piece : Piece}
    {pieces : List Piece} :
    BeginsWith tokens (piece :: pieces) rest ↔
      ∃ token others, tokens = token :: others ∧ token.piece = piece ∧
        BeginsWith others pieces rest := by
  constructor
  · rintro ⟨front, rfl, seen⟩
    obtain ⟨token, others, rfl, first, remaining⟩ := List.map_eq_cons_iff.1 seen
    exact ⟨token, others ++ rest, rfl, first, others, rfl, remaining⟩
  · rintro ⟨token, others, rfl, first, front, rfl, remaining⟩
    exact ⟨token :: front, rfl, by rw [List.map_cons, first, remaining]⟩

theorem beginsWith_append_iff
    {tokens rest : List Token}
    {front back : List Piece} :
    BeginsWith tokens (front ++ back) rest ↔
      ∃ middle, BeginsWith tokens front middle ∧ BeginsWith middle back rest := by
  constructor
  · rintro ⟨taken, rfl, seen⟩
    obtain ⟨first, second, rfl, firstSeen, secondSeen⟩ := List.map_eq_append_iff.1 seen
    exact ⟨second ++ rest, ⟨first, List.append_assoc .., firstSeen⟩, second, rfl, secondSeen⟩
  · rintro ⟨middle, ⟨first, rfl, firstSeen⟩, second, rfl, secondSeen⟩
    exact ⟨first ++ second, (List.append_assoc ..).symm,
      by rw [List.map_append, firstSeen, secondSeen]⟩

/-! ## Writing -/

/-- The kind of token that a literal is. -/
def Value.kind : Value → TokenKind
  | .nil => .keyword .nilWord
  | .boolean true => .keyword .trueWord
  | .boolean false => .keyword .falseWord
  | .number value => .number value
  | .string content => .string content

namespace Expr

/-- The pieces of an expression, in order. -/
def pieces : Expr → List Piece
  | .literal value => [.mark value.kind]
  | .reference name => [.name name]
  | .grouping inner =>
    .mark (.symbol .leftParen) :: (inner.pieces ++ [.mark (.symbol .rightParen)])
  | .unary operator operand => .mark (.symbol operator.symbol) :: operand.pieces
  | .binary left operator right =>
    left.pieces ++ .mark (.symbol operator.symbol) :: right.pieces
  | .assign name value => .name name :: .mark (.symbol .equal) :: value.pieces

end Expr

mutual

/-- The pieces of a statement, in order. -/
def Statement.pieces : Statement Expr → List Piece
  | .expression tree => tree.pieces ++ [.mark (.symbol .semicolon)]
  | .print tree => .mark (.keyword .printWord) :: (tree.pieces ++ [.mark (.symbol .semicolon)])
  | .var name none => [.mark (.keyword .varWord), .name name, .mark (.symbol .semicolon)]
  | .var name (some initializer) =>
    .mark (.keyword .varWord) :: .name name :: .mark (.symbol .equal) ::
      (initializer.pieces ++ [.mark (.symbol .semicolon)])
  | .block body =>
    .mark (.symbol .leftBrace) :: (Program.pieces body ++ [.mark (.symbol .rightBrace)])

/-- The pieces of a program: those of its statements in order. -/
def Program.pieces : List (Statement Expr) → List Piece
  | [] => []
  | statement :: rest => statement.pieces ++ Program.pieces rest

end

theorem Program.pieces_append (front back : Program) :
    Program.pieces (front ++ back) = Program.pieces front ++ Program.pieces back := by
  induction front with
  | nil => rfl
  | cons statement rest inductionHypothesis =>
    rw [List.cons_append, pieces, inductionHypothesis, pieces, List.append_assoc]

/-! ## Precedence -/

/-- The rank of the expressions of a level.  Assignments have rank zero, below all levels. -/
def Level.rank : Level → Nat
  | equality => 1
  | comparison => 2
  | term => 3
  | factor => 4

/-- The rank of a unary expression, above all levels. -/
def unaryRank : Nat := 5

/-- The rank of literals, names and groupings. -/
def primaryRank : Nat := 6

theorem Level.rank_pos (level : Level) : 0 < level.rank := by
  cases level <;> decide

theorem Level.rank_lt_unaryRank (level : Level) : level.rank < unaryRank := by
  cases level <;> decide

theorem Level.rank_injective {left right : Level} (same : left.rank = right.rank) :
    left = right := by
  cases left <;> cases right <;> first | rfl | (simp [rank] at same)

/-- The rank of the expressions that a token of the kind goes on with after an operand. -/
def infixRank? (kind : TokenKind) : Option Nat :=
  if kind = .symbol .equal then some 0 else (BinaryOp.ofKind? kind).map (·.level.rank)

@[simp] theorem infixRank?_symbol (operator : BinaryOp) :
    infixRank? (.symbol operator.symbol) = some operator.level.rank := by
  cases operator <;> rfl

theorem exists_operator_of_infixRank?_eq_some
    {kind : TokenKind}
    {found : Nat}
    (same : infixRank? kind = some found)
    (positive : 0 < found) :
    ∃ operator : BinaryOp, kind = .symbol operator.symbol ∧ operator.level.rank = found := by
  unfold infixRank? at same
  split at same
  · cases same
    exact absurd positive (Nat.lt_irrefl 0)
  · obtain ⟨operator, known, rank⟩ := Option.map_eq_some_iff.1 same
    exact ⟨operator, BinaryOp.ofKind?_eq_some_iff.1 known, rank⟩

/-- The tokens do not begin with one that an expression of the rank or a higher one goes on
with. -/
def EndsAt (rank : Nat) (tokens : List Token) : Prop :=
  ∀ token ∈ tokens.head?, ∀ found, infixRank? token.kind = some found → found < rank

@[simp] theorem endsAt_nil (rank : Nat) : EndsAt rank [] := by
  simp [EndsAt]

@[simp] theorem endsAt_cons_iff {rank : Nat} {token : Token} {rest : List Token} :
    EndsAt rank (token :: rest) ↔ ∀ found, infixRank? token.kind = some found → found < rank := by
  simp [EndsAt]

theorem EndsAt.mono
    {lower higher : Nat}
    {tokens : List Token}
    (ends : EndsAt lower tokens)
    (le : lower ≤ higher) :
    EndsAt higher tokens :=
  fun token member found same => Nat.lt_of_lt_of_le (ends token member found same) le

/-- No token goes on with unary and primary expressions. -/
theorem endsAt_unaryRank (tokens : List Token) : EndsAt unaryRank tokens := by
  intro token member found same
  rcases Nat.eq_zero_or_pos found with rfl | positive
  · decide
  · obtain ⟨operator, _, rfl⟩ := exists_operator_of_infixRank?_eq_some same positive
    exact operator.level.rank_lt_unaryRank

/-- Nothing goes on where neither an equals sign nor an operator with two operands follows. -/
theorem endsAt_zero_iff {tokens : List Token} :
    EndsAt 0 tokens ↔ ∀ token ∈ tokens.head?,
      token.kind ≠ .symbol .equal ∧ BinaryOp.ofKind? token.kind = none := by
  apply forall₂_congr
  intro token member
  unfold infixRank?
  split
  · rename_i equal
    simp [equal]
  · rename_i noEqual
    cases known : BinaryOp.ofKind? token.kind <;> simp [noEqual]

namespace Expr

/-- How tightly the outermost construct of an expression binds. -/
def rank : Expr → Nat
  | .assign _ _ => 0
  | .binary _ operator _ => operator.level.rank
  | .unary _ _ => unaryRank
  | .literal _ | .reference _ | .grouping _ => primaryRank

theorem exists_binary_of_rank_eq
    {level : Level}
    {expression : Expr}
    (same : expression.rank = level.rank) :
    ∃ left operator right, expression = .binary left operator right ∧ operator.level = level := by
  have belowUnary := level.rank_lt_unaryRank
  have positive := level.rank_pos
  cases expression with
  | binary left operator right => exact ⟨left, operator, right, rfl, Level.rank_injective same⟩
  | _ => simp only [rank, unaryRank, primaryRank] at same belowUnary; omega

theorem exists_assign_of_rank_eq_zero {expression : Expr} (zero : expression.rank = 0) :
    ∃ name value, expression = .assign name value := by
  cases expression with
  | assign name value => exact ⟨name, value, rfl⟩
  | binary left operator right => exact absurd zero (Nat.ne_of_gt operator.level.rank_pos)
  | _ => cases zero

/-- Whether an expression can be written without further parentheses: the left operand of an
operator has at least the operator's rank and the right operand a higher one, the operand of a
unary operator is unary or primary.  An assignment then stands only by itself, in a grouping or
as the value of another assignment. -/
def RespectsPrecedence : Expr → Prop
  | .literal _ | .reference _ => True
  | .grouping inner => inner.RespectsPrecedence
  | .unary _ operand => unaryRank ≤ operand.rank ∧ operand.RespectsPrecedence
  | .binary left operator right =>
    (operator.level.rank ≤ left.rank ∧ left.RespectsPrecedence) ∧
      operator.level.rank < right.rank ∧ right.RespectsPrecedence
  | .assign _ value => value.RespectsPrecedence

instance decidableRespectsPrecedence :
    (expression : Expr) → Decidable expression.RespectsPrecedence
  | .literal _ | .reference _ => isTrue trivial
  | .grouping inner => decidableRespectsPrecedence inner
  | .unary _ operand =>
    have := decidableRespectsPrecedence operand
    inferInstanceAs (Decidable (_ ∧ _))
  | .binary left _ right =>
    have := decidableRespectsPrecedence left
    have := decidableRespectsPrecedence right
    inferInstanceAs (Decidable ((_ ∧ _) ∧ _ ∧ _))
  | .assign _ value => decidableRespectsPrecedence value

/-! ## Nesting -/

/-- The number of operators of the level that follow one another down the left side. -/
def chainLength (level : Level) : Expr → Nat
  | .binary left operator _ => if operator.level = level then left.chainLength level + 1 else 0
  | _ => 0

/-- The nesting of an expression: the greatest sum, over all places in it, of the number of
groupings, unary operators and assignments around the place and the length of the chain of
operators of one level that ends there. -/
def nesting : Expr → Nat
  | .literal _ | .reference _ => 0
  | .grouping inner => inner.nesting + 1
  | .unary _ operand => operand.nesting + 1
  | .binary left operator right =>
    max (left.chainLength operator.level + 1) (max left.nesting right.nesting)
  | .assign _ value => value.nesting + 1

theorem chainLength_of_rank_ne
    {level : Level}
    {expression : Expr}
    (differs : expression.rank ≠ level.rank) :
    expression.chainLength level = 0 := by
  cases expression with
  | binary left operator right =>
    have other : operator.level ≠ level := fun same => differs (by rw [rank, same])
    rw [chainLength, if_neg other]
  | _ => rfl

theorem chainLength_le_nesting (level : Level) (expression : Expr) :
    expression.chainLength level ≤ expression.nesting := by
  cases expression with
  | binary left operator right =>
    by_cases same : operator.level = level
    · rw [chainLength, if_pos same, nesting, same]
      exact Nat.le_max_left _ _
    · rw [chainLength, if_neg same]
      exact Nat.zero_le _
  | _ => exact Nat.zero_le _

end Expr

mutual

/-- The nesting of a statement, in which a block counts as a grouping does. -/
def Statement.nesting : Statement Expr → Nat
  | .expression tree | .print tree | .var _ (some tree) => tree.nesting
  | .var _ none => 0
  | .block body => Program.nesting body + 1

/-- The nesting of a program: the greatest of its statements. -/
def Program.nesting : List (Statement Expr) → Nat
  | [] => 0
  | statement :: rest => max statement.nesting (Program.nesting rest)

end

theorem Program.nesting_append (front back : Program) :
    Program.nesting (front ++ back) = max (Program.nesting front) (Program.nesting back) := by
  induction front with
  | nil => exact (Nat.zero_max _).symm
  | cons statement rest inductionHypothesis =>
    rw [List.cons_append, nesting, inductionHypothesis, nesting, Nat.max_assoc]

mutual

/-- The expressions in a statement, in order. -/
def Statement.trees {Tree : Type} : Statement Tree → List Tree
  | .expression tree | .print tree | .var _ (some tree) => [tree]
  | .var _ none => []
  | .block body => Program.trees body

/-- The expressions in a program, in order. -/
def Program.trees {Tree : Type} : List (Statement Tree) → List Tree
  | [] => []
  | statement :: rest => statement.trees ++ Program.trees rest

end

theorem Program.trees_append (front back : Program) :
    Program.trees (front ++ back) = Program.trees front ++ Program.trees back := by
  induction front with
  | nil => rfl
  | cons statement rest inductionHypothesis =>
    rw [List.cons_append, trees, inductionHypothesis, trees, List.append_assoc]

end Lox
