import Lox.Proofs.Syntax.Height
import Mathlib.Algebra.BigOperators.Intervals
import Mathlib.Tactic.Ring

/-!
Contract: the longest paths in the expressions that the limit of nesting allows.

Owns:
- the most nodes that a path can have, by the room that is left for nesting;
- that no expression within the room has a longer path;
- an expression for every room that has a path of this length, and tokens for it at every depth.

Does not own: which recursions go along such a path.

The limit counts one chain of operators at a time.  At one depth there can be a chain of each of the
four levels, one on the left side of the other, and each may be as long as there is room.  Below the
last operand of the tightest chain the next depth begins.
-/

namespace Lox

namespace Expr

/-- The most nodes on a path from the root to a leaf, with that room for nesting: a leaf, and at
each depth four chains and the construct that goes a level deeper. -/
def mostNodes (room : Nat) : Nat :=
  1 + ∑ level ∈ Finset.Icc 1 room, (4 * level + 1)

theorem mostNodes_succ (room : Nat) :
    mostNodes (room + 1) = mostNodes room + (4 * (room + 1) + 1) := by
  rw [mostNodes, Finset.sum_Icc_succ_top (Nat.le_add_left 1 room), ← Nat.add_assoc]
  rfl

theorem mostNodes_eq (room : Nat) : mostNodes room = 1 + room * (2 * room + 3) := by
  induction room with
  | zero => rfl
  | succ room inductionHypothesis =>
    rw [mostNodes_succ, inductionHypothesis]
    ring

/-- The same number, summed over the depths from the outermost on. -/
theorem mostNodes_eq_sum_depths (room : Nat) :
    mostNodes room = 1 + ∑ depth ∈ Finset.range room, (4 * (room - depth) + 1) := by
  induction room with
  | zero => rfl
  | succ room inductionHypothesis =>
    rw [mostNodes_succ, inductionHypothesis, Finset.sum_range_succ']
    simp only [Nat.add_sub_add_right, Nat.sub_zero, Nat.add_assoc]

theorem four_mul_lt_mostNodes (room : Nat) : 4 * room < mostNodes room := by
  induction room with
  | zero => decide
  | succ room inductionHypothesis =>
    rw [mostNodes_succ]
    omega

/-! ## No path is longer -/

/-- No path is longer than the room allows.  An expression that binds as tightly as a level has no
chains of the looser levels, and of this level only its own. -/
structure LowWithin (room : Nat) (tree : Expr) : Prop where
  nodes_le : tree.height + 1 ≤ mostNodes room
  nodes_le_at (level : Level) : level.rank ≤ tree.rank →
    tree.height + 1 + level.rank * room ≤ mostNodes room + tree.chainLength level

/-- Without any chain above it, an expression has fewer nodes. -/
theorem lowWithin_of_noChain
    {room : Nat}
    {tree : Expr}
    (nodes : tree.height + 1 + 4 * room ≤ mostNodes room) :
    tree.LowWithin room := by
  refine ⟨by omega, fun level _ => ?_⟩
  have loosest : level.rank * room ≤ 4 * room :=
    Nat.mul_le_mul_right room (Nat.le_of_lt_succ level.rank_lt_unaryRank)
  omega

theorem lowWithin_leaf {tree : Expr} (leaf : tree.height = 0) (room : Nat) :
    tree.LowWithin room := by
  have enough := four_mul_lt_mostNodes room
  apply lowWithin_of_noChain
  omega

/-- A construct that goes a level deeper has one more node and no chain above it. -/
theorem lowWithin_deeper
    {room : Nat}
    {inner tree : Expr}
    (low : inner.LowWithin room)
    (height : tree.height = inner.height + 1) :
    tree.LowWithin (room + 1) := by
  have nodes := low.nodes_le
  apply lowWithin_of_noChain
  rw [height, mostNodes_succ]
  omega

/-- An operator makes the chain of its level longer by one, and its right operand has no chain of
this level. -/
theorem lowWithin_binary
    {room : Nat}
    {left right : Expr}
    {operator : BinaryOp}
    (leftLow : left.LowWithin room)
    (rightLow : right.LowWithin room)
    (respects : (Expr.binary left operator right).RespectsPrecedence)
    (within : (Expr.binary left operator right).nesting ≤ room) :
    (Expr.binary left operator right).LowWithin room := by
  obtain ⟨⟨leftRank, _⟩, rightRank, _⟩ := respects
  have leftNodes := leftLow.nodes_le_at operator.level leftRank
  have rightNodes := rightLow.nodes_le_at operator.level (Nat.le_of_lt rightRank)
  rw [chainLength_of_rank_ne (Nat.ne_of_gt rightRank)] at rightNodes
  have longer : (Expr.binary left operator right).chainLength operator.level =
      left.chainLength operator.level + 1 := if_pos rfl
  have nodes : (Expr.binary left operator right).height + 1 + operator.level.rank * room ≤
      mostNodes room + (Expr.binary left operator right).chainLength operator.level := by
    rw [longer, height]
    omega
  have chain := (Expr.binary left operator right).chainLength_le_nesting operator.level
  -- The own chain fits into the room, so what is counted for a level makes up for it.
  have looser (rank : Nat) (below : rank < operator.level.rank) :
      (Expr.binary left operator right).height + 1 + rank * room ≤ mostNodes room := by
    have step : rank * room + room ≤ operator.level.rank * room := by
      rw [← Nat.succ_mul]
      exact Nat.mul_le_mul_right room below
    omega
  constructor
  · have all := looser 0 operator.level.rank_pos
    omega
  · intro level rank
    rcases Nat.lt_or_eq_of_le rank with below | same
    · exact Nat.le_add_right_of_le (looser level.rank below)
    · rw [Level.rank_injective same]
      exact nodes

/-- An expression that respects precedence and stays within the room has no longer path. -/
theorem lowWithin_of_nesting_le
    (tree : Expr)
    {room : Nat}
    (respects : tree.RespectsPrecedence)
    (within : tree.nesting ≤ room) :
    tree.LowWithin room := by
  induction tree generalizing room with
  | literal | reference => exact lowWithin_leaf rfl room
  | grouping inner inductionHypothesis | assign _ inner inductionHypothesis =>
    cases room with
    | zero => exact absurd within (Nat.not_succ_le_zero _)
    | succ room =>
      exact lowWithin_deeper (inductionHypothesis respects (Nat.le_of_succ_le_succ within)) rfl
  | unary operator operand inductionHypothesis =>
    cases room with
    | zero => exact absurd within (Nat.not_succ_le_zero _)
    | succ room =>
      exact lowWithin_deeper (inductionHypothesis respects.2 (Nat.le_of_succ_le_succ within)) rfl
  | binary left operator right leftHypothesis rightHypothesis =>
    have operands := Nat.max_le.1 (Nat.max_le.1 within).2
    exact lowWithin_binary (leftHypothesis respects.1.2 operands.1)
      (rightHypothesis respects.2.2 operands.2) respects within

/-! ## Paths that are as long -/

/-- So many operators of each kind after the expression, kind by kind, each with the name as its
right operand. -/
def chained (name : Name) (count : Nat) (left : Expr) : (operators : List BinaryOp) → Expr
  | [] => left
  | operator :: looser => (left.extended operator name count).chained name count looser

/-- Each of the operators binds looser than the rank and than the operators before it. -/
def Loosening : (rank : Nat) → (operators : List BinaryOp) → Prop
  | _, [] => True
  | rank, operator :: looser =>
    operator.level.rank < rank ∧ Loosening operator.level.rank looser

theorem Loosening.mono
    {rank higher : Nat}
    {operators : List BinaryOp}
    (loosening : Loosening rank operators)
    (le : rank ≤ higher) :
    Loosening higher operators := by
  cases operators with
  | nil => trivial
  | cons operator looser => exact ⟨Nat.lt_of_lt_of_le loosening.1 le, loosening.2⟩

section Chained

variable (name : Name) {count : Nat} {left : Expr} {operators : List BinaryOp}

theorem height_chained (count : Nat) (left : Expr) (operators : List BinaryOp) :
    (left.chained name count operators).height = left.height + operators.length * count := by
  induction operators generalizing left with
  | nil => simp [chained]
  | cons operator looser inductionHypothesis =>
    rw [chained, inductionHypothesis, height_extended, List.length_cons, Nat.succ_mul]
    omega

theorem respectsPrecedence_chained
    (loosening : Loosening left.rank operators)
    (respects : left.RespectsPrecedence) :
    (left.chained name count operators).RespectsPrecedence := by
  induction operators generalizing left with
  | nil => exact respects
  | cons operator looser inductionHypothesis =>
    obtain ⟨tighter, loosening⟩ := loosening
    exact inductionHypothesis
      (loosening.mono (rank_le_rank_extended operator name tighter count))
      (respectsPrecedence_extended operator name tighter respects count)

/-- Chains that are no longer than the nesting of their operand add nothing to it. -/
theorem nesting_chained
    (loosening : Loosening left.rank operators)
    (fits : count ≤ left.nesting) :
    (left.chained name count operators).nesting = left.nesting := by
  induction operators generalizing left with
  | nil => rfl
  | cons operator looser inductionHypothesis =>
    obtain ⟨tighter, loosening⟩ := loosening
    have same : (left.extended operator name count).nesting = left.nesting := by
      rw [nesting_extended operator name tighter, Nat.max_eq_right fits]
    rw [chained, inductionHypothesis
      (loosening.mono (rank_le_rank_extended operator name tighter count)) (by rwa [same]), same]

end Chained

/-- An operator of each level, the tightest first. -/
def levelOperators : List BinaryOp :=
  [.multiply, .add, .less, .equal]

/-- An expression with one of the longest paths that the room allows. -/
def deepest (name : Name) : (room : Nat) → Expr
  | 0 => .reference name
  | room + 1 => (Expr.grouping (deepest name room)).chained name (room + 1) levelOperators

section Deepest

variable (name : Name)

theorem nodes_deepest (room : Nat) : (deepest name room).height + 1 = mostNodes room := by
  induction room with
  | zero => rfl
  | succ room inductionHypothesis =>
    rw [deepest, height_chained, mostNodes_succ, ← inductionHypothesis]
    simp only [height, levelOperators, List.length_cons, List.length_nil]
    omega

theorem loosening_levelOperators (inner : Expr) :
    Loosening (Expr.grouping inner).rank levelOperators := by
  change Loosening primaryRank levelOperators
  simp [levelOperators, Loosening, BinaryOp.level, Level.rank, primaryRank]

theorem respectsPrecedence_deepest (room : Nat) : (deepest name room).RespectsPrecedence := by
  induction room with
  | zero => trivial
  | succ room inductionHypothesis =>
    exact respectsPrecedence_chained name (loosening_levelOperators _) inductionHypothesis

theorem nesting_deepest (room : Nat) : (deepest name room).nesting = room := by
  induction room with
  | zero => rfl
  | succ room inductionHypothesis =>
    have nests : (Expr.grouping (deepest name room)).nesting = room + 1 := by
      rw [nesting, inductionHypothesis]
    rw [deepest, nesting_chained name (loosening_levelOperators _) (Nat.le_of_eq nests.symm), nests]

end Deepest

/-- The expression in so many groupings. -/
def grouped (inner : Expr) : (depth : Nat) → Expr
  | 0 => inner
  | depth + 1 => .grouping (inner.grouped depth)

theorem nesting_grouped (inner : Expr) (depth : Nat) :
    (inner.grouped depth).nesting = inner.nesting + depth := by
  induction depth with
  | zero => rfl
  | succ depth inductionHypothesis => rw [grouped, nesting, inductionHypothesis, Nat.add_assoc]

theorem respectsPrecedence_grouped
    {inner : Expr}
    (respects : inner.RespectsPrecedence)
    (depth : Nat) :
    (inner.grouped depth).RespectsPrecedence := by
  induction depth with
  | zero => exact respects
  | succ depth inductionHypothesis => exact inductionHypothesis

end Expr

/-! ## Tokens for them -/

/-- A token that is the symbol. -/
def Symbol.token (mark : Symbol) (line : Nat) : Token :=
  ⟨.symbol mark, mark.spelling, line⟩

theorem Symbol.piece_token (mark : Symbol) (line : Nat) :
    (mark.token line).piece = .mark (.symbol mark) :=
  Token.piece_of_kind_eq rfl (by simp)

/-- So many of each of the operators after the tokens, each with the name after it. -/
def chainedTokens (name : Name) (count : Nat) (front : List Token) : List BinaryOp → List Token
  | [] => front
  | operator :: looser =>
    chainedTokens name count
      (front ++ operatorTokens (operator.symbol.token name.line) name.token count) looser

theorem map_piece_chainedTokens
    {name : Name}
    {front : List Token}
    {left : Expr}
    (written : front.map Token.piece = left.pieces)
    (count : Nat)
    (operators : List BinaryOp) :
    (chainedTokens name count front operators).map Token.piece =
      (left.chained name count operators).pieces := by
  induction operators generalizing front left with
  | nil => exact written
  | cons operator looser inductionHypothesis =>
    exact inductionHypothesis (pieces_extended (Symbol.piece_token _ _) written count)

/-- The tokens in so many pairs of parentheses. -/
def groupedTokens (line : Nat) (tokens : List Token) (depth : Nat) : List Token :=
  List.replicate depth (Symbol.leftParen.token line) ++
    (tokens ++ List.replicate depth (Symbol.rightParen.token line))

theorem map_piece_groupedTokens
    {tokens : List Token}
    {inner : Expr}
    (written : tokens.map Token.piece = inner.pieces)
    (line depth : Nat) :
    (groupedTokens line tokens depth).map Token.piece = (inner.grouped depth).pieces := by
  induction depth with
  | zero => simpa [groupedTokens, Expr.grouped] using written
  | succ depth inductionHypothesis =>
    have outer : groupedTokens line tokens (depth + 1) =
        Symbol.leftParen.token line ::
          (groupedTokens line tokens depth ++ [Symbol.rightParen.token line]) := by
      rw [groupedTokens, List.replicate_succ, List.replicate_succ', groupedTokens]
      simp only [List.cons_append, List.append_assoc]
    rw [outer, List.map_cons, List.map_append, inductionHypothesis, Symbol.piece_token,
      List.map_singleton, Symbol.piece_token]
    rfl

/-- Tokens for one of the deepest expressions. -/
def deepestTokens (name : Name) : (room : Nat) → List Token
  | 0 => [name.token]
  | room + 1 =>
    chainedTokens name (room + 1) (groupedTokens name.line (deepestTokens name room) 1)
      Expr.levelOperators

theorem map_piece_deepestTokens (name : Name) (room : Nat) :
    (deepestTokens name room).map Token.piece = (Expr.deepest name room).pieces := by
  induction room with
  | zero => rw [deepestTokens, List.map_singleton, Token.piece_eq_name_iff.2 rfl]; rfl
  | succ room inductionHypothesis =>
    exact map_piece_chainedTokens (map_piece_groupedTokens inductionHypothesis name.line 1) _ _

/-! ## Expressions as they are read -/

/-- What is read at a depth has no longer path than the room there allows. -/
theorem Grammar.nodes_le_of_expression
    {room : Nat}
    {unread rest : List Token}
    {tree : Expr}
    (read : Grammar.expression Expr.builder room unread = .ok (tree, rest)) :
    tree.height + 1 ≤ Expr.mostNodes room := by
  obtain ⟨_, _, fits⟩ := Grammar.sound_expression room read
  exact (tree.lowWithin_of_nesting_le fits.respects (Nat.le_of_lt_succ fits.nesting_lt)).nodes_le

theorem Expr.nodes_le_of_ofTokens
    {tokens : List Token}
    {tree : Expr}
    (read : Expr.ofTokens tokens = .ok tree) :
    tree.height + 1 ≤ Expr.mostNodes Grammar.maxNesting := by
  obtain ⟨rest, read⟩ := TokenInput.read_eq_ok_iff.1 read
  exact Grammar.nodes_le_of_expression read

/-- At every depth one of the longest paths that are possible there is read: inside so many
parentheses, in an expression that is accepted as a whole. -/
theorem Expr.deepest_read
    (name : Name)
    {depth : Nat}
    (within : depth ≤ Grammar.maxNesting) :
    Expr.ofTokens
        (groupedTokens name.line (deepestTokens name (Grammar.maxNesting - depth)) depth) =
        .ok ((Expr.deepest name (Grammar.maxNesting - depth)).grouped depth) ∧
      Grammar.expression Expr.builder (Grammar.maxNesting - depth)
          ((groupedTokens name.line (deepestTokens name (Grammar.maxNesting - depth)) depth).drop
            depth) =
        .ok (Expr.deepest name (Grammar.maxNesting - depth),
          List.replicate depth (Symbol.rightParen.token name.line)) := by
  have written := map_piece_deepestTokens name (Grammar.maxNesting - depth)
  have respects := Expr.respectsPrecedence_deepest name (Grammar.maxNesting - depth)
  have nests := Expr.nesting_deepest name (Grammar.maxNesting - depth)
  constructor
  · have writes := Expr.writtenBy_append (Expr.respectsPrecedence_grouped respects depth)
      (map_piece_groupedTokens written name.line depth) (endsAt_nil 0)
    rw [List.append_nil] at writes
    refine Expr.ofTokens_eq_ok_iff.2 ⟨writes, ?_⟩
    rw [Expr.nesting_grouped, nests]
    omega
  · rw [groupedTokens, List.drop_left' List.length_replicate]
    have ends : EndsAt 0 (List.replicate depth (Symbol.rightParen.token name.line)) := by
      cases depth with
      | zero => exact endsAt_nil 0
      | succ depth => exact endsAt_cons_iff.2 fun found same => nomatch same
    refine (Grammar.complete_expression _ (Nat.zero_le _) respects ⟨_, rfl, written⟩ ends).1 ?_
    rw [nests]
    exact Nat.lt_succ_self _

end Lox
