import Lox.Proofs.Syntax.RoundTrip

/-!
Contract: how high the tree of an accepted expression is.

Owns:
- the height of an expression, and that it is at least the nesting;
- that the limit of nesting is no limit of height, by expressions that extend a chain of one level
  by a chain of another;
- exactly when the limit of nesting does bound the height.

Does not own: the nesting itself.

The nesting counts, at each place, one chain of operators with what is around it.  The height
counts all operators on a path: those of looser chains above it, and those of tighter chains and
deeper constructs below.
-/

namespace Lox

namespace Expr

/-- The number of steps on the longest path from the root to a leaf. -/
def height : Expr → Nat
  | .literal _ | .reference _ => 0
  | .grouping inner => inner.height + 1
  | .unary _ operand => operand.height + 1
  | .binary left _ right => max left.height right.height + 1
  | .assign _ value => value.height + 1

theorem chainLength_le_height (level : Level) (tree : Expr) :
    tree.chainLength level ≤ tree.height := by
  induction tree with
  | binary left operator right leftHypothesis _ =>
    simp only [chainLength, height]
    split
    · omega
    · exact Nat.zero_le _
  | _ => exact Nat.zero_le _

/-- What is too nested is too high. -/
theorem nesting_le_height (tree : Expr) : tree.nesting ≤ tree.height := by
  induction tree with
  | binary left operator right leftHypothesis rightHypothesis =>
    have chain := left.chainLength_le_height operator.level
    simp only [nesting, height]
    omega
  | _ => simp_all [nesting, height]

/-! ## Chains on chains -/

/-- The expression with so many operators after it, each with the name as its right operand. -/
def extended (operator : BinaryOp) (name : Name) (left : Expr) : (count : Nat) → Expr
  | 0 => left
  | count + 1 => .binary (left.extended operator name count) operator (.reference name)

variable (operator : BinaryOp) (name : Name) (left : Expr)

theorem height_extended (count : Nat) :
    (left.extended operator name count).height = left.height + count := by
  induction count with
  | zero => rfl
  | succ count inductionHypothesis =>
    simp only [extended, height, inductionHypothesis]
    omega

variable {left}

theorem rank_le_rank_extended (tighter : operator.level.rank < left.rank) (count : Nat) :
    operator.level.rank ≤ (left.extended operator name count).rank := by
  cases count with
  | zero => exact Nat.le_of_lt tighter
  | succ count => exact Nat.le_refl _

theorem respectsPrecedence_extended
    (tighter : operator.level.rank < left.rank)
    (respects : left.RespectsPrecedence)
    (count : Nat) :
    (left.extended operator name count).RespectsPrecedence := by
  induction count with
  | zero => exact respects
  | succ count inductionHypothesis =>
    exact ⟨⟨rank_le_rank_extended operator name tighter count, inductionHypothesis⟩,
      Nat.lt_trans operator.level.rank_lt_unaryRank (by decide : unaryRank < primaryRank),
      trivial⟩

theorem chainLength_extended (tighter : operator.level.rank < left.rank) (count : Nat) :
    (left.extended operator name count).chainLength operator.level = count := by
  induction count with
  | zero => exact chainLength_of_rank_ne (Nat.ne_of_gt tighter)
  | succ count inductionHypothesis =>
    rw [extended, chainLength, if_pos rfl, inductionHypothesis]

/-- The operators after an expression nest as deep as there are, but not deeper by what stands
before them. -/
theorem nesting_extended (tighter : operator.level.rank < left.rank) (count : Nat) :
    (left.extended operator name count).nesting = max count left.nesting := by
  induction count with
  | zero => simp [extended]
  | succ count inductionHypothesis =>
    have chain := chainLength_extended operator name tighter count
    simp only [extended, nesting, chain, inductionHypothesis]
    omega

end Expr

/-- A product of so many more factors, and so many terms added to it. -/
def layered (name : Name) (factors terms : Nat) : Expr :=
  ((Expr.reference name).extended .multiply name factors).extended .add name terms

/-- So many operators, each with the name after it. -/
def operatorTokens (operator name : Token) : (count : Nat) → List Token
  | 0 => []
  | count + 1 => operatorTokens operator name count ++ [operator, name]

/-- The tokens of a layered expression. -/
def layeredTokens (name : Name) (factors terms : Nat) : List Token :=
  name.token :: operatorTokens ⟨.symbol .star, "*", name.line⟩ name.token factors ++
    operatorTokens ⟨.symbol .plus, "+", name.line⟩ name.token terms

theorem pieces_extended
    {operator : BinaryOp}
    {name : Name}
    {token : Token}
    {left : Expr}
    {front : List Token}
    (seen : token.piece = .mark (.symbol operator.symbol))
    (written : front.map Token.piece = left.pieces)
    (count : Nat) :
    (front ++ operatorTokens token name.token count).map Token.piece =
      (left.extended operator name count).pieces := by
  induction count with
  | zero => simpa [operatorTokens, Expr.extended] using written
  | succ count inductionHypothesis =>
    have nameSeen : name.token.piece = .name name := Token.piece_eq_name_iff.2 rfl
    rw [operatorTokens, ← List.append_assoc, List.map_append, inductionHypothesis]
    simp [Expr.extended, Expr.pieces, seen, nameSeen]

/-- Neither of two chains on one left side may be longer than the limit, but both together. -/
theorem ofTokens_layeredTokens
    (name : Name)
    {factors terms : Nat}
    (factorsWithin : factors ≤ Grammar.maxNesting)
    (termsWithin : terms ≤ Grammar.maxNesting) :
    Expr.ofTokens (layeredTokens name factors terms) = .ok (layered name factors terms) := by
  have factorTighter : BinaryOp.multiply.level.rank < (Expr.reference name).rank :=
    (by decide : Level.factor.rank < primaryRank)
  have termTighter : BinaryOp.add.level.rank <
      ((Expr.reference name).extended .multiply name factors).rank :=
    Nat.lt_of_lt_of_le (by decide) (Expr.rank_le_rank_extended .multiply name factorTighter factors)
  have respects : (layered name factors terms).RespectsPrecedence :=
    Expr.respectsPrecedence_extended .add name termTighter
      (Expr.respectsPrecedence_extended .multiply name factorTighter trivial factors) terms
  have nameWritten : [name.token].map Token.piece = (Expr.reference name).pieces := by
    rw [List.map_singleton, Token.piece_eq_name_iff.2 rfl, Expr.pieces]
  have written : (layeredTokens name factors terms).map Token.piece =
      (layered name factors terms).pieces :=
    pieces_extended rfl (pieces_extended rfl nameWritten factors) terms
  have writes := Expr.writtenBy_append respects written (endsAt_nil 0)
  rw [List.append_nil] at writes
  refine Expr.ofTokens_eq_ok_iff.2 ⟨writes, ?_⟩
  rw [layered, Expr.nesting_extended .add name termTighter,
    Expr.nesting_extended .multiply name factorTighter]
  exact Nat.max_le.2 ⟨termsWithin, Nat.max_le.2 ⟨factorsWithin, Nat.zero_le _⟩⟩

/-! ## The limit of nesting and the height -/

theorem Expr.tooMuchNesting_iff
    {tokens : List Token}
    {tree : Expr}
    (writes : tree.WrittenBy tokens) :
    (∃ error, Expr.ofTokens tokens = .error error ∧ error.fault = .tooMuchNesting) ↔
      Grammar.maxNesting < tree.nesting := by
  constructor
  · rintro ⟨error, refused, _⟩
    by_cases within : tree.nesting ≤ Grammar.maxNesting
    · rw [Expr.ofTokens_eq_ok_iff.2 ⟨writes, within⟩] at refused
      cases refused
    · omega
  · exact Expr.exists_tooMuchNesting writes

theorem Program.tooMuchNesting_iff
    {tokens : List Token}
    {program : Program}
    (writes : program.WrittenBy tokens) :
    (∃ error, Program.ofTokens tokens = .error error ∧ error.fault = .tooMuchNesting) ↔
      Grammar.maxNesting < Program.nesting program := by
  constructor
  · rintro ⟨error, refused, _⟩
    by_cases within : Program.nesting program ≤ Grammar.maxNesting
    · rw [Program.ofTokens_eq_ok_iff.2 ⟨writes, within⟩] at refused
      cases refused
    · omega
  · exact Program.exists_tooMuchNesting writes

/-- The limit of nesting bounds the height of the accepted expressions, and of those in accepted
programs, exactly where every expression or program that the tokens write is no higher or exceeds
the limit by its nesting.  What the tokens write is refused for its nesting exactly if that exceeds
the limit; an expression that is refused so is higher than the limit, but not the other way
round. -/
theorem height_le_maxNesting_iff (tokens : List Token) :
    ((∀ tree, Expr.ofTokens tokens = .ok tree → tree.height ≤ Grammar.maxNesting) ↔
      ∀ tree : Expr, tree.WrittenBy tokens →
        tree.height ≤ Grammar.maxNesting ∨ Grammar.maxNesting < tree.nesting) ∧
    ((∀ program, Program.ofTokens tokens = .ok program →
        ∀ tree ∈ Program.trees program, tree.height ≤ Grammar.maxNesting) ↔
      ∀ program : Program, program.WrittenBy tokens →
        (∀ tree ∈ Program.trees program, tree.height ≤ Grammar.maxNesting) ∨
          Grammar.maxNesting < Program.nesting program) ∧
    (∀ tree : Expr, tree.WrittenBy tokens →
      ((∃ error, Expr.ofTokens tokens = .error error ∧ error.fault = .tooMuchNesting) ↔
        Grammar.maxNesting < tree.nesting) ∧ tree.nesting ≤ tree.height) ∧
    (∀ program : Program, program.WrittenBy tokens →
      ((∃ error, Program.ofTokens tokens = .error error ∧ error.fault = .tooMuchNesting) ↔
        Grammar.maxNesting < Program.nesting program)) := by
  refine ⟨⟨?_, ?_⟩, ⟨?_, ?_⟩, ?_, ?_⟩
  · intro bounded tree writes
    by_cases within : tree.nesting ≤ Grammar.maxNesting
    · exact .inl (bounded tree (Expr.ofTokens_eq_ok_iff.2 ⟨writes, within⟩))
    · exact .inr (by omega)
  · intro condition tree read
    obtain ⟨writes, within⟩ := Expr.ofTokens_eq_ok_iff.1 read
    rcases condition tree writes with bounded | exceeds
    · exact bounded
    · omega
  · intro bounded program writes
    by_cases within : Program.nesting program ≤ Grammar.maxNesting
    · exact .inl (bounded program (Program.ofTokens_eq_ok_iff.2 ⟨writes, within⟩))
    · exact .inr (by omega)
  · intro condition program read
    obtain ⟨writes, within⟩ := Program.ofTokens_eq_ok_iff.1 read
    rcases condition program writes with bounded | exceeds
    · exact bounded
    · omega
  · intro tree writes
    exact ⟨Expr.tooMuchNesting_iff writes, tree.nesting_le_height⟩
  · intro program writes
    exact Program.tooMuchNesting_iff writes

/-- A product of 66 factors with 64 terms added to it is accepted, and is higher than the
limit. -/
theorem height_exceeds_maxNesting :
    Expr.ofTokens (layeredTokens ⟨"a", 1⟩ 65 64) = .ok (layered ⟨"a", 1⟩ 65 64) ∧
      Grammar.maxNesting < (layered ⟨"a", 1⟩ 65 64).height := by
  refine ⟨ofTokens_layeredTokens _ (by decide) (by decide), ?_⟩
  rw [layered, Expr.height_extended, Expr.height_extended]
  decide

end Lox
