import Lox.Evaluation.Expression
import Lox.Proofs.Syntax.Deepest
import Lox.Syntax.Rendering

/-!
Contract: how deep the recursions on expressions go.

Owns:
- evaluation, rendering and release with a limit on the calls that are open at the same time;
- that the nodes of a longest path are calls enough for each of them, and that no fewer are for
  rendering and release, nor for the evaluation of what is nested to the left;
- the calls that are enough for every accepted expression, and that none of them can be saved.

Does not own: how long the paths of an expression are.

Every recursion opens one call for each node, inside the call for the node above it.
-/

namespace Lox

namespace Expr

/-! ## Evaluation -/

/-- The evaluation with so many calls open at most; none if it needs another one. -/
def evaluateWithin :
    (calls : Nat) → Expr → Environment → Option (Except RuntimeError Value × Environment)
  | 0, _, _ => none
  | _ + 1, .literal value, environment => some (.ok value, environment)
  | _ + 1, .reference name, environment => some (environment.get name.lexeme, environment)
  | calls + 1, .grouping inner, environment => inner.evaluateWithin calls environment
  | calls + 1, .unary operator operand, environment =>
    match operand.evaluateWithin calls environment with
    | none => none
    | some (.error error, environment) => some (.error error, environment)
    | some (.ok value, environment) => some (operator.apply value, environment)
  | calls + 1, .binary left operator right, environment =>
    match left.evaluateWithin calls environment with
    | none => none
    | some (.error error, environment) => some (.error error, environment)
    | some (.ok leftValue, environment) =>
      match right.evaluateWithin calls environment with
      | none => none
      | some (.error error, environment) => some (.error error, environment)
      | some (.ok rightValue, environment) =>
        some (operator.apply leftValue rightValue, environment)
  | calls + 1, .assign name value, environment =>
    match value.evaluateWithin calls environment with
    | none => none
    | some (.error error, environment) => some (.error error, environment)
    | some (.ok value, environment) =>
      match environment.assign name.lexeme value with
      | .error error => some (.error error, environment)
      | .ok environment => some (.ok value, environment)

/-- The nodes of a longest path are calls enough. -/
theorem evaluateWithin_eq_some
    {tree : Expr}
    {calls : Nat}
    (enough : tree.height < calls)
    (environment : Environment) :
    tree.evaluateWithin calls environment = some (tree.evaluate environment) := by
  induction calls generalizing tree environment with
  | zero => exact absurd enough (Nat.not_lt_zero _)
  | succ calls inductionHypothesis =>
    cases tree with
    | literal | reference => rfl
    | grouping inner => exact inductionHypothesis (Nat.lt_of_succ_lt_succ enough) environment
    | unary operator operand =>
      rw [evaluateWithin, evaluate, inductionHypothesis (Nat.lt_of_succ_lt_succ enough)]
      rcases operand.evaluate environment with ⟨_ | _, _⟩ <;> rfl
    | binary left operator right =>
      obtain ⟨leftEnough, rightEnough⟩ := Nat.max_lt.1 (Nat.lt_of_succ_lt_succ enough)
      rw [evaluateWithin, evaluate, inductionHypothesis leftEnough]
      rcases left.evaluate environment with ⟨_ | leftValue, between⟩
      · rfl
      · dsimp only
        rw [inductionHypothesis rightEnough]
        rcases right.evaluate between with ⟨_ | _, _⟩ <;> rfl
    | assign name value =>
      rw [evaluateWithin, evaluate, inductionHypothesis (Nat.lt_of_succ_lt_succ enough)]
      rcases value.evaluate environment with ⟨_ | result, between⟩
      · rfl
      · dsimp only
        cases between.assign name.lexeme result <;> rfl

/-- The number of steps from the root down to what is evaluated first. -/
def firstHeight : Expr → Nat
  | .literal _ | .reference _ => 0
  | .grouping inner | .unary _ inner | .assign _ inner | .binary inner _ _ =>
    inner.firstHeight + 1

/-- As many calls are open at the same time when the evaluation comes to its first leaf, whatever
happens after that. -/
theorem evaluateWithin_eq_none
    {tree : Expr}
    {calls : Nat}
    (tooFew : calls ≤ tree.firstHeight)
    (environment : Environment) :
    tree.evaluateWithin calls environment = none := by
  induction calls generalizing tree environment with
  | zero => rfl
  | succ calls inductionHypothesis =>
    cases tree with
    | literal | reference => exact absurd tooFew (Nat.not_succ_le_zero _)
    | grouping inner => exact inductionHypothesis (Nat.le_of_succ_le_succ tooFew) environment
    | unary operator inner | assign name inner | binary inner operator right =>
      rw [evaluateWithin, inductionHypothesis (Nat.le_of_succ_le_succ tooFew)]

/-! ## Rendering -/

/-- The characters of the expression's text in front of `tail`, with so many calls open at most. -/
def renderBeforeWithin (tail : List Char) : (calls : Nat) → Expr → Option (List Char)
  | 0, _ => none
  | _ + 1, .literal value => some (value.rendering.toList ++ tail)
  | _ + 1, .reference name => some (name.lexeme.toList ++ tail)
  | calls + 1, .grouping inner =>
    (renderBeforeWithin (')' :: tail) calls inner).map ("(group ".toList ++ ·)
  | calls + 1, .unary operator operand =>
    (renderBeforeWithin (')' :: tail) calls operand).map fun text =>
      '(' :: operator.symbol.spelling.toList ++ ' ' :: text
  | calls + 1, .binary left operator right =>
    (renderBeforeWithin (')' :: tail) calls right).bind fun back =>
      (renderBeforeWithin (' ' :: back) calls left).map fun text =>
        '(' :: operator.symbol.spelling.toList ++ ' ' :: text
  | calls + 1, .assign name value =>
    (renderBeforeWithin (')' :: tail) calls value).map fun text =>
      "(assign ".toList ++ name.lexeme.toList ++ ' ' :: text

/-- The canonical text of the expression, with so many calls open at most. -/
def textWithin (calls : Nat) (tree : Expr) : Option String :=
  (renderBeforeWithin [] calls tree).map String.ofList

theorem renderBeforeWithin_eq (calls : Nat) (tree : Expr) (tail : List Char) :
    renderBeforeWithin tail calls tree =
      if tree.height < calls then some (renderBefore tail tree) else none := by
  induction calls generalizing tree tail with
  | zero => rfl
  | succ calls inductionHypothesis =>
    cases tree with
    | literal | reference => rfl
    | grouping inner | unary operator inner | assign name inner =>
      rw [renderBeforeWithin, inductionHypothesis, height]
      simp only [Nat.add_lt_add_iff_right]
      split <;> rfl
    | binary left operator right =>
      rw [renderBeforeWithin, inductionHypothesis, height]
      by_cases rightEnough : right.height < calls
      · rw [if_pos rightEnough, Option.bind_some, inductionHypothesis]
        simp only [Nat.add_lt_add_iff_right, Nat.max_lt, rightEnough, and_true]
        split <;> rfl
      · rw [if_neg rightEnough]
        simp only [Nat.add_lt_add_iff_right, Nat.max_lt, rightEnough, and_false]
        rfl

/-- An expression is rendered exactly if there are as many calls as nodes on a longest path. -/
theorem textWithin_eq (calls : Nat) (tree : Expr) :
    tree.textWithin calls = if tree.height < calls then some tree.text else none := by
  rw [textWithin, renderBeforeWithin_eq]
  split <;> rfl

/-! ## Release -/

/-- Releases an expression, its parts inside the call for the whole, with so many calls open at
most.  The result is the number of nodes that are released. -/
def releasedWithin : (calls : Nat) → Expr → Option Nat
  | 0, _ => none
  | _ + 1, .literal _ | _ + 1, .reference _ => some 1
  | calls + 1, .grouping inner | calls + 1, .unary _ inner | calls + 1, .assign _ inner =>
    (inner.releasedWithin calls).map (· + 1)
  | calls + 1, .binary left _ right =>
    (left.releasedWithin calls).bind fun first =>
      (right.releasedWithin calls).map fun second => first + second + 1

/-- The number of nodes of an expression. -/
def nodeCount : Expr → Nat
  | .literal _ | .reference _ => 1
  | .grouping inner | .unary _ inner | .assign _ inner => inner.nodeCount + 1
  | .binary left _ right => left.nodeCount + right.nodeCount + 1

/-- An expression is released exactly if there are as many calls as nodes on a longest path. -/
theorem releasedWithin_eq (calls : Nat) (tree : Expr) :
    tree.releasedWithin calls = if tree.height < calls then some tree.nodeCount else none := by
  induction calls generalizing tree with
  | zero => rfl
  | succ calls inductionHypothesis =>
    cases tree with
    | literal | reference => rfl
    | grouping inner | unary operator inner | assign name inner =>
      rw [releasedWithin, inductionHypothesis, height]
      simp only [Nat.add_lt_add_iff_right]
      split <;> rfl
    | binary left operator right =>
      rw [releasedWithin, inductionHypothesis, inductionHypothesis, height]
      by_cases leftEnough : left.height < calls
      · rw [if_pos leftEnough]
        simp only [Nat.add_lt_add_iff_right, Nat.max_lt, leftEnough, true_and]
        split <;> rfl
      · rw [if_neg leftEnough]
        simp only [Nat.add_lt_add_iff_right, Nat.max_lt, leftEnough, false_and]
        rfl

/-! ## The deepest expressions -/

theorem firstHeight_extended (operator : BinaryOp) (name : Name) (left : Expr) (count : Nat) :
    (left.extended operator name count).firstHeight = left.firstHeight + count := by
  induction count with
  | zero => rfl
  | succ count inductionHypothesis => rw [extended, firstHeight, inductionHypothesis]; rfl

theorem firstHeight_chained
    (name : Name)
    (count : Nat)
    (left : Expr)
    (operators : List BinaryOp) :
    (left.chained name count operators).firstHeight =
      left.firstHeight + operators.length * count := by
  induction operators generalizing left with
  | nil => simp [chained]
  | cons operator looser inductionHypothesis =>
    rw [chained, inductionHypothesis, firstHeight_extended, List.length_cons, Nat.succ_mul]
    omega

/-- A longest path of a deepest expression leads to what is evaluated first. -/
theorem firstHeight_deepest (name : Name) (room : Nat) :
    (deepest name room).firstHeight = (deepest name room).height := by
  induction room with
  | zero => rfl
  | succ room inductionHypothesis =>
    rw [deepest, firstHeight_chained, height_chained, firstHeight, inductionHypothesis, height]

end Expr

/-- Every recursion on an accepted expression gets by with 33153 calls open at the same time, and
what is read at a depth has no longer paths than the room there allows.  At every depth there is an
expression with such a path, read inside so many parentheses, and no recursion on it gets by with
fewer calls. -/
theorem call_depth_bounded :
    Expr.mostNodes Grammar.maxNesting = 33153 ∧
    Expr.mostNodes Grammar.maxNesting =
      1 + ∑ depth ∈ Finset.range Grammar.maxNesting, (4 * (Grammar.maxNesting - depth) + 1) ∧
    (∀ tokens tree, Expr.ofTokens tokens = .ok tree →
      tree.height + 1 ≤ 33153 ∧
      (∀ environment, tree.evaluateWithin 33153 environment = some (tree.evaluate environment)) ∧
      tree.textWithin 33153 = some tree.text ∧
      tree.releasedWithin 33153 = some tree.nodeCount) ∧
    (∀ depth ≤ Grammar.maxNesting, ∀ unread tree rest,
      Grammar.expression Expr.builder (Grammar.maxNesting - depth) unread = .ok (tree, rest) →
        tree.height + 1 ≤
          1 + ∑ level ∈ Finset.Icc 1 (Grammar.maxNesting - depth), (4 * level + 1)) ∧
    ∀ depth ≤ Grammar.maxNesting, ∃ tokens tree rest,
      Expr.ofTokens tokens = .ok (tree.grouped depth) ∧
      Grammar.expression Expr.builder (Grammar.maxNesting - depth) (tokens.drop depth) =
        .ok (tree, rest) ∧
      tree.height + 1 =
        1 + ∑ level ∈ Finset.Icc 1 (Grammar.maxNesting - depth), (4 * level + 1) ∧
      ∀ calls ≤ tree.height,
        (∀ environment, tree.evaluateWithin calls environment = none) ∧
        tree.textWithin calls = none ∧
        tree.releasedWithin calls = none := by
  have most : Expr.mostNodes Grammar.maxNesting = 33153 := by
    rw [Expr.mostNodes_eq, Grammar.maxNesting]
  refine ⟨most, Expr.mostNodes_eq_sum_depths _, fun tokens tree read => ?_,
    fun depth _ unread tree rest => Grammar.nodes_le_of_expression, fun depth within => ?_⟩
  · have nodes : tree.height < 33153 := by
      rw [← most]
      exact Expr.nodes_le_of_ofTokens read
    refine ⟨nodes, Expr.evaluateWithin_eq_some nodes, ?_, ?_⟩
    · rw [Expr.textWithin_eq, if_pos nodes]
    · rw [Expr.releasedWithin_eq, if_pos nodes]
  · obtain ⟨whole, inside⟩ := Expr.deepest_read ⟨"a", 1⟩ within
    refine ⟨_, _, _, whole, inside, Expr.nodes_deepest _ _, fun calls tooFew => ?_⟩
    have notEnough := Nat.not_lt_of_le tooFew
    refine ⟨Expr.evaluateWithin_eq_none (by rwa [Expr.firstHeight_deepest]), ?_, ?_⟩
    · rw [Expr.textWithin_eq, if_neg notEnough]
    · rw [Expr.releasedWithin_eq, if_neg notEnough]

/-- A product of 66 factors with 64 terms added to it is higher than the limit of nesting. -/
theorem call_depth_bounded_layered :
    Expr.ofTokens (layeredTokens ⟨"a", 1⟩ 65 64) = .ok (layered ⟨"a", 1⟩ 65 64) ∧
      (layered ⟨"a", 1⟩ 65 64).height + 1 ≤ 33153 ∧
      (layered ⟨"a", 1⟩ 65 64).textWithin 33153 = some (layered ⟨"a", 1⟩ 65 64).text := by
  have read := ofTokens_layeredTokens ⟨"a", 1⟩ (show 65 ≤ Grammar.maxNesting by decide)
    (show 64 ≤ Grammar.maxNesting by decide)
  obtain ⟨nodes, _, rendered, _⟩ := call_depth_bounded.2.2.1 _ _ read
  exact ⟨read, nodes, rendered⟩

end Lox
