import Lox.Proofs.Evaluation.Frame

/-!
Contract: blocks without declarations.

Owns:
- environments with one more scope, which has no bindings;
- that evaluation and execution do the same with that scope and without it, and leave it empty;
- programs in which the statements of a block that declares nothing take the place of the block;
- that such a program does the same.

Does not own: blocks whose declarations could be taken out of them.
-/

namespace Lox

/-! ## Chains with an empty scope -/

variable {name : String} {value : Value}

/-- A name has the same value in the chain with one more scope that is empty. -/
theorem findSome?_insertIdx_empty (depth : Nat) (scopes : List Scope) :
    (scopes.insertIdx depth {}).findSome? (Scope.find? name) =
      scopes.findSome? (Scope.find? name) := by
  induction depth generalizing scopes with
  | zero => rfl
  | succ depth inductionHypothesis =>
    cases scopes with
    | nil => rfl
    | cons scope outer =>
      rw [List.insertIdx_succ_cons, List.findSome?_cons, List.findSome?_cons,
        inductionHypothesis]

/-- An assignment goes past a scope that is empty. -/
theorem assignIn_insertIdx_empty (depth : Nat) (scopes : List Scope) :
    Environment.assignIn name value (scopes.insertIdx depth {}) =
      (Environment.assignIn name value scopes).map (List.insertIdx · depth {}) := by
  induction depth generalizing scopes with
  | zero => rfl
  | succ depth inductionHypothesis =>
    cases scopes with
    | nil => rfl
    | cons scope outer =>
      rw [List.insertIdx_succ_cons, Environment.assignIn, Environment.assignIn,
        inductionHypothesis]
      split
      · rfl
      · simp only [Option.map_map]
        rfl

namespace Environment

/-- The environment with one more scope, which is empty and has the given number of scopes inside of
it. -/
def withEmptyScope : Nat → Environment → Environment
  | 0, environment => environment.enter
  | depth + 1, environment =>
    { environment with enclosing := environment.enclosing.insertIdx depth {} }

variable (depth : Nat) (environment : Environment)

theorem scopes_withEmptyScope :
    (environment.withEmptyScope depth).scopes = environment.scopes.insertIdx depth {} := by
  cases depth with
  | zero => rfl
  | succ depth => rfl

theorem get_withEmptyScope :
    (environment.withEmptyScope depth).get name = environment.get name := by
  rw [get, get, scopes_withEmptyScope, findSome?_insertIdx_empty]

theorem assign_withEmptyScope :
    (environment.withEmptyScope depth).assign name value =
      (environment.assign name value).map (withEmptyScope depth) := by
  cases assigned : environment.assign name value with
  | error error =>
    obtain ⟨notFound, rfl⟩ := assign_eq_error_iff.1 assigned
    refine assign_eq_error_iff.2 ⟨?_, rfl⟩
    rw [scopes_withEmptyScope, assignIn_insertIdx_empty, notFound]
    rfl
  | ok changed =>
    refine assign_eq_ok_iff.2 ?_
    rw [scopes_withEmptyScope, assignIn_insertIdx_empty, assign_eq_ok_iff.1 assigned,
      scopes_withEmptyScope]
    rfl

theorem enter_withEmptyScope :
    (environment.withEmptyScope depth).enter = environment.enter.withEmptyScope (depth + 1) := by
  rw [enter, scopes_withEmptyScope]
  rfl

theorem leave_withEmptyScope (deep : 1 < environment.depth) :
    (environment.withEmptyScope (depth + 1)).leave?.getD (environment.withEmptyScope (depth + 1)) =
      (environment.leave?.getD environment).withEmptyScope depth := by
  obtain ⟨innermost, enclosing⟩ := environment
  cases enclosing with
  | nil => exact absurd deep (Nat.lt_irrefl 1)
  | cons scope outer =>
    cases depth with
    | zero => rfl
    | succ depth => rfl

end Environment

/-! ## Evaluation -/

/-- An expression has the same result with an empty scope around it, and leaves that scope empty. -/
theorem Expr.evaluate_withEmptyScope (tree : Expr) (depth : Nat) (environment : Environment) :
    tree.evaluate (environment.withEmptyScope depth) =
      ((tree.evaluate environment).1, (tree.evaluate environment).2.withEmptyScope depth) := by
  induction tree generalizing environment with
  | literal value => rfl
  | reference name => rw [evaluate, evaluate, Environment.get_withEmptyScope]
  | grouping inner inductionHypothesis => exact inductionHypothesis environment
  | unary operator operand inductionHypothesis =>
    rw [evaluate, evaluate, inductionHypothesis]
    rcases operand.evaluate environment with ⟨_ | _, after⟩ <;> rfl
  | binary left operator right leftHypothesis rightHypothesis =>
    rw [evaluate, evaluate, leftHypothesis]
    rcases left.evaluate environment with ⟨_ | _, between⟩
    · rfl
    · dsimp only
      rw [rightHypothesis]
      rcases right.evaluate between with ⟨_ | _, after⟩ <;> rfl
  | assign name value inductionHypothesis =>
    rw [evaluate, evaluate, inductionHypothesis]
    rcases value.evaluate environment with ⟨_ | result, between⟩
    · rfl
    · dsimp only
      rw [Environment.assign_withEmptyScope]
      cases between.assign name.lexeme result <;> rfl

/-! ## Execution -/

variable {writer : Writer}

namespace Writer.World

/-- The world with one more scope, which is empty. -/
def withEmptyScope (depth : Nat) (world : writer.World) : writer.World :=
  { world with environment := world.environment.withEmptyScope depth }

theorem evaluate_withEmptyScope (tree : Expr) (depth : Nat) (world : writer.World) :
    (world.withEmptyScope depth).evaluate tree =
      ((world.evaluate tree).1, (world.evaluate tree).2.withEmptyScope depth) := by
  simp only [evaluate, withEmptyScope, tree.evaluate_withEmptyScope]

theorem enter_withEmptyScope (depth : Nat) (world : writer.World) :
    (world.withEmptyScope depth).enter = world.enter.withEmptyScope (depth + 1) := by
  simp only [enter, withEmptyScope, Environment.enter_withEmptyScope]

theorem leave_withEmptyScope
    {world : writer.World}
    (depth : Nat)
    (deep : 1 < world.environment.depth) :
    (world.withEmptyScope (depth + 1)).leave = world.leave.withEmptyScope depth := by
  simp only [leave, withEmptyScope, Environment.leave_withEmptyScope depth _ deep]

end Writer.World

/-- Inside of a block there is more than the global scope. -/
theorem one_lt_depth_executeAllOn_enter (body : Program) (world : writer.World) :
    1 < (executeAllOn writer body world.enter).2.environment.depth := by
  have sameDepth : _ = world.environment.depth + 1 :=
    (executeAllOn_framed body world.enter).depth_eq
  have positive := world.environment.depth_pos
  omega

mutual

theorem Statement.executeOn_withEmptyScope :
    (statement : Statement Expr) → (depth : Nat) → (world : writer.World) →
      (depth = 0 → ∀ name, ¬ statement.Declares name) →
        statement.executeOn writer (world.withEmptyScope depth) =
          ((statement.executeOn writer world).1,
            (statement.executeOn writer world).2.withEmptyScope depth)
  | .expression tree, depth, world, _ => by
    rw [Statement.executeOn, Statement.executeOn, world.evaluate_withEmptyScope]
    rcases world.evaluate tree with ⟨_ | _, after⟩ <;> rfl
  | .print tree, depth, world, _ => by
    rw [Statement.executeOn, Statement.executeOn, world.evaluate_withEmptyScope]
    rcases world.evaluate tree with ⟨_ | _, after⟩ <;> rfl
  | .var name initializer, 0, world, declaresNothing => absurd rfl (declaresNothing rfl name.lexeme)
  | .var name none, depth + 1, world, _ => rfl
  | .var name (some initializer), depth + 1, world, _ => by
    rw [Statement.executeOn, Statement.executeOn, world.evaluate_withEmptyScope]
    rcases world.evaluate initializer with ⟨_ | _, after⟩ <;> rfl
  | .block body, depth, world, _ => by
    have deep := one_lt_depth_executeAllOn_enter body world
    have inside := executeAllOn_withEmptyScope body (depth + 1) world.enter
      fun isInnermost => absurd isInnermost (Nat.succ_ne_zero depth)
    rw [Statement.executeOn, Statement.executeOn, world.enter_withEmptyScope, inside]
    dsimp only
    rw [Writer.World.leave_withEmptyScope depth deep]

/-- With an empty scope around it, a program has the same result and the same output, and leaves
that scope empty.  If the scope is the innermost one, the program must not declare anything. -/
theorem executeAllOn_withEmptyScope :
    (program : List (Statement Expr)) → (depth : Nat) → (world : writer.World) →
      (depth = 0 → ∀ name, ¬ Program.Declares name program) →
        executeAllOn writer program (world.withEmptyScope depth) =
          ((executeAllOn writer program world).1,
            (executeAllOn writer program world).2.withEmptyScope depth)
  | [], depth, world, _ => rfl
  | statement :: rest, depth, world, declaresNothing => by
    have first := statement.executeOn_withEmptyScope depth world fun isInnermost name declares =>
      declaresNothing isInnermost name ⟨statement, List.mem_cons_self, declares⟩
    rw [executeAllOn, executeAllOn, first]
    rcases statement.executeOn writer world with ⟨_ | _, between⟩
    · rfl
    · exact executeAllOn_withEmptyScope rest depth between
        fun isInnermost name ⟨declaration, member, declares⟩ =>
          declaresNothing isInnermost name
            ⟨declaration, List.mem_cons_of_mem statement member, declares⟩

end

/-! ## Blocks without declarations -/

/-- A block that declares nothing does what its statements do. -/
theorem executeOn_block_of_declares_nothing
    {body : Program}
    (declaresNothing : ∀ name, ¬ Program.Declares name body)
    (world : writer.World) :
    (Statement.block body).executeOn writer world = executeAllOn writer body world := by
  have inside := executeAllOn_withEmptyScope body 0 world fun _ => declaresNothing
  rw [Statement.executeOn]
  change executeAllOn writer body world.enter = _ at inside
  rw [inside]
  rfl

/-- A program, and the program in which the statements of a block take the place of the block.
There is no declaration among these statements, though there may be some in blocks inside of it. -/
inductive Unwrapped : Program → Program → Prop where
  | here {body : Program} (front back : Program) :
    (∀ name, ¬ Program.Declares name body) →
      Unwrapped (front ++ .block body :: back) (front ++ body ++ back)
  | inside {body other : Program} (front back : Program) :
    Unwrapped body other → Unwrapped (front ++ .block body :: back) (front ++ .block other :: back)

theorem executeAllOn_unwrapped
    {program other : Program}
    (unwrapped : Unwrapped program other)
    (world : writer.World) :
    executeAllOn writer other world = executeAllOn writer program world := by
  induction unwrapped generalizing world with
  | here front back declaresNothing =>
    simp only [executeAllOn_append, executeAllOn,
      executeOn_block_of_declares_nothing declaresNothing]
    rcases executeAllOn writer front world with ⟨_ | _, between⟩ <;> rfl
  | inside front back _ inductionHypothesis =>
    apply executeAllOn_congr
    intro start
    rw [Statement.executeOn, Statement.executeOn, inductionHypothesis]

/-- When the statements of a block without declarations take the place of the block, a program has
the same result, the same output and the same bindings, whatever they are at the start, on every
writer. -/
theorem block_unwrapped
    {program other : Program}
    (unwrapped : Unwrapped program other) :
    (∀ (writer : Writer) (world : writer.World),
      executeAllOn writer other world = executeAllOn writer program world) ∧
    ∀ world : World, executeAll other world = executeAll program world :=
  ⟨fun _ => executeAllOn_unwrapped unwrapped,
    executeAll_eq_of_executeAllOn_eq (executeAllOn_unwrapped unwrapped)⟩

/-- What a block does that assigns a variable from outside, declares one of the same name in a block
inside of it, and stops at a name that is not declared. -/
def assigningStatements : Program :=
  [.expression (.assign ⟨"a", 3⟩ (.literal (.string "changed"))),
    .block
      [.var ⟨"a", 5⟩ (some (.reference ⟨"a", 5⟩)),
        .expression (.assign ⟨"a", 6⟩ (.literal (.string "inner"))),
        .print (.reference ⟨"a", 7⟩)],
    .print (.reference ⟨"a", 9⟩),
    .expression (.assign ⟨"b", 10⟩ (.literal .nil))]

/-- The statements inside of a block that declares the variable, and prints it at the end. -/
def insideDeclaringBlock (statements : Program) : Program :=
  [.block (.var ⟨"a", 1⟩ none :: statements ++ [.print (.reference ⟨"a", 12⟩)])]

theorem block_unwrapped_assigning :
    Unwrapped (insideDeclaringBlock [.block assigningStatements])
        (insideDeclaringBlock assigningStatements) ∧
      (∀ (writer : Writer) (world : writer.World),
        executeAllOn writer (insideDeclaringBlock assigningStatements) world =
          executeAllOn writer (insideDeclaringBlock [.block assigningStatements]) world) ∧
      ∀ world : World,
        executeAll (insideDeclaringBlock assigningStatements) world =
          executeAll (insideDeclaringBlock [.block assigningStatements]) world := by
  have declaresNothing : ∀ name, ¬ Program.Declares name assigningStatements := by
    simp [Program.Declares, assigningStatements, Statement.Declares]
  have unwrapped : Unwrapped (insideDeclaringBlock [.block assigningStatements])
      (insideDeclaringBlock assigningStatements) :=
    .inside [] [] (.here [.var ⟨"a", 1⟩ none] [.print (.reference ⟨"a", 12⟩)] declaresNothing)
  exact ⟨unwrapped, block_unwrapped unwrapped⟩

end Lox
