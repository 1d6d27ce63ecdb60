import Lox.Proofs.Evaluation.Writer

/-!
Contract: the order of evaluation.

Owns:
- the actions of an expression and of a program, in the order of evaluation;
- going through actions one after another, and the position at which that fails;
- that performing the actions of a program is executing it.

Does not own: why an action stops.

There are no branches and no loops in a program, so its evaluation passes the same actions in the
same order every time, up to the one that stops it.
-/

namespace Lox

/-! ## Actions -/

/-- What evaluation does at one point.  Operators, assignments, printing and definitions take the
values that were found last. -/
inductive Action where
  | literal (value : Value)
  | read (name : Name)
  | unary (operator : UnaryOp)
  | binary (operator : BinaryOp)
  | assign (name : Name)
  | discard
  | print
  | define (name : Name)
  | enter
  | leave

/-- The actions of an expression: operands from left to right before their operator, and the value
of an assignment before its name. -/
def Expr.actions : Expr → List Action
  | .literal value => [.literal value]
  | .reference name => [.read name]
  | .grouping inner => inner.actions
  | .unary operator operand => operand.actions ++ [.unary operator]
  | .binary left operator right => left.actions ++ right.actions ++ [.binary operator]
  | .assign name value => value.actions ++ [.assign name]

mutual

/-- The actions of a statement: an initializer before the definition of its name, and a block
between entering and leaving its scope. -/
def Statement.actions : Statement Expr → List Action
  | .expression tree => tree.actions ++ [.discard]
  | .print tree => tree.actions ++ [.print]
  | .var name none => [.literal .nil, .define name]
  | .var name (some initializer) => initializer.actions ++ [.define name]
  | .block body => .enter :: (Program.actions body ++ [.leave])

/-- The actions of a program. -/
def Program.actions : List (Statement Expr) → List Action
  | [] => []
  | statement :: rest => statement.actions ++ Program.actions rest

end

/-! ## Going through actions -/

section Through

variable {State Failure : Type} {step : Action → State → Except Failure State}

/-- Goes through actions one after another, up to the first that fails. -/
def goThrough (step : Action → State → Except Failure State) :
    List Action → State → Except Failure State
  | [], state => .ok state
  | action :: rest, state =>
    match step action state with
    | .error failure => .error failure
    | .ok state => goThrough step rest state

/-- The actions before the position succeed, and the one at the position fails. -/
def FailsAt
    (step : Action → State → Except Failure State)
    (position : Nat)
    (failure : Failure)
    (actions : List Action)
    (state : State) : Prop :=
  ∃ action reached, actions[position]? = some action ∧
    goThrough step (actions.take position) state = .ok reached ∧
      step action reached = .error failure

variable {action : Action} {rest actions : List Action} {state next : State} {failure : Failure}

theorem failsAt_zero (failed : step action state = .error failure) :
    FailsAt step 0 failure (action :: rest) state :=
  ⟨action, state, rfl, rfl, failed⟩

theorem failsAt_succ
    {position : Nat}
    (succeeded : step action state = .ok next)
    (failed : FailsAt step position failure rest next) :
    FailsAt step (position + 1) failure (action :: rest) state := by
  obtain ⟨failing, reached, here, before, fails⟩ := failed
  refine ⟨failing, reached, here, ?_, fails⟩
  rw [List.take_succ_cons, goThrough, succeeded]
  exact before

/-- Failing is failing at some position. -/
theorem exists_failsAt (failed : goThrough step actions state = .error failure) :
    ∃ position, FailsAt step position failure actions state := by
  induction actions generalizing state with
  | nil => cases failed
  | cons first rest inductionHypothesis =>
    rw [goThrough] at failed
    cases stepped : step first state with
    | error _ =>
      rw [stepped] at failed
      cases failed
      exact ⟨0, failsAt_zero stepped⟩
    | ok next =>
      rw [stepped] at failed
      obtain ⟨position, later⟩ := inductionHypothesis failed
      exact ⟨position + 1, failsAt_succ stepped later⟩

/-- Failing at a position is failing. -/
theorem FailsAt.goThrough_eq
    {position : Nat}
    (failed : FailsAt step position failure actions state) :
    goThrough step actions state = .error failure := by
  induction actions generalizing position state with
  | nil =>
    obtain ⟨_, _, here, _⟩ := failed
    cases here
  | cons first rest inductionHypothesis =>
    obtain ⟨failing, reached, here, before, fails⟩ := failed
    cases position with
    | zero =>
      cases here
      cases before
      rw [goThrough, fails]
    | succ position =>
      rw [List.take_succ_cons, goThrough] at before
      rw [goThrough]
      cases stepped : step first state with
      | error failure =>
        rw [stepped] at before
        cases before
      | ok next =>
        rw [stepped] at before
        exact inductionHypothesis ⟨failing, reached, here, before, fails⟩

end Through

/-! ## Performing actions -/

/-- The values found and not yet taken, the last one first, and the world. -/
structure Machine (writer : Writer) where
  pending : List Value
  world : writer.World

variable {writer : Writer}

namespace Machine

/-- The machine with one more value. -/
def push (value : Value) (machine : Machine writer) : Machine writer :=
  { machine with pending := value :: machine.pending }

/-- The value found last.  It is `nil` if there is none, which the actions of a program never
meet. -/
def last (machine : Machine writer) : Value :=
  machine.pending.headD .nil

/-- The machine without the value found last. -/
def drop (machine : Machine writer) : Machine writer :=
  { machine with pending := machine.pending.tail }

end Machine

/-- Goes on with the result of a part of the action, unless that is an error. -/
def proceed
    {Result : Type}
    (result : Except RuntimeError Result)
    (next : Result → Machine writer) :
    Except (Writer.Stop writer.Fault) (Machine writer) :=
  match result with
  | .error error => .error (.raised error)
  | .ok value => .ok (next value)

/-- Performs one action. -/
def Action.perform :
    Action → Machine writer → Except (Writer.Stop writer.Fault) (Machine writer)
  | .literal value, machine => .ok (machine.push value)
  | .read name, machine =>
    proceed (machine.world.environment.get name.lexeme) fun value => machine.push value
  | .unary operator, machine =>
    proceed (operator.apply machine.last) fun value => machine.drop.push value
  | .binary operator, machine =>
    proceed (operator.apply machine.drop.last machine.last) fun value =>
      machine.drop.drop.push value
  | .assign name, machine =>
    proceed (machine.world.environment.assign name.lexeme machine.last) fun environment =>
      { machine with world := { machine.world with environment := environment } }
  | .discard, machine => .ok machine.drop
  | .print, machine =>
    match machine.world.print machine.last with
    | (.error stop, _) => .error stop
    | (.ok (), world) => .ok { machine.drop with world := world }
  | .define name, machine =>
    .ok { machine.drop with world := machine.world.define name machine.last }
  | .enter, machine => .ok { machine with world := machine.world.enter }
  | .leave, machine => .ok { machine with world := machine.world.leave }

namespace Action

variable {pending : List Value} {world : writer.World}

theorem perform_unary (operator : UnaryOp) (value : Value) :
    perform (.unary operator) ⟨value :: pending, world⟩ =
      proceed (operator.apply value) fun result => ⟨result :: pending, world⟩ := rfl

theorem perform_binary (operator : BinaryOp) (left right : Value) :
    perform (.binary operator) ⟨right :: left :: pending, world⟩ =
      proceed (operator.apply left right) fun result => ⟨result :: pending, world⟩ := rfl

theorem perform_assign (name : Name) (value : Value) :
    perform (.assign name) ⟨value :: pending, world⟩ =
      proceed (world.environment.assign name.lexeme value) fun environment =>
        ⟨value :: pending, { world with environment := environment }⟩ := rfl

end Action

/-! ## The actions of programs -/

/-- The actions of an expression find its value, whatever actions follow. -/
theorem Expr.perform_actions
    (tree : Expr)
    (others : List Action)
    (machine : Machine writer) :
    goThrough Action.perform (tree.actions ++ others) machine =
      match machine.world.evaluate tree with
      | (.error stop, _) => .error stop
      | (.ok value, world) => goThrough Action.perform others ⟨value :: machine.pending, world⟩ := by
  -- For any actions behind, as those of an operand stand in front of its operator.
  induction tree generalizing others machine with
  | literal value => rfl
  | reference name =>
    simp only [actions, List.singleton_append, goThrough, Action.perform,
      Writer.World.evaluate, evaluate]
    rcases machine.world.environment.get name.lexeme with _ | _ <;> rfl
  | grouping inner inductionHypothesis => exact inductionHypothesis others machine
  | unary operator operand inductionHypothesis =>
    rw [actions, List.append_assoc, inductionHypothesis, Writer.World.evaluate,
      Writer.World.evaluate, evaluate]
    rcases operand.evaluate machine.world.environment with ⟨_ | value, environment⟩
    · rfl
    · change goThrough Action.perform (.unary operator :: others) ⟨value :: _, _⟩ = _
      rw [goThrough, Action.perform_unary]
      dsimp only
      rcases operator.apply value with _ | _ <;> rfl
  | binary left operator right leftHypothesis rightHypothesis =>
    rw [actions, List.append_assoc, List.append_assoc, leftHypothesis, Writer.World.evaluate,
      Writer.World.evaluate, evaluate]
    rcases left.evaluate machine.world.environment with ⟨_ | leftValue, between⟩
    · rfl
    · change goThrough Action.perform (right.actions ++ _) ⟨leftValue :: _, ⟨between, _⟩⟩ = _
      rw [rightHypothesis, Writer.World.evaluate]
      dsimp only
      rcases right.evaluate between with ⟨_ | rightValue, environment⟩
      · rfl
      · change goThrough Action.perform (.binary operator :: others)
          ⟨rightValue :: leftValue :: _, _⟩ = _
        rw [goThrough, Action.perform_binary]
        dsimp only
        rcases operator.apply leftValue rightValue with _ | _ <;> rfl
  | assign name value inductionHypothesis =>
    rw [actions, List.append_assoc, inductionHypothesis, Writer.World.evaluate,
      Writer.World.evaluate, evaluate]
    rcases value.evaluate machine.world.environment with ⟨_ | found, environment⟩
    · rfl
    · change goThrough Action.perform (.assign name :: others)
        ⟨found :: _, ⟨environment, _⟩⟩ = _
      rw [goThrough, Action.perform_assign]
      dsimp only
      rcases environment.assign name.lexeme found with _ | _ <;> rfl

mutual

theorem Statement.perform_actions :
    (statement : Statement Expr) → (others : List Action) → (machine : Machine writer) →
      goThrough Action.perform (statement.actions ++ others) machine =
        match statement.executeOn writer machine.world with
        | (.error stop, _) => .error stop
        | (.ok (), world) => goThrough Action.perform others ⟨machine.pending, world⟩
  | .expression tree, others, machine => by
    rw [Statement.actions, List.append_assoc, tree.perform_actions, Statement.executeOn]
    rcases machine.world.evaluate tree with ⟨_ | value, world⟩ <;> rfl
  | .print tree, others, machine => by
    rw [Statement.actions, List.append_assoc, tree.perform_actions, Statement.executeOn]
    rcases machine.world.evaluate tree with ⟨_ | value, world⟩
    · rfl
    · rcases printed : world.print value with ⟨_ | _, written⟩ <;>
        simp [goThrough, Action.perform, Machine.last, Machine.drop, printed]
  | .var name none, others, machine => rfl
  | .var name (some initializer), others, machine => by
    rw [Statement.actions, List.append_assoc, initializer.perform_actions, Statement.executeOn]
    rcases machine.world.evaluate initializer with ⟨_ | value, world⟩ <;> rfl
  | .block body, others, machine => by
    rw [Statement.actions, List.cons_append, List.append_assoc, goThrough, Action.perform]
    dsimp only
    rw [Program.perform_actions body, Statement.executeOn]
    rcases executeAllOn writer body machine.world.enter with ⟨_ | _, world⟩ <;> rfl

/-- Performing the actions of a program is executing it, whatever actions follow. -/
theorem Program.perform_actions :
    (program : List (Statement Expr)) → (others : List Action) → (machine : Machine writer) →
      goThrough Action.perform (Program.actions program ++ others) machine =
        match executeAllOn writer program machine.world with
        | (.error stop, _) => .error stop
        | (.ok (), world) => goThrough Action.perform others ⟨machine.pending, world⟩
  | [], others, machine => rfl
  | statement :: rest, others, machine => by
    rw [Program.actions, List.append_assoc, statement.perform_actions, executeAllOn]
    rcases statement.executeOn writer machine.world with ⟨_ | _, world⟩
    · rfl
    · exact Program.perform_actions rest others ⟨machine.pending, world⟩

end

end Lox
