import Lox.Evaluation.Statement

/-!
Contract: execution on an output of any kind.

Owns:
- writers, which may do anything with a value and may fail at any time;
- what a program does on a writer;
- that a sink is a writer, on which programs do what `executeAll` says.

Does not own: what holds of execution.
-/

namespace Lox

/-- An output of any kind: what printing a value does to its state, and whether that fails. -/
structure Writer where
  State : Type
  Fault : Type
  print : Value → State → Except Fault Unit × State

namespace Writer

/-- Why an execution stops: an error in the program, or a fault of the writer. -/
inductive Stop (Fault : Type) where
  | raised (error : RuntimeError)
  | notWritten (fault : Fault)
deriving DecidableEq

/-- What a statement can change. -/
structure World (writer : Writer) where
  environment : Environment
  output : writer.State

namespace World

variable {writer : Writer}

/-- Evaluates an expression in the world. -/
def evaluate (tree : Expr) (world : writer.World) :
    Except (Stop writer.Fault) Value × writer.World :=
  match tree.evaluate world.environment with
  | (result, environment) => (result.mapError .raised, { world with environment := environment })

/-- Prints a value in the world. -/
def print (value : Value) (world : writer.World) :
    Except (Stop writer.Fault) Unit × writer.World :=
  match writer.print value world.output with
  | (result, output) => (result.mapError .notWritten, { world with output := output })

/-- Binds a name in the innermost scope of the world. -/
def define (name : Name) (value : Value) (world : writer.World) : writer.World :=
  { world with environment := world.environment.define name.lexeme value }

/-- Enters a scope in the world. -/
def enter (world : writer.World) : writer.World :=
  { world with environment := world.environment.enter }

/-- Leaves the innermost scope of the world.  A world in its global scope stays as it is. -/
def leave (world : writer.World) : writer.World :=
  { world with environment := world.environment.leave?.getD world.environment }

end World

end Writer

mutual

/-- Executes a statement on a writer. -/
def Statement.executeOn (writer : Writer) :
    Statement Expr → writer.World → Except (Writer.Stop writer.Fault) Unit × writer.World
  | .expression tree, world =>
    match world.evaluate tree with
    | (.error stop, world) => (.error stop, world)
    | (.ok _, world) => (.ok (), world)
  | .print tree, world =>
    match world.evaluate tree with
    | (.error stop, world) => (.error stop, world)
    | (.ok value, world) => world.print value
  | .var name none, world => (.ok (), world.define name .nil)
  | .var name (some initializer), world =>
    match world.evaluate initializer with
    | (.error stop, world) => (.error stop, world)
    | (.ok value, world) => (.ok (), world.define name value)
  | .block body, world =>
    match executeAllOn writer body world.enter with
    | (result, world) => (result, world.leave)

/-- Executes statements in order on a writer, up to the first that stops. -/
def executeAllOn (writer : Writer) :
    List (Statement Expr) → writer.World → Except (Writer.Stop writer.Fault) Unit × writer.World
  | [], world => (.ok (), world)
  | statement :: rest, world =>
    match statement.executeOn writer world with
    | (.error stop, world) => (.error stop, world)
    | (.ok (), world) => executeAllOn writer rest world

end

/-- The second program is executed where the first one does not stop. -/
theorem executeAllOn_append
    {writer : Writer}
    (first second : Program)
    (world : writer.World) :
    executeAllOn writer (first ++ second) world =
      match executeAllOn writer first world with
      | (.error stop, world) => (.error stop, world)
      | (.ok (), world) => executeAllOn writer second world := by
  induction first generalizing world with
  | nil => rfl
  | cons statement rest inductionHypothesis =>
    rw [List.cons_append, executeAllOn, executeAllOn]
    rcases statement.executeOn writer world with ⟨_ | _, world⟩
    · rfl
    · exact inductionHypothesis world

/-- A statement of a program can be replaced by one that does the same. -/
theorem executeAllOn_congr
    {writer : Writer}
    {statement other : Statement Expr}
    (front back : Program)
    (same : ∀ world, other.executeOn writer world = statement.executeOn writer world)
    (world : writer.World) :
    executeAllOn writer (front ++ other :: back) world =
      executeAllOn writer (front ++ statement :: back) world := by
  simp only [executeAllOn_append, executeAllOn, same]

/-! ## Sinks -/

/-- A sink as a writer: a printed value is its text and a line feed. -/
def Sink.writer : Writer where
  State := Sink
  Fault := WriteFault
  print := fun value sink => sink.write (value.text ++ "\n")

/-- The error that the stop is when a sink is the output. -/
def Writer.Stop.error : Writer.Stop WriteFault → RuntimeError
  | .raised error => error
  | .notWritten fault => .output fault

namespace Sink

/-- A world with a sink. -/
def world (sinkWorld : Sink.writer.World) : World :=
  ⟨sinkWorld.environment, sinkWorld.output⟩

/-- What an execution with a sink as its writer comes to. -/
def outcome {Result : Type}
    (done : Except (Writer.Stop WriteFault) Result × Sink.writer.World) :
    Except RuntimeError Result × World :=
  (done.1.mapError Writer.Stop.error, world done.2)

variable (start : Sink.writer.World)

theorem evaluate_world (tree : Expr) :
    (world start).evaluate tree = outcome (start.evaluate tree) := by
  rcases found : tree.evaluate start.environment with ⟨_ | _, environment⟩ <;>
    simp only [World.evaluate, Writer.World.evaluate, world, found] <;> rfl

theorem write_world (value : Value) :
    (world start).write (value.text ++ "\n") = outcome (start.print value) := by
  rcases found : start.output.write (value.text ++ "\n") with ⟨_ | _, sink⟩ <;>
    simp only [World.write, Writer.World.print, world, writer, found] <;> rfl

end Sink

mutual

theorem Statement.execute_world :
    (statement : Statement Expr) → (start : Sink.writer.World) →
      statement.execute (Sink.world start) = Sink.outcome (statement.executeOn Sink.writer start)
  | .expression tree, start => by
    rw [Statement.execute, Statement.executeOn, Sink.evaluate_world]
    rcases start.evaluate tree with ⟨_ | _, world⟩ <;> rfl
  | .print tree, start => by
    rw [Statement.execute, Statement.executeOn, Sink.evaluate_world]
    rcases start.evaluate tree with ⟨_ | value, world⟩
    · rfl
    · exact Sink.write_world world value
  | .var name none, start => rfl
  | .var name (some initializer), start => by
    rw [Statement.execute, Statement.executeOn, Sink.evaluate_world]
    rcases start.evaluate initializer with ⟨_ | _, world⟩ <;> rfl
  | .block body, start => by
    have inside : executeAll body (Sink.world start).enter = _ := executeAll_world body start.enter
    simp only [Statement.execute, Statement.executeOn, inside]
    rfl

/-- On a sink a program does what it does on the sink as a writer. -/
theorem executeAll_world :
    (program : List (Statement Expr)) → (start : Sink.writer.World) →
      executeAll program (Sink.world start) = Sink.outcome (executeAllOn Sink.writer program start)
  | [], start => rfl
  | statement :: rest, start => by
    rw [executeAll, executeAllOn, statement.execute_world start]
    rcases statement.executeOn Sink.writer start with ⟨_ | _, world⟩
    · rfl
    · exact executeAll_world rest world

end

/-- Programs that do the same on every writer do the same on every sink. -/
theorem executeAll_eq_of_executeAllOn_eq
    {program other : Program}
    (same : ∀ start : Sink.writer.World,
      executeAllOn Sink.writer other start = executeAllOn Sink.writer program start)
    (world : World) :
    executeAll other world = executeAll program world := by
  have done : executeAll program world = _ :=
    executeAll_world program ⟨world.environment, world.sink⟩
  have otherDone : executeAll other world = _ :=
    executeAll_world other ⟨world.environment, world.sink⟩
  rw [done, otherDone, same]

end Lox
