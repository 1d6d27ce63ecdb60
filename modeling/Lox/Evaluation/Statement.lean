import Lox.Evaluation.Expression
import Lox.Evaluation.Sink

/-!
Contract: the execution of statements.

Owns:
- the state of a run: the bindings and the output;
- what a statement and a list of statements do to it, also where an error stops them.

Does not own: the state that a run starts from.
-/

namespace Lox

/-- What a statement can change. -/
structure World where
  environment : Environment := {}
  sink : Sink := {}

namespace World

/-- Evaluates an expression in the world. -/
def evaluate (expression : Expr) (world : World) : Except RuntimeError Value × World :=
  match expression.evaluate world.environment with
  | (result, environment) => (result, { world with environment := environment })

/-- Writes a text in the world. -/
def write (text : String) (world : World) : Except RuntimeError Unit × World :=
  match world.sink.write text with
  | (.ok (), sink) => (.ok (), { world with sink := sink })
  | (.error fault, sink) => (.error (.output fault), { world with sink := sink })

/-- Binds a name in the innermost scope of the world. -/
def define (name : Name) (value : Value) (world : World) : World :=
  { world with environment := world.environment.define name.lexeme value }

/-- Enters a scope in the world. -/
def enter (world : World) : World :=
  { world with environment := world.environment.enter }

/-- Leaves the innermost scope of the world.  A world in its global scope stays as it is. -/
def leave (world : World) : World :=
  { world with environment := world.environment.leave?.getD world.environment }

end World

mutual

/-- Executes a statement.  What `print` writes ends with a line feed.  A variable without initial
value is `nil`.  A block has a scope of its own, which is left in any case. -/
def Statement.execute : Statement Expr → World → Except RuntimeError Unit × World
  | .expression expression, world =>
    match world.evaluate expression with
    | (.error error, world) => (.error error, world)
    | (.ok _, world) => (.ok (), world)
  | .print expression, world =>
    match world.evaluate expression with
    | (.error error, world) => (.error error, world)
    | (.ok value, world) => world.write (value.text ++ "\n")
  | .var name none, world => (.ok (), world.define name .nil)
  | .var name (some initializer), world =>
    match world.evaluate initializer with
    | (.error error, world) => (.error error, world)
    | (.ok value, world) => (.ok (), world.define name value)
  | .block body, world =>
    match executeAll body world.enter with
    | (result, world) => (result, world.leave)

/-- Executes statements in order, up to the first error. -/
def executeAll : List (Statement Expr) → World → Except RuntimeError Unit × World
  | [], world => (.ok (), world)
  | statement :: rest, world =>
    match statement.execute world with
    | (.error error, world) => (.error error, world)
    | (.ok (), world) => executeAll rest world

end

end Lox
