import Lox.Proofs.Evaluation.Frame

/-!
Contract: execution in which the global scope is never left.

Owns:
- execution with a check that a scope which is left is not the global one;
- that the check never fails, whatever the program is and however it ends.

Does not own: what execution does to the scopes that stay.
-/

namespace Lox

/-- Leaves the innermost scope of the world; none if that is the global one. -/
def Writer.World.leave? {writer : Writer} (world : writer.World) : Option writer.World :=
  world.environment.leave?.map fun environment => { world with environment := environment }

mutual

/-- Executes a statement as `executeOn` does.  There is no outcome if the global scope would be
left. -/
def Statement.checkedOn (writer : Writer) :
    Statement Expr → writer.World →
      Option (Except (Writer.Stop writer.Fault) Unit × writer.World)
  | .block body, world => do
    let (result, inside) ← checkedAllOn writer body world.enter
    let outside ← inside.leave?
    return (result, outside)
  | .expression tree, world => some ((Statement.expression tree).executeOn writer world)
  | .print tree, world => some ((Statement.print tree).executeOn writer world)
  | .var name initializer, world => some ((Statement.var name initializer).executeOn writer world)

/-- Executes statements in order as `executeAllOn` does, with the check. -/
def checkedAllOn (writer : Writer) :
    List (Statement Expr) → writer.World →
      Option (Except (Writer.Stop writer.Fault) Unit × writer.World)
  | [], world => some (.ok (), world)
  | statement :: rest, world => do
    let (result, world) ← statement.checkedOn writer world
    match result with
    | .error stop => return (.error stop, world)
    | .ok () => checkedAllOn writer rest world

end

section

variable {writer : Writer}

/-- After a body was executed in a scope of its own, that scope is there to be left. -/
theorem leave?_executeAllOn_enter (body : Program) (world : writer.World) :
    (executeAllOn writer body world.enter).2.leave? =
      some (executeAllOn writer body world.enter).2.leave := by
  have sameDepth : (executeAllOn writer body world.enter).2.environment.depth =
      world.environment.depth + 1 :=
    (executeAllOn_framed body world.enter).depth_eq
  have outer := world.environment.depth_pos
  generalize (executeAllOn writer body world.enter).2 = inside at sameDepth ⊢
  have deep : 1 < inside.environment.depth := by omega
  obtain ⟨outside, left, _⟩ := Environment.exists_left deep
  rw [Writer.World.leave?, Writer.World.leave, left]
  rfl

mutual

theorem Statement.checkedOn_eq :
    (statement : Statement Expr) → (world : writer.World) →
      statement.checkedOn writer world = some (statement.executeOn writer world)
  | .block body, world => by
    rw [Statement.checkedOn, checkedAllOn_eq body world.enter, Statement.executeOn]
    have left := leave?_executeAllOn_enter body world
    generalize executeAllOn writer body world.enter = done at left ⊢
    exact congrArg (fun outside => outside.bind fun outside => some (done.1, outside)) left
  | .expression _, world => by rw [Statement.checkedOn]
  | .print _, world => by rw [Statement.checkedOn]
  | .var _ _, world => by rw [Statement.checkedOn]

/-- Execution with the check is execution, and the check never fails. -/
theorem checkedAllOn_eq :
    (program : List (Statement Expr)) → (world : writer.World) →
      checkedAllOn writer program world = some (executeAllOn writer program world)
  | [], world => by rw [checkedAllOn, executeAllOn]
  | statement :: rest, world => by
    rw [checkedAllOn, statement.checkedOn_eq world, executeAllOn]
    rcases statement.executeOn writer world with ⟨_ | _, after⟩
    · rfl
    · exact checkedAllOn_eq rest after

end

end

end Lox
