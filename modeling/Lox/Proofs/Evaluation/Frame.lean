import Lox.Proofs.Evaluation.Chain
import Lox.Proofs.Evaluation.Writer

/-!
Contract: what an execution leaves of the bindings.

Owns:
- the names that an expression assigns, and those that a program changes or declares;
- the frame between the environments before and after, and that frames follow one another;
- that evaluation and execution stay within their frame, however they end.

Does not own: sessions.
-/

namespace Lox

/-! ## The names in a program -/

/-- Whether the expression assigns the name. -/
def Expr.Assigns (name : String) : Expr → Prop
  | .literal _ | .reference _ => False
  | .grouping inner => inner.Assigns name
  | .unary _ operand => operand.Assigns name
  | .binary left _ right => left.Assigns name ∨ right.Assigns name
  | .assign target value => target.lexeme = name ∨ value.Assigns name

mutual

/-- Whether the statement assigns or declares the name, in a nested block too. -/
def Statement.Changes (name : String) : Statement Expr → Prop
  | .expression tree | .print tree => tree.Assigns name
  | .var declared none => declared.lexeme = name
  | .var declared (some initializer) => declared.lexeme = name ∨ initializer.Assigns name
  | .block body => Program.Changes name body

/-- Whether the program assigns or declares the name, in a nested block too. -/
def Program.Changes (name : String) : List (Statement Expr) → Prop
  | [] => False
  | statement :: rest => statement.Changes name ∨ Program.Changes name rest

end

/-- Whether the statement is a declaration of the name. -/
def Statement.Declares (name : String) : Statement Expr → Prop
  | .var declared _ => declared.lexeme = name
  | _ => False

/-- Whether one of the statements, outside of nested blocks, is a declaration of the name. -/
def Program.Declares (name : String) (program : List (Statement Expr)) : Prop :=
  ∃ statement ∈ program, statement.Declares name

/-! ## Frames -/

namespace Environment

/-- What holds between the bindings before and after an execution that can declare and change the
given names. -/
structure Framed (Declared Changed : String → Prop) (before after : Environment) : Prop where
  depth_eq : after.depth = before.depth
  keepsNames (position : Nat) (name : String) :
    before.HasAt position name → after.HasAt position name
  newNames (position : Nat) (name : String) :
    ¬ before.HasAt position name → after.HasAt position name → position = 0 ∧ Declared name
  changedValues (position : Nat) (name : String) :
    before.HasAt position name → after.valueAt position name ≠ before.valueAt position name →
      Changed name
  shadowed (inner outer : Nat) (name : String) :
    inner < outer → before.HasAt inner name →
      after.valueAt outer name = before.valueAt outer name

namespace Framed

variable {Declared Changed : String → Prop} {before middle after : Environment}

theorem refl (environment : Environment) : Framed Declared Changed environment environment where
  depth_eq := rfl
  keepsNames _ _ held := held
  newNames _ _ notHeld held := absurd held notHeld
  changedValues _ _ _ differs := absurd rfl differs
  shadowed _ _ _ _ _ := rfl

/-- Frames follow one another. -/
theorem trans
    (first : Framed Declared Changed before middle)
    (second : Framed Declared Changed middle after) :
    Framed Declared Changed before after where
  depth_eq := second.depth_eq.trans first.depth_eq
  keepsNames position name held := second.keepsNames _ _ (first.keepsNames _ _ held)
  newNames position name notHeld held := by
    by_cases between : middle.HasAt position name
    · exact first.newNames position name notHeld between
    · exact second.newNames position name between held
  changedValues position name held differs := by
    by_cases kept : middle.valueAt position name = before.valueAt position name
    · rw [← kept] at differs
      exact second.changedValues position name (first.keepsNames _ _ held) differs
    · exact first.changedValues position name held kept
  shadowed inner outer name below held := by
    rw [second.shadowed inner outer name below (first.keepsNames _ _ held),
      first.shadowed inner outer name below held]

theorem mono
    {MoreDeclared MoreChanged : String → Prop}
    (framed : Framed Declared Changed before after)
    (declared : ∀ name, Declared name → MoreDeclared name)
    (changed : ∀ name, Changed name → MoreChanged name) :
    Framed MoreDeclared MoreChanged before after where
  depth_eq := framed.depth_eq
  keepsNames := framed.keepsNames
  newNames position name notHeld held :=
    (framed.newNames position name notHeld held).imp_right (declared name)
  changedValues position name held differs :=
    changed name (framed.changedValues position name held differs)
  shadowed := framed.shadowed

/-- A definition declares and changes its name. -/
theorem define (name : String) (value : Value) (environment : Environment) :
    Framed (name = ·) (name = ·) environment (environment.define name value) where
  depth_eq := rfl
  keepsNames position other held := by
    rw [HasAt, valueAt_define]
    split
    · rfl
    · exact held
  newNames position other notHeld held := by
    rw [HasAt, valueAt_define] at held
    split at held
    · rename_i here
      exact ⟨here.1, here.2.symm⟩
    · exact absurd held notHeld
  changedValues position other _ differs := by
    rw [valueAt_define] at differs
    split at differs
    · rename_i here
      exact here.2.symm
    · exact absurd rfl differs
  shadowed inner outer other below _ := by
    rw [valueAt_define, if_neg (fun here => by omega)]

/-- An assignment changes its name and declares nothing. -/
theorem assign
    {name : String}
    {value : Value}
    (assigned : before.assign name value = .ok after) :
    Framed (fun _ => False) (name = ·) before after := by
  obtain ⟨resolved, resolvedHeld, notInside, values⟩ := valueAt_assign assigned
  constructor
  case depth_eq => exact depth_assign assigned
  case keepsNames =>
    intro position other held
    rw [HasAt, values]
    split
    · rfl
    · exact held
  case newNames =>
    intro position other notHeld held
    rw [HasAt, values] at held
    split at held
    · rename_i here
      obtain ⟨rfl, rfl⟩ := here
      exact absurd resolvedHeld notHeld
    · exact absurd held notHeld
  case changedValues =>
    intro position other _ differs
    rw [values] at differs
    split at differs
    · rename_i here
      exact here.2.symm
    · exact absurd rfl differs
  case shadowed =>
    intro inner outer other below held
    rw [values, if_neg]
    rintro ⟨rfl, rfl⟩
    -- The name would have been found further in.
    rw [HasAt, notInside inner below] at held
    cases held

/-- What happens in a scope that is entered and left again declares nothing outside. -/
theorem leave
    {inside : Environment}
    (framed : Framed Declared Changed before.enter inside) :
    Framed (fun _ => False) Changed before (inside.leave?.getD inside) := by
  have sameDepth : inside.depth = before.depth + 1 := framed.depth_eq
  have deep : 1 < inside.depth := by
    have positive := before.depth_pos
    omega
  constructor
  case depth_eq =>
    have left := depth_left deep
    omega
  case keepsNames =>
    intro position name held
    rw [HasAt, valueAt_left deep]
    exact framed.keepsNames (position + 1) name held
  case newNames =>
    intro position name notHeld held
    rw [HasAt, valueAt_left deep] at held
    -- A new name inside is in the scope that is left.
    exact absurd (framed.newNames (position + 1) name notHeld held).1 (Nat.succ_ne_zero position)
  case changedValues =>
    intro position name held differs
    rw [valueAt_left deep] at differs
    exact framed.changedValues (position + 1) name held differs
  case shadowed =>
    intro inner outer name below held
    rw [valueAt_left deep]
    exact framed.shadowed (inner + 1) (outer + 1) name (Nat.succ_lt_succ below) held

end Framed

end Environment

open Environment

/-! ## Evaluation -/

/-- However the evaluation of an expression ends, it declares nothing and changes only names that
the expression assigns. -/
theorem Expr.evaluate_framed (tree : Expr) (environment : Environment) :
    Framed (fun _ => False) (tree.Assigns ·) environment (tree.evaluate environment).2 := by
  induction tree generalizing environment with
  | literal value => exact .refl environment
  | reference name => exact .refl environment
  | grouping inner inductionHypothesis => exact inductionHypothesis environment
  | unary operator operand inductionHypothesis =>
    have framed := inductionHypothesis environment
    rw [evaluate]
    rcases done : operand.evaluate environment with ⟨_ | value, after⟩
    · rwa [done] at framed
    · rwa [done] at framed
  | binary left operator right leftHypothesis rightHypothesis =>
    have leftFramed : Framed (fun _ => False) (fun name => left.Assigns name ∨ right.Assigns name)
        environment (left.evaluate environment).2 :=
      (leftHypothesis environment).mono (fun _ => id) (fun _ => .inl)
    rw [evaluate]
    rcases leftDone : left.evaluate environment with ⟨_ | leftValue, between⟩
    · rwa [leftDone] at leftFramed
    · rw [leftDone] at leftFramed
      have rightFramed : Framed (fun _ => False)
          (fun name => left.Assigns name ∨ right.Assigns name) between
          (right.evaluate between).2 :=
        (rightHypothesis between).mono (fun _ => id) (fun _ => .inr)
      dsimp only
      rcases rightDone : right.evaluate between with ⟨_ | rightValue, after⟩
      · rw [rightDone] at rightFramed
        exact leftFramed.trans rightFramed
      · rw [rightDone] at rightFramed
        exact leftFramed.trans rightFramed
  | assign target value inductionHypothesis =>
    have valueFramed : Framed (fun _ => False)
        (fun name => target.lexeme = name ∨ value.Assigns name) environment
        (value.evaluate environment).2 :=
      (inductionHypothesis environment).mono (fun _ => id) (fun _ => .inr)
    rw [evaluate]
    rcases done : value.evaluate environment with ⟨_ | result, between⟩
    · rwa [done] at valueFramed
    · rw [done] at valueFramed
      cases assigned : between.assign target.lexeme result with
      | error error =>
        simp only [assigned]
        exact valueFramed
      | ok after =>
        simp only [assigned]
        exact valueFramed.trans ((Framed.assign assigned).mono (fun _ => id) (fun _ => .inl))

/-! ## Execution -/

variable {writer : Writer}

theorem Writer.World.evaluate_framed (tree : Expr) (world : writer.World) :
    Framed (fun _ => False) (tree.Assigns ·) world.environment
      (world.evaluate tree).2.environment :=
  tree.evaluate_framed world.environment

mutual

theorem Statement.executeOn_framed :
    (statement : Statement Expr) → (world : writer.World) →
      Framed (statement.Declares ·) (statement.Changes ·) world.environment
        (statement.executeOn writer world).2.environment
  | .expression tree, world => by
    have framed := world.evaluate_framed tree
    rw [Statement.executeOn]
    rcases done : world.evaluate tree with ⟨_ | value, after⟩
    · rwa [done] at framed
    · rwa [done] at framed
  | .print tree, world => by
    have framed := world.evaluate_framed tree
    rw [Statement.executeOn]
    rcases done : world.evaluate tree with ⟨_ | value, after⟩
    · rwa [done] at framed
    · rwa [done] at framed
  | .var name none, world => .define name.lexeme .nil world.environment
  | .var name (some initializer), world => by
    have framed : Framed (name.lexeme = ·)
        (fun changed => name.lexeme = changed ∨ initializer.Assigns changed) world.environment
        (world.evaluate initializer).2.environment :=
      (world.evaluate_framed initializer).mono (fun _ => False.elim) (fun _ => .inr)
    rw [Statement.executeOn]
    rcases done : world.evaluate initializer with ⟨_ | value, after⟩
    · rwa [done] at framed
    · rw [done] at framed
      exact framed.trans ((Framed.define name.lexeme value after.environment).mono
        (fun _ => id) (fun _ => .inl))
  | .block body, world => by
    have framed := (executeAllOn_framed body world.enter).leave
    exact framed.mono (fun _ => False.elim) (fun _ => id)

/-- However an execution ends, it stays within its frame: of the names that were there before,
none is missing, and only assigned and declared ones have changed; new names are in the innermost
scope and are declared by the statements themselves. -/
theorem executeAllOn_framed :
    (program : List (Statement Expr)) → (world : writer.World) →
      Framed (Program.Declares · program) (Program.Changes · program) world.environment
        (executeAllOn writer program world).2.environment
  | [], world => .refl world.environment
  | statement :: rest, world => by
    have first : Framed (Program.Declares · (statement :: rest))
        (Program.Changes · (statement :: rest)) world.environment
        (statement.executeOn writer world).2.environment :=
      (statement.executeOn_framed world).mono
        (fun _ declares => ⟨statement, List.mem_cons_self, declares⟩) (fun _ => .inl)
    rw [executeAllOn]
    rcases done : statement.executeOn writer world with ⟨_ | _, between⟩
    · rwa [done] at first
    · rw [done] at first
      have others : Framed (Program.Declares · (statement :: rest))
          (Program.Changes · (statement :: rest)) between.environment
          (executeAllOn writer rest between).2.environment :=
        (executeAllOn_framed rest between).mono
          (fun _ ⟨declaration, member, declares⟩ =>
            ⟨declaration, List.mem_cons_of_mem _ member, declares⟩) (fun _ => .inr)
      exact first.trans others

end

end Lox
