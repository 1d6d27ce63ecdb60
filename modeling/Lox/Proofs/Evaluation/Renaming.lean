import Lox.Proofs.Evaluation.Frame

/-!
Contract: renaming a variable of a block.

Owns:
- expressions and statements with one name in place of another, and the names that they mention;
- chains of scopes that differ in the name of one declared variable;
- that execution on such chains has the same result and the same output;
- that a program does the same after a variable of one of its blocks is renamed.

Does not own: which names are free to be used.
-/

namespace Lox

/-! ## Renaming -/

section Rename

variable (old new : String)

/-- The name that stands in place of the name. -/
def renamed (name : String) : String :=
  if name = old then new else name

/-- The name as it is written after the renaming. -/
def Name.rename (name : Name) : Name :=
  { name with lexeme := renamed old new name.lexeme }

/-- The expression with the new name in place of the old one. -/
def Expr.rename : Expr → Expr
  | .literal value => .literal value
  | .reference name => .reference (name.rename old new)
  | .grouping inner => .grouping inner.rename
  | .unary operator operand => .unary operator operand.rename
  | .binary left operator right => .binary left.rename operator right.rename
  | .assign name value => .assign (name.rename old new) value.rename

mutual

/-- The statement with the new name in place of the old one, in declarations and in nested blocks
too. -/
def Statement.rename : Statement Expr → Statement Expr
  | .expression tree => .expression (tree.rename old new)
  | .print tree => .print (tree.rename old new)
  | .var name none => .var (name.rename old new) none
  | .var name (some initializer) =>
    .var (name.rename old new) (some (initializer.rename old new))
  | .block body => .block (Program.rename body)

/-- The program with the new name in place of the old one. -/
def Program.rename : List (Statement Expr) → List (Statement Expr)
  | [] => []
  | statement :: rest => statement.rename :: Program.rename rest

end

end Rename

/-- Whether the name occurs in the expression. -/
def Expr.Mentions (name : String) : Expr → Prop
  | .literal _ => False
  | .reference target => target.lexeme = name
  | .grouping inner => inner.Mentions name
  | .unary _ operand => operand.Mentions name
  | .binary left _ right => left.Mentions name ∨ right.Mentions name
  | .assign target value => target.lexeme = name ∨ value.Mentions name

mutual

/-- Whether the name occurs in the statement. -/
def Statement.Mentions (name : String) : Statement Expr → Prop
  | .expression tree | .print tree => tree.Mentions name
  | .var declared none => declared.lexeme = name
  | .var declared (some initializer) => declared.lexeme = name ∨ initializer.Mentions name
  | .block body => Program.Mentions name body

/-- Whether the name occurs in the program. -/
def Program.Mentions (name : String) : List (Statement Expr) → Prop
  | [] => False
  | statement :: rest => statement.Mentions name ∨ Program.Mentions name rest

end

/-! ## Chains that differ in one name -/

/-- The scope with the new name gives it the value of the old one, and every other name the value
that it had.  What the first scope says of the new name does not matter. -/
def Scope.Renamed (old new : String) (scope other : Scope) : Prop :=
  ∀ name, name ≠ new → other.find? (renamed old new name) = scope.find? name

/-- The chains of a program and of the renamed one, where the old name is declared in a scope with
the given number of scopes inside of it.  The scopes around that one are the same. -/
inductive ChainRenamed (old new : String) : Nat → List Scope → List Scope → Prop where
  | declared {scope other : Scope} {outer : List Scope} :
    scope.Renamed old new other → (scope.find? old).isSome = true →
      ChainRenamed old new 0 (scope :: outer) (other :: outer)
  | inside {scope other : Scope} {depth : Nat} {scopes others : List Scope} :
    scope.Renamed old new other → ChainRenamed old new depth scopes others →
      ChainRenamed old new (depth + 1) (scope :: scopes) (other :: others)

variable {old new name : String} {value : Value}

theorem renamed_of_ne (differs : name ≠ old) : renamed old new name = name :=
  if_neg differs

theorem renamed_eq_renamed_iff
    {other : String}
    (nameDiffers : name ≠ new)
    (otherDiffers : other ≠ new) :
    renamed old new name = renamed old new other ↔ name = other := by
  unfold renamed
  split <;> split <;> grind

/-- Binding a name takes no other name away. -/
theorem Scope.isSome_find?_insert
    {scope : Scope}
    (value : Value)
    (holds : (scope.find? old).isSome = true) :
    ((scope.insert name value).find? old).isSome = true := by
  rw [find?_insert]
  split
  · rfl
  · exact holds

namespace Scope.Renamed

variable {scope other : Scope}

theorem empty : Scope.Renamed old new {} {} := fun _ _ => rfl

/-- Declaring the variable under either name. -/
theorem declare (value : Value) (scope : Scope) :
    (scope.insert old value).Renamed old new (scope.insert new value) := by
  intro name differs
  rw [find?_insert, find?_insert]
  by_cases same : name = old
  · subst same
    simp [renamed]
  · simp [renamed_of_ne same, same, differs]

theorem insert
    (scopes : scope.Renamed old new other)
    (value : Value)
    (differs : name ≠ new) :
    (scope.insert name value).Renamed old new (other.insert (renamed old new name) value) := by
  intro asked askedDiffers
  rw [find?_insert, find?_insert, scopes asked askedDiffers]
  simp only [renamed_eq_renamed_iff askedDiffers differs]

theorem contains_eq (scopes : scope.Renamed old new other) (differs : name ≠ new) :
    other.contains (renamed old new name) = scope.contains name := by
  rw [Scope.contains, Scope.contains, scopes name differs]

end Scope.Renamed

namespace ChainRenamed

variable {depth : Nat} {scopes others : List Scope}

/-- The old name has a value. -/
theorem isSome_findSome? (chains : ChainRenamed old new depth scopes others) :
    (scopes.findSome? (Scope.find? old)).isSome = true := by
  apply List.findSome?_isSome_iff.2
  induction chains with
  | declared _ holds => exact ⟨_, List.mem_cons_self, holds⟩
  | inside _ _ inductionHypothesis =>
    obtain ⟨scope, member, holds⟩ := inductionHypothesis
    exact ⟨scope, List.mem_cons_of_mem _ member, holds⟩

/-- Every name but the new one has the same value in both chains. -/
theorem findSome?_eq
    (chains : ChainRenamed old new depth scopes others)
    (differs : name ≠ new) :
    others.findSome? (Scope.find? (renamed old new name)) =
      scopes.findSome? (Scope.find? name) := by
  induction chains with
  | @declared scope other outer related holds =>
    rw [List.findSome?_cons, List.findSome?_cons, related name differs]
    by_cases same : name = old
    · subst same
      obtain ⟨value, found⟩ := Option.isSome_iff_exists.1 holds
      rw [found]
    · rw [renamed_of_ne same]
  | inside related _ inductionHypothesis =>
    rw [List.findSome?_cons, List.findSome?_cons, related name differs, inductionHypothesis]

/-- An assignment changes both chains or neither. -/
theorem assignIn
    (chains : ChainRenamed old new depth scopes others)
    (value : Value)
    (differs : name ≠ new) :
    match Environment.assignIn name value scopes with
    | none => name ≠ old ∧ Environment.assignIn (renamed old new name) value others = none
    | some changed => ∃ otherChanged,
      Environment.assignIn (renamed old new name) value others = some otherChanged ∧
        ChainRenamed old new depth changed otherChanged := by
  induction chains with
  | @declared scope other outer related holds =>
    rw [Environment.assignIn, Environment.assignIn, related.contains_eq differs]
    by_cases here : scope.contains name = true
    · simp only [here, if_true]
      exact ⟨_, rfl, .declared (related.insert value differs) 
        (Scope.isSome_find?_insert value holds)⟩
    · -- The old name would be found here, and the scopes around this one are the same.
      have notOld : name ≠ old := fun same => here (same ▸ holds)
      simp only [here, renamed_of_ne notOld]
      cases Environment.assignIn name value outer with
      | none => exact ⟨notOld, rfl⟩
      | some changed => exact ⟨_, rfl, .declared related holds⟩
  | @inside scope other depth scopes others related chains inductionHypothesis =>
    rw [Environment.assignIn, Environment.assignIn, related.contains_eq differs]
    by_cases here : scope.contains name = true
    · simp only [here, if_true]
      exact ⟨_, rfl, .inside (related.insert value differs) chains⟩
    · simp only [here]
      cases found : Environment.assignIn name value scopes with
      | none =>
        rw [found] at inductionHypothesis
        obtain ⟨notOld, notFound⟩ := inductionHypothesis
        rw [notFound]
        exact ⟨notOld, rfl⟩
      | some changed =>
        rw [found] at inductionHypothesis
        obtain ⟨otherChanged, otherFound, chains⟩ := inductionHypothesis
        rw [otherFound]
        exact ⟨_, rfl, .inside related chains⟩

end ChainRenamed

/-! ## Environments -/

/-- The environments of a program and of the renamed one, inside of the block whose variable is
renamed. -/
def Environment.Renamed (old new : String) (depth : Nat) (environment other : Environment) : Prop :=
  ChainRenamed old new depth environment.scopes other.scopes

namespace Environment.Renamed

variable {depth : Nat} {environment other : Environment}

theorem declare (value : Value) (environment : Environment) :
    Environment.Renamed old new 0 (environment.define old value)
      (environment.define new value) := by
  have holds : ((environment.innermost.insert old value).find? old).isSome = true := by
    rw [Scope.find?_insert, if_pos rfl]
    rfl
  exact .declared (Scope.Renamed.declare value environment.innermost) holds

theorem get_eq (related : environment.Renamed old new depth other) (differs : name ≠ new) :
    other.get (renamed old new name) = environment.get name := by
  rw [get, get, related.findSome?_eq differs]
  cases found : environment.scopes.findSome? (Scope.find? name) with
  | some value => rfl
  | none =>
    -- The old name always has a value, so that the error is about a name that is not renamed.
    have notOld : name ≠ old := by
      rintro rfl
      have holds := related.isSome_findSome?
      rw [found] at holds
      cases holds
    rw [renamed_of_ne notOld]

theorem define
    (related : environment.Renamed old new depth other)
    (value : Value)
    (differs : name ≠ new) :
    (environment.define name value).Renamed old new depth
      (other.define (renamed old new name) value) := by
  obtain ⟨innermost, enclosing⟩ := environment
  obtain ⟨otherInnermost, otherEnclosing⟩ := other
  cases related with
  | declared scopes holds =>
    exact .declared (scopes.insert value differs) (Scope.isSome_find?_insert value holds)
  | inside scopes chains => exact .inside (scopes.insert value differs) chains

theorem assign
    (related : environment.Renamed old new depth other)
    (value : Value)
    (differs : name ≠ new) :
    (∃ error, environment.assign name value = .error error ∧
      other.assign (renamed old new name) value = .error error) ∨
    ∃ changed otherChanged, environment.assign name value = .ok changed ∧
      other.assign (renamed old new name) value = .ok otherChanged ∧
        changed.Renamed old new depth otherChanged := by
  have outcome := ChainRenamed.assignIn related value differs
  cases assigned : environment.assign name value with
  | error error =>
    obtain ⟨notFound, rfl⟩ := assign_eq_error_iff.1 assigned
    rw [notFound] at outcome
    refine .inl ⟨_, rfl, assign_eq_error_iff.2 ⟨outcome.2, ?_⟩⟩
    rw [renamed_of_ne outcome.1]
  | ok changed =>
    rw [assign_eq_ok_iff.1 assigned] at outcome
    obtain ⟨otherScopes, otherFound, chains⟩ := outcome
    cases otherScopes with
    | nil => cases chains
    | cons scope enclosing =>
      exact .inr ⟨changed, ⟨scope, enclosing⟩, rfl, assign_eq_ok_iff.2 otherFound, chains⟩

theorem enter (related : environment.Renamed old new depth other) :
    environment.enter.Renamed old new (depth + 1) other.enter :=
  .inside .empty related

theorem leave (related : environment.Renamed old new (depth + 1) other) :
    Environment.Renamed old new depth (environment.leave?.getD environment)
      (other.leave?.getD other) := by
  obtain ⟨innermost, enclosing⟩ := environment
  obtain ⟨otherInnermost, otherEnclosing⟩ := other
  cases related with
  | inside _ chains =>
    cases chains with
    | declared scopes holds => exact .declared scopes holds
    | inside scopes chains => exact .inside scopes chains

/-- Without the scope of the renamed variable both environments are the same. -/
theorem leave_eq (related : environment.Renamed old new 0 other) (deep : 1 < environment.depth) :
    other.leave?.getD other = environment.leave?.getD environment := by
  obtain ⟨innermost, enclosing⟩ := environment
  obtain ⟨otherInnermost, otherEnclosing⟩ := other
  cases related with
  | declared _ _ =>
    cases enclosing with
    | nil => exact absurd deep (Nat.lt_irrefl 1)
    | cons scope enclosing => rfl

end Environment.Renamed

/-! ## Evaluation -/

/-- The renamed expression has the same result, and leaves the environments related. -/
theorem Expr.evaluate_rename
    (tree : Expr)
    {depth : Nat}
    {environment other : Environment}
    (fresh : ¬ tree.Mentions new)
    (related : environment.Renamed old new depth other) :
    ∃ result after otherAfter, tree.evaluate environment = (result, after) ∧
      (tree.rename old new).evaluate other = (result, otherAfter) ∧
        after.Renamed old new depth otherAfter := by
  induction tree generalizing environment other with
  | literal value => exact ⟨_, environment, other, rfl, rfl, related⟩
  | reference name =>
    have differs : name.lexeme ≠ new := fresh
    refine ⟨_, environment, other, rfl, ?_, related⟩
    rw [rename, evaluate, Name.rename, related.get_eq differs]
  | grouping inner inductionHypothesis => exact inductionHypothesis fresh related
  | unary operator operand inductionHypothesis =>
    obtain ⟨result, after, otherAfter, done, otherDone, related⟩ :=
      inductionHypothesis fresh related
    rw [rename, evaluate, evaluate, done, otherDone]
    cases result with
    | error error => exact ⟨_, after, otherAfter, rfl, rfl, related⟩
    | ok value => exact ⟨_, after, otherAfter, rfl, rfl, related⟩
  | binary left operator right leftHypothesis rightHypothesis =>
    have leftFresh : ¬ left.Mentions new := fun mentions => fresh (.inl mentions)
    have rightFresh : ¬ right.Mentions new := fun mentions => fresh (.inr mentions)
    obtain ⟨leftResult, between, otherBetween, done, otherDone, related⟩ :=
      leftHypothesis leftFresh related
    rw [rename, evaluate, evaluate, done, otherDone]
    cases leftResult with
    | error error => exact ⟨_, between, otherBetween, rfl, rfl, related⟩
    | ok leftValue =>
      obtain ⟨rightResult, after, otherAfter, done, otherDone, related⟩ :=
        rightHypothesis rightFresh related
      dsimp only
      rw [done, otherDone]
      cases rightResult with
      | error error => exact ⟨_, after, otherAfter, rfl, rfl, related⟩
      | ok rightValue => exact ⟨_, after, otherAfter, rfl, rfl, related⟩
  | assign name value inductionHypothesis =>
    have differs : name.lexeme ≠ new := fun same => fresh (.inl same)
    have valueFresh : ¬ value.Mentions new := fun mentions => fresh (.inr mentions)
    obtain ⟨result, between, otherBetween, done, otherDone, related⟩ :=
      inductionHypothesis valueFresh related
    rw [rename, evaluate, evaluate, done, otherDone]
    cases result with
    | error error => exact ⟨_, between, otherBetween, rfl, rfl, related⟩
    | ok found =>
      dsimp only [Name.rename]
      obtain ⟨error, failed, otherFailed⟩ |
          ⟨after, otherAfter, assigned, otherAssigned, related⟩ :=
        related.assign found differs
      · rw [failed, otherFailed]
        exact ⟨_, between, otherBetween, rfl, rfl, related⟩
      · rw [assigned, otherAssigned]
        exact ⟨_, after, otherAfter, rfl, rfl, related⟩

/-! ## Execution -/

variable {writer : Writer}

/-- The worlds of a program and of the renamed one, with the same output. -/
structure Writer.World.Renamed (old new : String) (depth : Nat) (world other : writer.World) :
    Prop where
  environments : world.environment.Renamed old new depth other.environment
  output_eq : other.output = world.output

/-- The same result in related worlds. -/
def RenamedOutcome {Result : Type}
    (old new : String)
    (depth : Nat)
    (outcome other : Except (Writer.Stop writer.Fault) Result × writer.World) : Prop :=
  ∃ result after otherAfter, outcome = (result, after) ∧ other = (result, otherAfter) ∧
    after.Renamed old new depth otherAfter

namespace Writer.World.Renamed

variable {depth : Nat} {world other : writer.World}

theorem evaluate
    (tree : Expr)
    (fresh : ¬ tree.Mentions new)
    (related : world.Renamed old new depth other) :
    RenamedOutcome old new depth (world.evaluate tree)
      (other.evaluate (tree.rename old new)) := by
  obtain ⟨result, after, otherAfter, done, otherDone, environments⟩ :=
    tree.evaluate_rename fresh related.environments
  rw [Writer.World.evaluate, Writer.World.evaluate, done, otherDone]
  exact ⟨_, _, _, rfl, rfl, environments, related.output_eq⟩

theorem print (value : Value) (related : world.Renamed old new depth other) :
    RenamedOutcome old new depth (world.print value) (other.print value) := by
  rw [Writer.World.print, Writer.World.print, related.output_eq]
  exact ⟨_, _, _, rfl, rfl, related.environments, rfl⟩

theorem define
    (name : Name)
    (value : Value)
    (differs : name.lexeme ≠ new)
    (related : world.Renamed old new depth other) :
    (world.define name value).Renamed old new depth (other.define (name.rename old new) value) :=
  ⟨related.environments.define value differs, related.output_eq⟩

theorem enter (related : world.Renamed old new depth other) :
    world.enter.Renamed old new (depth + 1) other.enter :=
  ⟨related.environments.enter, related.output_eq⟩

theorem leave (related : world.Renamed old new (depth + 1) other) :
    world.leave.Renamed old new depth other.leave :=
  ⟨related.environments.leave, related.output_eq⟩

/-- Without the scope of the renamed variable both worlds are the same. -/
theorem leave_eq (related : world.Renamed old new 0 other) (deep : 1 < world.environment.depth) :
    other.leave = world.leave := by
  rw [Writer.World.leave, Writer.World.leave, related.environments.leave_eq deep,
    related.output_eq]

end Writer.World.Renamed

mutual

theorem Statement.executeOn_rename :
    (statement : Statement Expr) → {depth : Nat} → {world other : writer.World} →
      ¬ statement.Mentions new → world.Renamed old new depth other →
        RenamedOutcome old new depth (statement.executeOn writer world)
          ((statement.rename old new).executeOn writer other)
  | .expression tree, depth, world, other, fresh, related => by
    obtain ⟨result, after, otherAfter, done, otherDone, related⟩ := related.evaluate tree fresh
    rw [Statement.rename, Statement.executeOn, Statement.executeOn, done, otherDone]
    cases result with
    | error stop => exact ⟨_, after, otherAfter, rfl, rfl, related⟩
    | ok value => exact ⟨_, after, otherAfter, rfl, rfl, related⟩
  | .print tree, depth, world, other, fresh, related => by
    obtain ⟨result, after, otherAfter, done, otherDone, related⟩ := related.evaluate tree fresh
    rw [Statement.rename, Statement.executeOn, Statement.executeOn, done, otherDone]
    cases result with
    | error stop => exact ⟨_, after, otherAfter, rfl, rfl, related⟩
    | ok value => exact related.print value
  | .var name none, depth, world, other, fresh, related =>
    ⟨_, _, _, rfl, rfl, related.define name .nil fresh⟩
  | .var name (some initializer), depth, world, other, fresh, related => by
    have differs : name.lexeme ≠ new := fun same => fresh (.inl same)
    have initializerFresh : ¬ initializer.Mentions new := fun mentions => fresh (.inr mentions)
    obtain ⟨result, after, otherAfter, done, otherDone, related⟩ :=
      related.evaluate initializer initializerFresh
    rw [Statement.rename, Statement.executeOn, Statement.executeOn, done, otherDone]
    cases result with
    | error stop => exact ⟨_, after, otherAfter, rfl, rfl, related⟩
    | ok value => exact ⟨_, _, _, rfl, rfl, related.define name value differs⟩
  | .block body, depth, world, other, fresh, related => by
    obtain ⟨result, after, otherAfter, done, otherDone, related⟩ :=
      executeAllOn_rename body fresh related.enter
    rw [Statement.rename, Statement.executeOn, Statement.executeOn, done, otherDone]
    exact ⟨_, _, _, rfl, rfl, related.leave⟩

/-- The renamed program has the same result as the program, however they end, and leaves the worlds
related. -/
theorem executeAllOn_rename :
    (program : List (Statement Expr)) → {depth : Nat} → {world other : writer.World} →
      ¬ Program.Mentions new program → world.Renamed old new depth other →
        RenamedOutcome old new depth (executeAllOn writer program world)
          (executeAllOn writer (Program.rename old new program) other)
  | [], depth, world, other, _, related => ⟨_, _, _, rfl, rfl, related⟩
  | statement :: rest, depth, world, other, fresh, related => by
    have statementFresh : ¬ statement.Mentions new := fun mentions => fresh (.inl mentions)
    have restFresh : ¬ Program.Mentions new rest := fun mentions => fresh (.inr mentions)
    obtain ⟨result, after, otherAfter, done, otherDone, related⟩ :=
      statement.executeOn_rename statementFresh related
    rw [Program.rename, executeAllOn, executeAllOn, done, otherDone]
    cases result with
    | error stop => exact ⟨_, after, otherAfter, rfl, rfl, related⟩
    | ok => exact executeAllOn_rename rest restFresh related

end

/-! ## A variable of a block -/

/-- A program, and the program in which one declaration of a block declares the new name instead of
the old one.  The statements behind that declaration have the new name for the old one.  The
statements in front of it and its initial value are the same, also where they use the old name. -/
inductive LocalRenamed (old new : String) : Program → Program → Prop where
  | here (front before after back : Program) (line : Nat) (initializer : Option Expr) :
    LocalRenamed old new
      (front ++ .block (before ++ .var ⟨old, line⟩ initializer :: after) :: back)
      (front ++ .block (before ++ .var ⟨new, line⟩ initializer ::
        Program.rename old new after) :: back)
  | inside {body other : Program} (front back : Program) :
    LocalRenamed old new body other →
      LocalRenamed old new (front ++ .block body :: back) (front ++ .block other :: back)

theorem Program.mentions_append {first second : Program} :
    Program.Mentions name (first ++ second) ↔
      Program.Mentions name first ∨ Program.Mentions name second := by
  induction first with
  | nil => simp [Program.Mentions]
  | cons statement rest inductionHypothesis =>
    rw [List.cons_append, Program.Mentions, inductionHypothesis, Program.Mentions, or_assoc]

/-- From the declaration on, the result is the same, and so is the world after the scope of the
declaration. -/
private theorem declaration_renamed
    {world : writer.World}
    (old : String)
    (after : Program)
    (line : Nat)
    (initializer : Option Expr)
    (fresh : ¬ Program.Mentions new after)
    (deep : 1 < world.environment.depth) :
    ∃ result reached otherReached,
      executeAllOn writer (.var ⟨old, line⟩ initializer :: after) world = (result, reached) ∧
      executeAllOn writer (.var ⟨new, line⟩ initializer :: Program.rename old new after) world =
        (result, otherReached) ∧
      otherReached.leave = reached.leave := by
  -- Either way the variable gets its value in the scope that the execution is in.
  have declared (value : Value) (start : writer.World) (deep : 1 < start.environment.depth) :
      ∃ result reached otherReached,
        executeAllOn writer after (start.define ⟨old, line⟩ value) = (result, reached) ∧
        executeAllOn writer (Program.rename old new after) (start.define ⟨new, line⟩ value) =
          (result, otherReached) ∧
        otherReached.leave = reached.leave := by
    have related : (start.define ⟨old, line⟩ value).Renamed old new 0
        (start.define ⟨new, line⟩ value) :=
      ⟨.declare value start.environment, rfl⟩
    obtain ⟨result, reached, otherReached, done, otherDone, related⟩ :=
      executeAllOn_rename after fresh related
    have framed := executeAllOn_framed after (start.define ⟨old, line⟩ value)
    rw [done] at framed
    have sameDepth : reached.environment.depth = start.environment.depth := framed.depth_eq
    exact ⟨result, reached, otherReached, done, otherDone, related.leave_eq (sameDepth ▸ deep)⟩
  cases initializer with
  | none => exact declared .nil world deep
  | some initializer =>
    simp only [executeAllOn, Statement.executeOn]
    have framed := world.evaluate_framed initializer
    rcases evaluated : world.evaluate initializer with ⟨stop | value, between⟩
    · exact ⟨_, between, between, rfl, rfl, rfl⟩
    · rw [evaluated] at framed
      exact declared value between (framed.depth_eq ▸ deep)

private theorem block_renamed
    (before after : Program)
    (line : Nat)
    (initializer : Option Expr)
    (fresh : ¬ Program.Mentions new after)
    (world : writer.World) :
    (Statement.block (before ++ .var ⟨new, line⟩ initializer ::
        Program.rename old new after)).executeOn writer world =
      (Statement.block (before ++ .var ⟨old, line⟩ initializer :: after)).executeOn writer
        world := by
  rw [Statement.executeOn, Statement.executeOn, executeAllOn_append, executeAllOn_append]
  have framed := executeAllOn_framed before world.enter
  rcases done : executeAllOn writer before world.enter with ⟨stop | _, between⟩
  · rfl
  · rw [done] at framed
    have deep : 1 < between.environment.depth := by
      have sameDepth : between.environment.depth = world.environment.depth + 1 := framed.depth_eq
      have positive := world.environment.depth_pos
      omega
    obtain ⟨result, reached, otherReached, finished, otherFinished, sameLeft⟩ :=
      declaration_renamed old after line initializer fresh deep
    dsimp only
    rw [finished, otherFinished]
    dsimp only
    rw [sameLeft]

theorem executeAllOn_localRenamed
    {program other : Program}
    (localRenamed : LocalRenamed old new program other)
    (fresh : ¬ Program.Mentions new program)
    (world : writer.World) :
    executeAllOn writer other world = executeAllOn writer program world := by
  induction localRenamed generalizing world with
  | here front before after back line initializer =>
    have afterFresh : ¬ Program.Mentions new after := fun mentions =>
      fresh (Program.mentions_append.2 (.inr (.inl (Program.mentions_append.2
        (.inr (.inr mentions))))))
    apply executeAllOn_congr
    exact block_renamed before after line initializer afterFresh
  | inside front back _ inductionHypothesis =>
    have bodyFresh := fun mentions =>
      fresh (Program.mentions_append.2 (.inr (.inl mentions)))
    apply executeAllOn_congr
    intro start
    rw [Statement.executeOn, Statement.executeOn, inductionHypothesis bodyFresh]

/-- After a variable of a block is renamed, a program has the same result, the same output and the
same bindings, whatever they are at the start, on every writer.  The old name may be declared in
front of the declaration too. -/
theorem block_variable_renamed
    {old new : String}
    {program other : Program}
    (localRenamed : LocalRenamed old new program other)
    (fresh : ¬ Program.Mentions new program) :
    (∀ (writer : Writer) (world : writer.World),
      executeAllOn writer other world = executeAllOn writer program world) ∧
    ∀ world : World, executeAll other world = executeAll program world := by
  refine ⟨fun writer => executeAllOn_localRenamed localRenamed fresh, fun world => ?_⟩
  have done : executeAll program world = _ :=
    executeAll_world program ⟨world.environment, world.sink⟩
  have otherDone : executeAll other world = _ :=
    executeAll_world other ⟨world.environment, world.sink⟩
  rw [done, otherDone, executeAllOn_localRenamed localRenamed fresh]

/-- A block whose variable is declared with the value of `a` and declared again further inside. -/
def shadowing (name : String) : Program :=
  [.block
    [.print (.reference ⟨"a", 2⟩),
      .var ⟨name, 3⟩ (some (.binary (.reference ⟨"a", 3⟩) .add (.literal (.string " inner")))),
      .print (.reference ⟨name, 4⟩),
      .block
        [.expression (.assign ⟨name, 6⟩ (.literal (.string "changed"))),
          .var ⟨name, 7⟩ none,
          .print (.reference ⟨name, 8⟩)],
      .print (.reference ⟨name, 10⟩)],
    .print (.reference ⟨"a", 12⟩)]

theorem block_variable_renamed_shadowing :
    LocalRenamed "a" "b" (shadowing "a") (shadowing "b") ∧
      ¬ Program.Mentions "b" (shadowing "a") ∧
      (∀ (writer : Writer) (world : writer.World),
        executeAllOn writer (shadowing "b") world = executeAllOn writer (shadowing "a") world) ∧
      ∀ world : World, executeAll (shadowing "b") world = executeAll (shadowing "a") world := by
  have localRenamed : LocalRenamed "a" "b" (shadowing "a") (shadowing "b") :=
    .here [] [.print (.reference ⟨"a", 2⟩)] _ _ 3 _
  have fresh : ¬ Program.Mentions "b" (shadowing "a") := by
    simp [shadowing, Program.Mentions, Statement.Mentions, Expr.Mentions]
  exact ⟨localRenamed, fresh, block_variable_renamed localRenamed fresh⟩

end Lox
