import Lox.Proofs.Evaluation.Chain
import Lox.Proofs.Evaluation.Order
import Mathlib.Data.Finset.Dedup
import Mathlib.Data.Finset.Insert

/-!
Contract: static scoping.

Owns:
- the names that scopes bind, as a chain of sets;
- the reading of a program on such a chain, without executing it;
- that this reading decides whether, where and with which name a variable is found undefined.

Does not own: errors of operators and of the output.
-/

namespace Lox

/-! ## Name sets -/

/-- The names that the scope binds. -/
def Scope.names (scope : Scope) : Finset String :=
  (scope.bindings.map Prod.fst).toFinset

theorem mem_names {scope : Scope} {name : String} :
    name ∈ scope.names ↔ (scope.find? name).isSome = true := by
  rw [Scope.names, Scope.find?, List.mem_toFinset, List.mem_map, List.lookup_isSome_iff]
  apply exists_congr
  intro binding
  rw [beq_iff_eq, eq_comm]

theorem names_insert (name : String) (value : Value) (scope : Scope) :
    (scope.insert name value).names = insert name scope.names := by
  apply Finset.ext
  intro other
  rw [mem_names, Scope.find?_insert, Finset.mem_insert, mem_names]
  split
  · simp [*]
  · simp [*]

/-- Whether one of the sets has the name. -/
def Resolves (name : String) (sets : List (Finset String)) : Prop :=
  ∃ set ∈ sets, name ∈ set

instance (name : String) (sets : List (Finset String)) : Decidable (Resolves name sets) :=
  inferInstanceAs (Decidable (∃ set ∈ sets, name ∈ set))

theorem resolves_cons {name : String} {innermost : Finset String} {sets : List (Finset String)} :
    Resolves name (innermost :: sets) ↔ name ∈ innermost ∨ Resolves name sets :=
  List.exists_mem_cons_iff _ _ _

namespace Environment

/-- The names of each scope, from the inside out. -/
def nameSets (environment : Environment) : List (Finset String) :=
  environment.scopes.map Scope.names

variable {environment changed : Environment} {name : String} {value : Value}

/-- A name has a value if a scope binds it. -/
theorem exists_get_of_resolves (resolves : Resolves name environment.nameSets) :
    ∃ value, environment.get name = .ok value := by
  obtain ⟨_, inSets, inSet⟩ := resolves
  obtain ⟨scope, inScopes, rfl⟩ := List.mem_map.1 inSets
  have found : (environment.scopes.findSome? (Scope.find? name)).isSome = true :=
    List.findSome?_isSome_iff.2 ⟨scope, inScopes, mem_names.1 inSet⟩
  obtain ⟨value, found⟩ := Option.isSome_iff_exists.1 found
  refine ⟨value, ?_⟩
  rw [get, found]

theorem get_of_not_resolves (unresolved : ¬ Resolves name environment.nameSets) :
    environment.get name = .error (.undefinedVariable name) := by
  have notFound : environment.scopes.findSome? (Scope.find? name) = none := by
    refine List.findSome?_eq_none_iff.2 fun scope inScopes => ?_
    apply Option.not_isSome_iff_eq_none.1
    intro found
    exact unresolved ⟨scope.names, List.mem_map_of_mem inScopes, mem_names.2 found⟩
  rw [get, notFound]

private theorem isSome_assignIn {scopes : List Scope} :
    (assignIn name value scopes).isSome = true ↔ Resolves name (scopes.map Scope.names) := by
  induction scopes with
  | nil => simp [assignIn, Resolves]
  | cons scope enclosing inductionHypothesis =>
    rw [List.map_cons, resolves_cons, mem_names, assignIn, Scope.contains]
    split
    · simp [*]
    · rw [Option.isSome_map, inductionHypothesis]
      simp [*]

private theorem map_names_assignIn
    {scopes assigned : List Scope}
    (found : assignIn name value scopes = some assigned) :
    assigned.map Scope.names = scopes.map Scope.names := by
  induction scopes generalizing assigned with
  | nil => cases found
  | cons scope enclosing inductionHypothesis =>
    rw [assignIn] at found
    split at found
    · rename_i here
      cases found
      rw [List.map_cons, names_insert, Finset.insert_eq_of_mem (mem_names.2 here), List.map_cons]
    · obtain ⟨rest, deeper, rfl⟩ := Option.map_eq_some_iff.1 found
      rw [List.map_cons, List.map_cons, inductionHypothesis deeper]

/-- A name is assigned if a scope binds it, and no scope has other names than before. -/
theorem exists_assign_of_resolves (value : Value) (resolves : Resolves name environment.nameSets) :
    ∃ changed, environment.assign name value = .ok changed ∧
      changed.nameSets = environment.nameSets := by
  cases assigned : environment.assign name value with
  | ok changed =>
    refine ⟨changed, rfl, ?_⟩
    exact map_names_assignIn (assign_eq_ok_iff.1 assigned)
  | error error =>
    have found : (assignIn name value environment.scopes).isSome = true :=
      isSome_assignIn.2 resolves
    rw [(assign_eq_error_iff.1 assigned).1] at found
    cases found

theorem assign_of_not_resolves
    (value : Value)
    (unresolved : ¬ Resolves name environment.nameSets) :
    environment.assign name value = .error (.undefinedVariable name) := by
  refine assign_eq_error_iff.2 ⟨?_, rfl⟩
  apply Option.not_isSome_iff_eq_none.1
  intro found
  exact unresolved (isSome_assignIn.1 found)

/-- A definition adds its name to the innermost set. -/
theorem nameSets_define (name : String) (value : Value) (environment : Environment) :
    (environment.define name value).nameSets = environment.nameSets.modifyHead (insert name) := by
  change (environment.innermost.insert name value).names :: _ = _
  rw [names_insert]
  rfl

end Environment

/-- The sets without the innermost one.  The outermost one stays. -/
def withoutInnermost : List (Finset String) → List (Finset String)
  | _ :: outer :: enclosing => outer :: enclosing
  | sets => sets

namespace Environment

theorem nameSets_left (environment : Environment) :
    (environment.leave?.getD environment).nameSets = withoutInnermost environment.nameSets := by
  obtain ⟨innermost, enclosing⟩ := environment
  cases enclosing with
  | nil => rfl
  | cons scope enclosing => rfl

end Environment

/-! ## Reading a program -/

/-- Reads an action on the name sets, without performing it.  A name that is read or assigned must
be in one of them. -/
def Action.resolve : Action → List (Finset String) → Except String (List (Finset String))
  | .read name, sets | .assign name, sets =>
    if Resolves name.lexeme sets then .ok sets else .error name.lexeme
  | .define name, sets => .ok (sets.modifyHead (insert name.lexeme))
  | .enter, sets => .ok (∅ :: sets)
  | .leave, sets => .ok (withoutInnermost sets)
  | .literal _, sets | .unary _, sets | .binary _, sets | .discard, sets | .print, sets => .ok sets

/-- Every name of the program is in one of the sets where the order of evaluation reaches it. -/
def Program.WellScoped (sets : List (Finset String)) (program : List (Statement Expr)) : Prop :=
  ∃ after, goThrough Action.resolve (Program.actions program) sets = .ok after

instance (sets : List (Finset String)) (program : List (Statement Expr)) :
    Decidable (Program.WellScoped sets program) :=
  match resolved : goThrough Action.resolve (Program.actions program) sets with
  | .ok after => .isTrue ⟨after, resolved⟩
  | .error name => .isFalse fun ⟨after, succeeded⟩ => by
    rw [resolved] at succeeded
    cases succeeded

variable {writer : Writer}

/-- The stop does not say that a variable is undefined. -/
def Writer.Stop.IsOther {Fault : Type} (stop : Writer.Stop Fault) : Prop :=
  ∀ name, stop ≠ .raised (.undefinedVariable name)

/-- The name sets of the machine's environment. -/
def Machine.nameSets (machine : Machine writer) : List (Finset String) :=
  machine.world.environment.nameSets

/-! ## One action -/

/-- An action that resolves changes the names as it says, or stops for another reason than its
name. -/
theorem Action.perform_of_resolve_ok
    (action : Action)
    (machine : Machine writer)
    {after : List (Finset String)}
    (resolved : action.resolve machine.nameSets = .ok after) :
    (∃ reached, action.perform machine = .ok reached ∧ reached.nameSets = after) ∨
      ∃ stop, action.perform machine = .error stop ∧ stop.IsOther := by
  cases action with
  | literal value =>
    cases resolved
    exact .inl ⟨_, rfl, rfl⟩
  | read name =>
    rw [resolve] at resolved
    split at resolved
    · rename_i resolves
      cases resolved
      obtain ⟨value, found⟩ := Environment.exists_get_of_resolves resolves
      rw [perform, found]
      exact .inl ⟨_, rfl, rfl⟩
    · cases resolved
  | unary operator =>
    cases resolved
    rw [perform]
    cases applied : operator.apply machine.last with
    | ok value => exact .inl ⟨_, rfl, rfl⟩
    | error error =>
      refine .inr ⟨_, rfl, fun name => ?_⟩
      rw [UnaryOp.apply_error applied]
      intro same
      cases same
  | binary operator =>
    cases resolved
    rw [perform]
    cases applied : operator.apply machine.drop.last machine.last with
    | ok value => exact .inl ⟨_, rfl, rfl⟩
    | error error =>
      refine .inr ⟨_, rfl, fun name => ?_⟩
      intro same
      cases same
      obtain same | same := BinaryOp.apply_error applied
      · cases same
      · cases same
  | assign name =>
    rw [resolve] at resolved
    split at resolved
    · rename_i resolves
      cases resolved
      obtain ⟨changed, assigned, same⟩ :=
        Environment.exists_assign_of_resolves machine.last resolves
      rw [perform, assigned]
      exact .inl ⟨_, rfl, same⟩
    · cases resolved
  | discard =>
    cases resolved
    exact .inl ⟨_, rfl, rfl⟩
  | print =>
    cases resolved
    rw [perform, Writer.World.print]
    rcases writer.print machine.last machine.world.output with ⟨fault | _, output⟩
    · refine .inr ⟨_, rfl, fun name same => ?_⟩
      cases same
    · exact .inl ⟨_, rfl, rfl⟩
  | define name =>
    cases resolved
    exact .inl ⟨_, rfl, Environment.nameSets_define _ _ _⟩
  | enter =>
    cases resolved
    exact .inl ⟨_, rfl, rfl⟩
  | leave =>
    cases resolved
    exact .inl ⟨_, rfl, Environment.nameSets_left _⟩

/-- An action that does not resolve finds its name undefined. -/
theorem Action.perform_of_resolve_error
    (action : Action)
    (machine : Machine writer)
    {name : String}
    (unresolved : action.resolve machine.nameSets = .error name) :
    action.perform machine = .error (.raised (.undefinedVariable name)) := by
  cases action with
  | read target =>
    rw [resolve] at unresolved
    split at unresolved
    · cases unresolved
    · rename_i notResolves
      cases unresolved
      rw [perform, Environment.get_of_not_resolves notResolves]
      rfl
  | assign target =>
    rw [resolve] at unresolved
    split at unresolved
    · cases unresolved
    · rename_i notResolves
      cases unresolved
      rw [perform, Environment.assign_of_not_resolves _ notResolves]
      rfl
  | _ => cases unresolved

/-! ## All actions -/

variable {actions : List Action}

/-- Actions that resolve change the names as they say, or stop for another reason than a name. -/
theorem perform_of_resolve_ok
    (machine : Machine writer)
    {after : List (Finset String)}
    (resolved : goThrough Action.resolve actions machine.nameSets = .ok after) :
    (∃ reached, goThrough Action.perform actions machine = .ok reached ∧
      reached.nameSets = after) ∨
      ∃ stop, goThrough Action.perform actions machine = .error stop ∧ stop.IsOther := by
  induction actions generalizing machine with
  | nil =>
    cases resolved
    exact .inl ⟨machine, rfl, rfl⟩
  | cons action rest inductionHypothesis =>
    rw [goThrough] at resolved ⊢
    cases first : action.resolve machine.nameSets with
    | error name =>
      rw [first] at resolved
      cases resolved
    | ok between =>
      rw [first] at resolved
      obtain ⟨reached, performed, rfl⟩ | ⟨stop, stopped, other⟩ :=
        action.perform_of_resolve_ok machine first
      · rw [performed]
        exact inductionHypothesis reached resolved
      · rw [stopped]
        exact .inr ⟨stop, rfl, other⟩

/-- Performing actions that do not resolve stops where a name is not in any set, and says so, or
stops further in front for another reason. -/
theorem perform_of_resolve_error
    (machine : Machine writer)
    {name : String}
    (unresolved : goThrough Action.resolve actions machine.nameSets = .error name) :
    ∃ position, FailsAt Action.resolve position name actions machine.nameSets ∧
      (FailsAt Action.perform position (.raised (.undefinedVariable name)) actions machine ∨
        ∃ earlier < position, ∃ stop, FailsAt Action.perform earlier stop actions machine ∧
          stop.IsOther) := by
  induction actions generalizing machine with
  | nil => cases unresolved
  | cons action rest inductionHypothesis =>
    rw [goThrough] at unresolved
    cases first : action.resolve machine.nameSets with
    | error _ =>
      rw [first] at unresolved
      cases unresolved
      have stopped := action.perform_of_resolve_error machine first
      exact ⟨0, failsAt_zero first, .inl (failsAt_zero stopped)⟩
    | ok between =>
      rw [first] at unresolved
      obtain ⟨reached, performed, rfl⟩ | ⟨stop, stopped, other⟩ :=
        action.perform_of_resolve_ok machine first
      · obtain ⟨position, later, outcome⟩ := inductionHypothesis reached unresolved
        refine ⟨position + 1, failsAt_succ first later, ?_⟩
        obtain here | ⟨earlier, before, stop, stopped, other⟩ := outcome
        · exact .inl (failsAt_succ performed here)
        · exact .inr ⟨earlier + 1, Nat.succ_lt_succ before, stop, failsAt_succ performed stopped,
            other⟩
      · -- The machine stops here, and only the reading goes on to the name.
        obtain ⟨position, later⟩ := exists_failsAt unresolved
        exact ⟨position + 1, failsAt_succ first later,
          .inr ⟨0, Nat.succ_pos position, stop, failsAt_zero stopped, other⟩⟩

/-! ## Programs -/

variable {program : Program} {world : writer.World}

private theorem perform_program :
    goThrough Action.perform (Program.actions program) ⟨[], world⟩ =
      match executeAllOn writer program world with
      | (.error stop, _) => .error stop
      | (.ok (), world) => .ok ⟨[], world⟩ := by
  have performed := Program.perform_actions program [] ⟨[], world⟩
  rwa [List.append_nil] at performed

/-- A program stops as its actions do. -/
theorem executeAllOn_eq_error_iff {stop : Writer.Stop writer.Fault} :
    (executeAllOn writer program world).1 = .error stop ↔
      goThrough Action.perform (Program.actions program) ⟨[], world⟩ = .error stop := by
  rw [perform_program]
  rcases executeAllOn writer program world with ⟨_ | _, final⟩
  · simp
  · simp

/-- A program that does not stop leaves the names that reading it finds. -/
theorem resolved_of_executed (executed : (executeAllOn writer program world).1 = .ok ()) :
    goThrough Action.resolve (Program.actions program) world.environment.nameSets =
      .ok (executeAllOn writer program world).2.environment.nameSets := by
  have performed :
      goThrough Action.perform (Program.actions program) ⟨[], world⟩ =
        .ok ⟨[], (executeAllOn writer program world).2⟩ := by
    rw [perform_program]
    rcases done : executeAllOn writer program world with ⟨_ | _, final⟩
    · rw [done] at executed
      cases executed
    · rfl
  cases resolved : goThrough Action.resolve (Program.actions program)
      world.environment.nameSets with
  | error name =>
    obtain ⟨position, _, stopped | ⟨earlier, _, stop, stopped, _⟩⟩ :=
      perform_of_resolve_error ⟨[], world⟩ resolved
    · cases performed.symm.trans stopped.goThrough_eq
    · cases performed.symm.trans stopped.goThrough_eq
  | ok after =>
    obtain ⟨reached, sameActions, rfl⟩ | ⟨stop, stopped, _⟩ :=
      perform_of_resolve_ok ⟨[], world⟩ resolved
    · cases performed.symm.trans sameActions
      rfl
    · cases performed.symm.trans stopped

/-- A well-scoped program never finds a variable undefined.  Any other program stops, at the first
action whose name is in no set with exactly that name, or further in front for another reason.  A
program that does not stop leaves the names that reading it finds.  This holds of every writer, and
a sink is one. -/
theorem undefined_decided_by_scoping
    (writer : Writer)
    (program : Program)
    (world : writer.World) :
    (Program.WellScoped world.environment.nameSets program →
      ∀ name, (executeAllOn writer program world).1 ≠ .error (.raised (.undefinedVariable name))) ∧
    (¬ Program.WellScoped world.environment.nameSets program →
      ∃ position name stop,
        FailsAt Action.resolve position name (Program.actions program)
          world.environment.nameSets ∧
        (executeAllOn writer program world).1 = .error stop ∧
        (stop = .raised (.undefinedVariable name) ∧
            FailsAt Action.perform position stop (Program.actions program) ⟨[], world⟩ ∨
          stop.IsOther ∧ ∃ earlier < position,
            FailsAt Action.perform earlier stop (Program.actions program) ⟨[], world⟩)) ∧
    ((executeAllOn writer program world).1 = .ok () →
      goThrough Action.resolve (Program.actions program) world.environment.nameSets =
        .ok (executeAllOn writer program world).2.environment.nameSets) ∧
    ∀ start : World, executeAll program start =
      Sink.outcome (executeAllOn Sink.writer program ⟨start.environment, start.sink⟩) := by
  refine ⟨fun ⟨after, resolved⟩ name undefined => ?_, fun notScoped => ?_, resolved_of_executed,
    fun start => executeAll_world program ⟨start.environment, start.sink⟩⟩
  · have performed := executeAllOn_eq_error_iff.1 undefined
    obtain ⟨reached, succeeded, _⟩ | ⟨stop, stopped, other⟩ :=
      perform_of_resolve_ok ⟨[], world⟩ resolved
    · cases performed.symm.trans succeeded
    · cases performed.symm.trans stopped
      exact other name rfl
  · cases resolved : goThrough Action.resolve (Program.actions program)
        world.environment.nameSets with
    | ok after => exact absurd ⟨after, resolved⟩ notScoped
    | error name =>
      obtain ⟨position, here, stopped | ⟨earlier, before, stop, stopped, other⟩⟩ :=
        perform_of_resolve_error ⟨[], world⟩ resolved
      · exact ⟨position, name, _, here, executeAllOn_eq_error_iff.2 stopped.goThrough_eq,
          .inl ⟨rfl, stopped⟩⟩
      · exact ⟨position, name, stop, here, executeAllOn_eq_error_iff.2 stopped.goThrough_eq,
          .inr ⟨other, earlier, before, stopped⟩⟩

/-- The initial value of a variable sees an outer one of the same name, but not the variable. -/
example :
    let program : Program := [.block [.var ⟨"a", 1⟩ (some (.reference ⟨"a", 1⟩))]]
    Program.WellScoped [{"a"}] program ∧ ¬ Program.WellScoped [∅] program := by
  decide

end Lox
