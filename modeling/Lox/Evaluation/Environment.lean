import Lox.Evaluation.RuntimeError
import Lox.Value

/-!
Contract: the bindings that a program sees.

Owns:
- scopes, which bind names to values;
- environments, chains of scopes with the global one outermost;
- defining, reading and assigning names, entering and leaving a scope.

Does not own: when scopes are entered.
-/

namespace Lox

/-! ## Scopes -/

/-- A scope: names and their values, each name once. -/
structure Scope where
  bindings : List (String × Value) := []
deriving DecidableEq

namespace Scope

/-- The value of a name. -/
def find? (name : String) (scope : Scope) : Option Value :=
  scope.bindings.lookup name

/-- Whether the scope binds the name. -/
def contains (name : String) (scope : Scope) : Bool :=
  (scope.find? name).isSome

/-- The bindings with one of them new or changed. -/
private def bind (name : String) (value : Value) :
    List (String × Value) → List (String × Value)
  | [] => [(name, value)]
  | (bound, old) :: rest =>
    if name == bound then (bound, value) :: rest else (bound, old) :: bind name value rest

/-- The scope with the name bound to the value, in place of any value it had. -/
def insert (name : String) (value : Value) (scope : Scope) : Scope :=
  ⟨bind name value scope.bindings⟩

private theorem lookup_bind
    (name other : String)
    (value : Value)
    (bindings : List (String × Value)) :
    (bind name value bindings).lookup other =
      if other = name then some value else bindings.lookup other := by
  induction bindings with
  | nil =>
    by_cases same : other = name
    · simp [bind, same]
    · simp [bind, List.lookup_cons, beq_false_of_ne same, same]
  | cons binding rest inductionHypothesis =>
    obtain ⟨bound, old⟩ := binding
    by_cases here : name = bound
    · subst here
      by_cases same : other = name
      · simp [bind, same]
      · simp [bind, List.lookup_cons, beq_false_of_ne same, same]
    · by_cases found : other = bound
      · simp [bind, here, found, Ne.symm here]
      · simp [bind, List.lookup_cons, here, beq_false_of_ne found, inductionHypothesis]

/-- A bound name has its value, and no other name is touched. -/
theorem find?_insert (name other : String) (value : Value) (scope : Scope) :
    (scope.insert name value).find? other =
      if other = name then some value else scope.find? other :=
  lookup_bind name other value scope.bindings

end Scope

/-! ## Environments -/

/-- A chain of scopes: the innermost one, and those around it from the inside out.  The last of
all is the global scope. -/
structure Environment where
  innermost : Scope := {}
  enclosing : List Scope := []
deriving DecidableEq

namespace Environment

/-- All scopes from the inside out. -/
def scopes (environment : Environment) : List Scope :=
  environment.innermost :: environment.enclosing

/-- The number of scopes; one if there is only the global one. -/
def depth (environment : Environment) : Nat :=
  environment.scopes.length

/-- Binds a name in the innermost scope. -/
def define (name : String) (value : Value) (environment : Environment) : Environment :=
  { environment with innermost := environment.innermost.insert name value }

/-- The value of a name in the innermost scope that binds it. -/
def get (name : String) (environment : Environment) : Except RuntimeError Value :=
  match environment.scopes.findSome? (·.find? name) with
  | some value => .ok value
  | none => .error (.undefinedVariable name)

/-- The scopes with the name changed in the first that binds it. -/
def assignIn (name : String) (value : Value) : List Scope → Option (List Scope)
  | [] => none
  | scope :: enclosing =>
    if scope.contains name then some (scope.insert name value :: enclosing)
    else (assignIn name value enclosing).map (scope :: ·)

/-- Changes the value of a name in the innermost scope that binds it. -/
def assign (name : String) (value : Value) (environment : Environment) :
    Except RuntimeError Environment :=
  if environment.innermost.contains name then .ok (environment.define name value)
  else
    match assignIn name value environment.enclosing with
    | some enclosing => .ok { environment with enclosing := enclosing }
    | none => .error (.undefinedVariable name)

/-- Enters a new scope without bindings. -/
def enter (environment : Environment) : Environment :=
  ⟨{}, environment.scopes⟩

/-- Leaves the innermost scope.  The global scope cannot be left. -/
def leave? (environment : Environment) : Option Environment :=
  match environment.enclosing with
  | [] => none
  | scope :: enclosing => some ⟨scope, enclosing⟩

/-- A scope that was entered can be left again, and nothing has changed. -/
@[simp] theorem leave?_enter (environment : Environment) :
    environment.enter.leave? = some environment := rfl

/-- The scope is entered on top of the others. -/
@[simp] theorem depth_enter (environment : Environment) :
    environment.enter.depth = environment.depth + 1 := rfl

/-- A definition enters no scope. -/
@[simp] theorem depth_define (name : String) (value : Value) (environment : Environment) :
    (environment.define name value).depth = environment.depth := rfl

theorem length_assignIn
    {name : String}
    {value : Value}
    {scopes changed : List Scope}
    (assigned : assignIn name value scopes = some changed) :
    changed.length = scopes.length := by
  induction scopes generalizing changed with
  | nil => simp [assignIn] at assigned
  | cons scope enclosing inductionHypothesis =>
    simp only [assignIn] at assigned
    split at assigned
    · cases assigned
      rfl
    · obtain ⟨rest, found, rfl⟩ := Option.map_eq_some_iff.1 assigned
      simp [inductionHypothesis found]

/-- An assignment enters no scope. -/
theorem depth_assign
    {name : String}
    {value : Value}
    {environment changed : Environment}
    (assigned : environment.assign name value = .ok changed) :
    changed.depth = environment.depth := by
  unfold assign at assigned
  split at assigned
  · cases assigned
    rfl
  · split at assigned
    · rename_i enclosing found
      cases assigned
      simp [depth, scopes, length_assignIn found]
    · contradiction

end Environment

end Lox
