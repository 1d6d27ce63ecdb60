import Lox.Evaluation.Environment

/-!
Contract: environments as the values that each scope gives to each name.

Owns:
- the value of a name in the scope at a position of the chain;
- what each operation on environments does to these values.

Does not own: which operations a program performs.
-/

namespace Lox

namespace Environment

/-- The value of a name in the scope at the position.  The innermost scope is at position zero. -/
def valueAt (position : Nat) (name : String) (environment : Environment) : Option Value :=
  environment.scopes[position]?.bind (Scope.find? name)

/-- Whether the scope at the position has the name. -/
def HasAt (position : Nat) (name : String) (environment : Environment) : Prop :=
  (environment.valueAt position name).isSome = true

variable {environment changed : Environment} {name : String} {value : Value}

/-! ## Definitions -/

theorem valueAt_define (position : Nat) (other : String) :
    (environment.define name value).valueAt position other =
      if position = 0 ∧ other = name then some value else environment.valueAt position other := by
  cases position with
  | zero =>
    change (environment.innermost.insert name value).find? other = _
    rw [Scope.find?_insert]
    simp only [true_and]
    rfl
  | succ position => rfl

/-! ## Leaving -/

/-- Only the global scope cannot be left. -/
theorem exists_left (deep : 1 < environment.depth) :
    ∃ outer, environment.leave? = some outer ∧ outer.depth + 1 = environment.depth := by
  obtain ⟨innermost, enclosing⟩ := environment
  cases enclosing with
  | nil => simp [depth, scopes] at deep
  | cons scope enclosing => exact ⟨⟨scope, enclosing⟩, rfl, rfl⟩

/-- Leaving an environment of more than one scope leaves the scopes around the innermost one. -/
theorem scopes_left (deep : 1 < environment.depth) :
    (environment.leave?.getD environment).scopes = environment.enclosing := by
  obtain ⟨innermost, enclosing⟩ := environment
  cases enclosing with
  | nil => simp [depth, scopes] at deep
  | cons scope enclosing => rfl

theorem depth_left (deep : 1 < environment.depth) :
    (environment.leave?.getD environment).depth + 1 = environment.depth := by
  rw [depth, scopes_left deep]
  rfl

theorem valueAt_left (deep : 1 < environment.depth) (position : Nat) (other : String) :
    (environment.leave?.getD environment).valueAt position other =
      environment.valueAt (position + 1) other := by
  rw [valueAt, scopes_left deep]
  rfl

theorem depth_pos (environment : Environment) : 0 < environment.depth :=
  Nat.zero_lt_succ _

/-! ## Assignments -/

theorem assign_eq_ok_iff :
    environment.assign name value = .ok changed ↔
      assignIn name value environment.scopes = some changed.scopes := by
  obtain ⟨innermost, enclosing⟩ := environment
  obtain ⟨changedInnermost, changedEnclosing⟩ := changed
  by_cases here : innermost.contains name = true
  · simp [assign, assignIn, scopes, define, here]
  · cases found : assignIn name value enclosing with
    | none => simp [assign, assignIn, scopes, here, found]
    | some scopes => simp [assign, assignIn, Environment.scopes, here, found]

theorem assign_eq_error_iff {error : RuntimeError} :
    environment.assign name value = .error error ↔
      assignIn name value environment.scopes = none ∧ error = .undefinedVariable name := by
  obtain ⟨innermost, enclosing⟩ := environment
  by_cases here : innermost.contains name = true
  · simp [assign, assignIn, scopes, here]
  · cases found : assignIn name value enclosing with
    | none => simp [assign, assignIn, scopes, here, found, eq_comm]
    | some scopes => simp [assign, assignIn, Environment.scopes, here, found]

private theorem bind_find?_assignIn
    {scopes changedScopes : List Scope}
    (assigned : assignIn name value scopes = some changedScopes) :
    ∃ resolved : Nat, (scopes[resolved]?.bind (Scope.find? name)).isSome = true ∧
      (∀ inner < resolved, scopes[inner]?.bind (Scope.find? name) = none) ∧
      ∀ (position : Nat) (other : String), changedScopes[position]?.bind (Scope.find? other) =
        if position = resolved ∧ other = name then some value
        else scopes[position]?.bind (Scope.find? other) := by
  induction scopes generalizing changedScopes with
  | nil => cases assigned
  | cons scope enclosing inductionHypothesis =>
    rw [assignIn] at assigned
    split at assigned
    · rename_i here
      cases assigned
      refine ⟨0, here, fun inner below => absurd below (Nat.not_lt_zero inner), ?_⟩
      intro position other
      cases position with
      | zero => simp [Scope.find?_insert]
      | succ position => simp
    · rename_i notHere
      obtain ⟨rest, found, rfl⟩ := Option.map_eq_some_iff.1 assigned
      obtain ⟨resolved, held, notInside, values⟩ := inductionHypothesis found
      refine ⟨resolved + 1, held, ?_, ?_⟩
      · intro inner below
        cases inner with
        | zero => simpa [Scope.contains] using notHere
        | succ inner => exact notInside inner (Nat.lt_of_succ_lt_succ below)
      · intro position other
        cases position with
        | zero => simp
        | succ position => simpa using values position other

/-- An assignment changes the value of its name in the innermost scope that has the name, and
nothing else. -/
theorem valueAt_assign (assigned : environment.assign name value = .ok changed) :
    ∃ resolved, environment.HasAt resolved name ∧
      (∀ inner < resolved, environment.valueAt inner name = none) ∧
      ∀ position other, changed.valueAt position other =
        if position = resolved ∧ other = name then some value
        else environment.valueAt position other :=
  bind_find?_assignIn (assign_eq_ok_iff.1 assigned)

end Environment

end Lox
