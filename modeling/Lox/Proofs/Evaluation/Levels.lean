import Lox.Proofs.Evaluation.Chain

/-!
Contract: environments as the values that the scope on each level gives to each name.

Owns:
- the value that a name has in the scope on a level;
- what each operation does to these values;
- the scope that a name resolves to, reading and assigning by it.

Does not own: which operations are performed.

Levels are counted from the global scope, which is on level zero, so that a scope keeps its level
when others are entered and left inside of it.
-/

namespace Lox.Environment

/-! ## Values by level -/

/-- The value of a name in the scope on the level. -/
def valueOn (level : Nat) (name : String) (environment : Environment) : Option Value :=
  environment.scopes.reverse[level]?.bind (Scope.find? name)

section Levels

variable {environment changed : Environment} {level : Nat} {name : String} {value : Value}

theorem valueOn_eq_valueAt (below : level < environment.depth) (name : String) :
    environment.valueOn level name = environment.valueAt (environment.depth - 1 - level) name := by
  rw [valueOn, List.getElem?_reverse below]
  rfl

theorem valueAt_eq_valueOn
    {position : Nat}
    (below : position < environment.depth)
    (name : String) :
    environment.valueAt position name =
      environment.valueOn (environment.depth - 1 - position) name := by
  have samePosition : environment.depth - 1 - (environment.depth - 1 - position) = position := by
    omega
  rw [valueOn_eq_valueAt (by omega), samePosition]

theorem valueOn_of_depth_le (beyond : environment.depth ≤ level) (name : String) :
    environment.valueOn level name = none := by
  have noScope : environment.scopes.reverse[level]? = none :=
    List.getElem?_eq_none (by rwa [List.length_reverse])
  rw [valueOn, noScope]
  rfl

/-- A value is in one of the scopes. -/
theorem valueOn_eq_ite (level : Nat) (name : String) :
    environment.valueOn level name =
      if level < environment.depth then environment.valueOn level name else none := by
  split
  · rfl
  · rename_i beyond
    exact valueOn_of_depth_le (Nat.le_of_not_lt beyond) name

theorem valueOn_empty (level : Nat) (name : String) :
    ({} : Environment).valueOn level name = none := by
  cases level with
  | zero => rfl
  | succ level => rfl

/-- The scopes around the innermost one are on the levels before its own. -/
theorem valueOn_of_scopes_eq_cons
    {scope : Scope}
    {outer : Environment}
    (inside : environment.scopes = scope :: outer.scopes)
    (level : Nat)
    (name : String) :
    environment.valueOn level name =
      if level < outer.depth then outer.valueOn level name
      else if level = outer.depth then scope.find? name
      else none := by
  rw [valueOn, inside, List.reverse_cons, List.getElem?_append, List.length_reverse]
  have bound : outer.scopes.length = outer.depth := rfl
  rw [bound]
  split
  · rfl
  · rw [List.getElem?_singleton]
    have innermost : level - outer.depth = 0 ↔ level = outer.depth := by omega
    simp only [innermost]
    split <;> rfl

theorem valueOn_enter (level : Nat) (name : String) :
    environment.enter.valueOn level name = environment.valueOn level name := by
  have inside : environment.enter.scopes = {} :: environment.scopes := rfl
  rw [valueOn_of_scopes_eq_cons inside]
  split
  · rfl
  · rename_i notBelow
    rw [valueOn_of_depth_le (Nat.le_of_not_lt notBelow)]
    split <;> rfl

theorem valueOn_define (level : Nat) (other : String) :
    (environment.define name value).valueOn level other =
      if level + 1 = environment.depth ∧ other = name then some value
      else environment.valueOn level other := by
  by_cases below : level < environment.depth
  · have innermost : environment.depth - 1 - level = 0 ↔ level + 1 = environment.depth := by
      omega
    rw [valueOn_eq_valueAt below, valueOn_eq_valueAt (by rwa [depth_define]), depth_define,
      valueAt_define]
    simp only [innermost]
  · have beyond := Nat.le_of_not_lt below
    rw [valueOn_of_depth_le beyond, valueOn_of_depth_le (by rwa [depth_define]), if_neg]
    omega

theorem valueOn_leave
    {outer : Environment}
    (left : environment.leave? = some outer)
    (level : Nat)
    (name : String) :
    outer.valueOn level name =
      if level < outer.depth then environment.valueOn level name else none := by
  have inside : environment.scopes = environment.innermost :: outer.scopes := by
    obtain ⟨innermost, enclosing⟩ := environment
    cases enclosing with
    | nil => cases left
    | cons scope enclosing =>
      cases left
      rfl
  split
  · rename_i below
    rw [valueOn_of_scopes_eq_cons inside, if_pos below]
  · rename_i beyond
    exact valueOn_of_depth_le (Nat.le_of_not_lt beyond) name

/-! ## Resolved names -/

/-- The scope on the level is the innermost one that has the name. -/
structure ResolvesTo (environment : Environment) (level : Nat) (name : String) : Prop where
  held : (environment.valueOn level name).isSome = true
  notInside (inner : Nat) : level < inner → environment.valueOn inner name = none

theorem ResolvesTo.unique
    {other : Nat}
    (resolves : environment.ResolvesTo level name)
    (also : environment.ResolvesTo other name) :
    other = level := by
  rcases Nat.lt_trichotomy other level with inside | same | outside
  · simpa [also.notInside level inside] using resolves.held
  · exact same
  · simpa [resolves.notInside other outside] using also.held

theorem lt_depth_of_hasAt {position : Nat} (held : environment.HasAt position name) :
    position < environment.depth := by
  refine Nat.lt_of_not_le fun beyond => ?_
  have noScope : environment.scopes[position]? = none := List.getElem?_eq_none beyond
  simp [HasAt, valueAt, noScope] at held

theorem resolvesTo_of_hasAt
    {position : Nat}
    (held : environment.HasAt position name)
    (notInside : ∀ inner < position, environment.valueAt inner name = none) :
    environment.ResolvesTo (environment.depth - 1 - position) name := by
  have below := lt_depth_of_hasAt held
  constructor
  · rwa [← valueAt_eq_valueOn below]
  · intro inner deeper
    by_cases beyond : environment.depth ≤ inner
    · exact valueOn_of_depth_le beyond name
    · rw [valueOn_eq_valueAt (Nat.lt_of_not_le beyond)]
      exact notInside _ (by omega)

theorem valueOn_eq_none
    (missing : ∀ scope ∈ environment.scopes, scope.find? name = none)
    (level : Nat) :
    environment.valueOn level name = none := by
  rw [valueOn, Option.bind_eq_none_iff]
  intro scope found
  exact missing scope (List.mem_reverse.1 (List.mem_of_getElem? found))

theorem exists_resolvesTo_of_get (found : environment.get name = .ok value) :
    ∃ resolved, environment.ResolvesTo resolved name ∧
      environment.valueOn resolved name = some value := by
  rw [get] at found
  split at found
  · rename_i first foundFirst
    cases found
    obtain ⟨inner, scope, outer, split, here, notInner⟩ := List.findSome?_eq_some_iff.1 foundFirst
    have held : environment.valueAt inner.length name = some value := by
      simp [valueAt, split, here]
    have below : inner.length < environment.depth := by
      simp [depth, split]
    refine ⟨environment.depth - 1 - inner.length, resolvesTo_of_hasAt ?_ ?_, ?_⟩
    · rw [HasAt, held]
      rfl
    · intro position before
      rw [valueAt, split, List.getElem?_append_left before, List.getElem?_eq_getElem before]
      exact notInner _ (List.getElem_mem before)
    · rwa [← valueAt_eq_valueOn below]
  · cases found

theorem get_eq_error_iff {error : RuntimeError} :
    environment.get name = .error error ↔
      error = .undefinedVariable name ∧ ∀ level, environment.valueOn level name = none := by
  constructor
  · intro failed
    rw [get] at failed
    split at failed
    · cases failed
    · rename_i notFound
      cases failed
      exact ⟨rfl, valueOn_eq_none (List.findSome?_eq_none_iff.1 notFound)⟩
  · rintro ⟨rfl, missing⟩
    cases found : environment.get name with
    | ok value =>
      obtain ⟨resolved, _, held⟩ := exists_resolvesTo_of_get found
      simp [missing resolved] at held
    | error error =>
      rw [get] at found
      split at found
      · cases found
      · exact found.symm

/-- A name has the value that it has in the innermost scope that has it. -/
theorem get_eq_ok_iff :
    environment.get name = .ok value ↔
      ∃ resolved, environment.ResolvesTo resolved name ∧
        environment.valueOn resolved name = some value := by
  refine ⟨exists_resolvesTo_of_get, ?_⟩
  rintro ⟨resolved, resolves, held⟩
  cases found : environment.get name with
  | ok other =>
    obtain ⟨also, alsoResolves, alsoHeld⟩ := exists_resolvesTo_of_get found
    rw [resolves.unique alsoResolves, held] at alsoHeld
    cases alsoHeld
    rfl
  | error error =>
    have missing := (get_eq_error_iff.1 found).2
    simp [missing resolved] at held

/-- An assignment changes the value of its name in the innermost scope that has it, and nothing
else. -/
theorem valueOn_assign (assigned : environment.assign name value = .ok changed) :
    ∃ resolved, environment.ResolvesTo resolved name ∧
      ∀ level other, changed.valueOn level other =
        if level = resolved ∧ other = name then some value
        else environment.valueOn level other := by
  obtain ⟨position, held, notInside, values⟩ := valueAt_assign assigned
  have below := lt_depth_of_hasAt held
  refine ⟨environment.depth - 1 - position, resolvesTo_of_hasAt held notInside, ?_⟩
  intro level other
  have sameDepth := depth_assign assigned
  by_cases inside : level < environment.depth
  · rw [valueOn_eq_valueAt inside, valueOn_eq_valueAt (by rwa [sameDepth]), sameDepth, values]
    have resolved : environment.depth - 1 - level = position ↔
        level = environment.depth - 1 - position := by omega
    simp only [resolved]
  · have beyond := Nat.le_of_not_lt inside
    rw [valueOn_of_depth_le beyond, valueOn_of_depth_le (by rwa [sameDepth]), if_neg]
    omega

theorem find?_eq_none_of_assignIn
    {scopes : List Scope}
    (notFound : assignIn name value scopes = none) :
    ∀ scope ∈ scopes, scope.find? name = none := by
  induction scopes with
  | nil => simp
  | cons scope enclosing inductionHypothesis =>
    rw [assignIn] at notFound
    split at notFound
    · cases notFound
    · rename_i notHere
      rw [List.forall_mem_cons]
      refine ⟨by simpa [Scope.contains] using notHere, inductionHypothesis ?_⟩
      exact Option.map_eq_none_iff.1 notFound

theorem assign_eq_error_iff_valueOn {error : RuntimeError} :
    environment.assign name value = .error error ↔
      error = .undefinedVariable name ∧ ∀ level, environment.valueOn level name = none := by
  constructor
  · intro failed
    obtain ⟨notFound, rfl⟩ := assign_eq_error_iff.1 failed
    exact ⟨rfl, valueOn_eq_none (find?_eq_none_of_assignIn notFound)⟩
  · rintro ⟨rfl, missing⟩
    cases assigned : environment.assign name value with
    | ok changed =>
      obtain ⟨resolved, resolves, _⟩ := valueOn_assign assigned
      simpa [missing resolved] using resolves.held
    | error error => rw [(assign_eq_error_iff.1 assigned).2]

/-- An assignment fails exactly if reading its name does, and with the same error. -/
theorem assign_eq_error_iff_get {error : RuntimeError} :
    environment.assign name value = .error error ↔ environment.get name = .error error := by
  rw [assign_eq_error_iff_valueOn, get_eq_error_iff]

end Levels

end Lox.Environment
