import Lox.Proofs.Evaluation.History
import Lox.Proofs.Evaluation.Levels

/-!
Contract: environments answer as their history says.

Owns:
- the law that ties an environment to its history: a name has on each level what was written for it
  there last;
- that every operation keeps this law and answers what the history says;
- what a scope that is entered and left again leaves of the scopes around it;
- that an assignment that fails leaves no trace.

Does not own: which operations a program performs.
-/

namespace Lox.Environment

open History

/-! ## The law of an environment and its history -/

/-- The environment is what the history says it is now. -/
structure Tracks (history : History) (now : Nat) (environment : Environment) : Prop where
  depth_eq : environment.depth = history.levelAt now + 1
  valueOn_iff (level : Nat) (name : String) (value : Value) :
    environment.valueOn level name = some value ↔ history.LastWritten level name value now

section Step

variable {history : History} {now : Nat} {environment changed : Environment}
variable {level : Nat} {name : String} {value : Value}

theorem tracks_empty (history : History) : Tracks history 0 {} := by
  constructor
  · simp [levelAt, depth, scopes]
  · intro level name value
    rw [valueOn_empty]
    constructor
    · intro found
      cases found
    · rintro ⟨time, before, _⟩
      exact absurd before (Nat.not_lt_zero time)

namespace Tracks

theorem definedOn_iff (tracks : Tracks history now environment) :
    history.DefinedOn level name now ↔ (environment.valueOn level name).isSome = true := by
  rw [definedOn_iff_exists_lastWritten, Option.isSome_iff_exists]
  simp only [tracks.valueOn_iff]

theorem undefined_iff (tracks : Tracks history now environment) :
    (∀ level, ¬ history.DefinedOn level name now) ↔
      ∀ level, environment.valueOn level name = none := by
  simp only [tracks.definedOn_iff, Bool.not_eq_true, Option.isSome_eq_false_iff,
    Option.isNone_iff_eq_none]

theorem means_iff (tracks : Tracks history now environment) :
    history.Means level name now ↔ environment.ResolvesTo level name := by
  constructor
  · intro means
    refine ⟨tracks.definedOn_iff.1 means.defined, fun inner deeper => ?_⟩
    refine Option.not_isSome_iff_eq_none.1 fun held => ?_
    exact Nat.not_le_of_lt deeper (means.innermost inner (tracks.definedOn_iff.2 held))
  · intro resolves
    refine ⟨tracks.definedOn_iff.2 resolves.held, fun other defined => ?_⟩
    refine Nat.le_of_not_lt fun deeper => ?_
    simpa [resolves.notInside other deeper] using tracks.definedOn_iff.1 defined

/-- Without a write, the scopes that are still open keep their values. -/
theorem next_of_not_writes
    (tracks : Tracks history now environment)
    (noWrite : ∀ level name value, ¬ history.Writes level name value now)
    (depth_eq : changed.depth = history.levelAt (now + 1) + 1)
    (values : ∀ level name, changed.valueOn level name =
      if level < changed.depth then environment.valueOn level name else none) :
    Tracks history (now + 1) changed := by
  refine ⟨depth_eq, fun level name value => ?_⟩
  have isOpen : level < changed.depth ↔ level ≤ history.levelAt (now + 1) := by omega
  rw [lastWritten_succ_iff, ← tracks.valueOn_iff, ← isOpen, values]
  by_cases here : level < changed.depth
  · simp [here, noWrite]
  · simp [here]

/-- With one write, its name has its value on its level, and nothing else changes. -/
theorem next_of_write
    {target : Nat}
    {bound : String}
    {given : Value}
    (tracks : Tracks history now environment)
    (writes : ∀ level name value, history.Writes level name value now ↔
      (level = target ∧ name = bound) ∧ value = given)
    (sameLevel : history.levelAt (now + 1) = history.levelAt now)
    (sameDepth : changed.depth = environment.depth)
    (values : ∀ level name, changed.valueOn level name =
      if level = target ∧ name = bound then some given else environment.valueOn level name) :
    Tracks history (now + 1) changed := by
  refine ⟨by rw [sameDepth, sameLevel, tracks.depth_eq], fun level name value => ?_⟩
  rw [lastWritten_succ_iff, ← tracks.valueOn_iff, sameLevel, values]
  simp only [writes]
  by_cases here : level = target ∧ name = bound
  · have isOpen : level ≤ history.levelAt now := ((writes level name given).2 ⟨here, rfl⟩).level_le
    simp [here.1, here.2, here.1 ▸ isOpen, eq_comm]
  · have isOpen : environment.valueOn level name = some value → level ≤ history.levelAt now := by
      intro held
      exact (tracks.definedOn_iff.2 (Option.isSome_of_eq_some held)).level_le
    simpa [here] using isOpen

/-- The environment may stay as it is where nothing is written and no scope entered or left. -/
theorem next_of_same
    {operation : Operation}
    (tracks : Tracks history now environment)
    (performed : history[now]? = some operation)
    (notEnter : operation ≠ .enter)
    (notLeave : operation ≠ .leave)
    (noWrite : ∀ level name value, ¬ history.Writes level name value now) :
    Tracks history (now + 1) environment := by
  refine tracks.next_of_not_writes noWrite ?_ valueOn_eq_ite
  rw [levelAt_succ_of_stays performed notEnter notLeave, tracks.depth_eq]

/-! ## Each operation -/

theorem next_define
    (tracks : Tracks history now environment)
    (performed : history[now]? = some (.define name value)) :
    Tracks history (now + 1) (environment.define name value) := by
  have sameLevel := levelAt_succ_of_stays performed (by simp) (by simp)
  refine tracks.next_of_write (fun _ _ _ => writes_iff_of_define performed) sameLevel rfl ?_
  intro level other
  have innermost : level + 1 = environment.depth ↔ level = history.levelAt now := by
    rw [tracks.depth_eq]
    omega
  rw [valueOn_define]
  simp only [innermost]

theorem next_assign
    (tracks : Tracks history now environment)
    (performed : history[now]? = some (.assign name value))
    (assigned : environment.assign name value = .ok changed) :
    Tracks history (now + 1) changed := by
  obtain ⟨resolved, resolves, values⟩ := valueOn_assign assigned
  have means := tracks.means_iff.2 resolves
  have sameLevel := levelAt_succ_of_stays performed (by simp) (by simp)
  exact tracks.next_of_write (fun _ _ _ => writes_iff_of_assign performed means) sameLevel
    (depth_assign assigned) values

theorem next_failed_assign
    {error : RuntimeError}
    (tracks : Tracks history now environment)
    (performed : history[now]? = some (.assign name value))
    (failed : environment.assign name value = .error error) :
    Tracks history (now + 1) environment := by
  have missing := (assign_eq_error_iff_valueOn.1 failed).2
  have noWrite := not_writes_of_undefined performed (tracks.undefined_iff.2 missing)
  exact tracks.next_of_same performed (by simp) (by simp) noWrite

theorem next_enter
    (tracks : Tracks history now environment)
    (inside : history.NeverLeavesGlobal)
    (performed : history[now]? = some .enter) :
    Tracks history (now + 1) environment.enter := by
  refine tracks.next_of_not_writes (not_writes performed (by simp) (by simp)) ?_ ?_
  · rw [depth_enter, tracks.depth_eq, levelAt_succ_of_enter inside performed]
  · intro level name
    exact (valueOn_eq_ite level name).trans (by rw [valueOn_enter])

theorem next_leave
    (tracks : Tracks history now environment)
    (inside : history.NeverLeavesGlobal)
    (performed : history[now]? = some .leave) :
    ∃ outer, environment.leave? = some outer ∧ Tracks history (now + 1) outer := by
  have oneLess := levelAt_succ_of_leave inside performed
  have depth_eq := tracks.depth_eq
  have deep : 1 < environment.depth := by omega
  obtain ⟨outer, left, outerDepth⟩ := exists_left deep
  have noWrite := not_writes performed (by simp) (by simp)
  exact ⟨outer, left, tracks.next_of_not_writes noWrite (by omega) (valueOn_leave left)⟩

/-- Every operation keeps the law. -/
theorem next_perform
    {operation : Operation}
    (tracks : Tracks history now environment)
    (inside : history.NeverLeavesGlobal)
    (performed : history[now]? = some operation) :
    Tracks history (now + 1) (operation.perform environment).2 := by
  cases operation with
  | define name value => exact tracks.next_define performed
  | assign name value =>
    rw [Operation.perform]
    split
    · rename_i changed assigned
      exact tracks.next_assign performed assigned
    · rename_i error failed
      exact tracks.next_failed_assign performed failed
  | get name =>
    have same : ((Operation.get name).perform environment).2 = environment := by
      rw [Operation.perform]
      split <;> rfl
    rw [same]
    exact tracks.next_of_same performed (by simp) (by simp)
      (not_writes performed (by simp) (by simp))
  | depth =>
    exact tracks.next_of_same performed (by simp) (by simp)
      (not_writes performed (by simp) (by simp))
  | enter => exact tracks.next_enter inside performed
  | leave =>
    obtain ⟨outer, left, next⟩ := tracks.next_leave inside performed
    rwa [Operation.perform, left]

/-! ## Answers -/

theorem perform_of_answers
    {operation : Operation}
    {answer : Answer}
    (tracks : Tracks history now environment)
    (inside : history.NeverLeavesGlobal)
    (performed : history[now]? = some operation)
    (answers : history.Answers now operation answer) :
    (operation.perform environment).1 = answer := by
  cases answers with
  | define name value => rfl
  | enter => rfl
  | leave =>
    obtain ⟨outer, left, _⟩ := tracks.next_leave inside performed
    rw [Operation.perform, left]
  | depth => rw [Operation.perform, tracks.depth_eq, Nat.add_comm]
  | get means written =>
    have held := (tracks.valueOn_iff _ _ _).2 written
    have found := get_eq_ok_iff.2 ⟨_, tracks.means_iff.1 means, held⟩
    rw [Operation.perform, found]
  | assign value means =>
    cases assigned : environment.assign _ value with
    | ok changed => rw [Operation.perform, assigned]
    | error error =>
      have missing := (assign_eq_error_iff_valueOn.1 assigned).2
      exact absurd means.defined (tracks.undefined_iff.2 missing _)
  | undefinedGet undefined =>
    rw [Operation.perform, get_eq_error_iff.2 ⟨rfl, tracks.undefined_iff.1 undefined⟩]
  | undefinedAssign value undefined =>
    rw [Operation.perform,
      assign_eq_error_iff_valueOn.2 ⟨rfl, tracks.undefined_iff.1 undefined⟩]

theorem answers_perform
    {operation : Operation}
    (tracks : Tracks history now environment)
    (inside : history.NeverLeavesGlobal)
    (performed : history[now]? = some operation) :
    history.Answers now operation (operation.perform environment).1 := by
  cases operation with
  | define name value => exact .define name value
  | assign name value =>
    rw [Operation.perform]
    split
    · rename_i changed assigned
      obtain ⟨resolved, resolves, _⟩ := valueOn_assign assigned
      exact .assign value (tracks.means_iff.2 resolves)
    · rename_i error failed
      obtain ⟨rfl, missing⟩ := assign_eq_error_iff_valueOn.1 failed
      exact .undefinedAssign value (tracks.undefined_iff.2 missing)
  | get name =>
    rw [Operation.perform]
    split
    · rename_i value found
      obtain ⟨resolved, resolves, held⟩ := get_eq_ok_iff.1 found
      exact .get (tracks.means_iff.2 resolves) ((tracks.valueOn_iff _ _ _).1 held)
    · rename_i error failed
      obtain ⟨rfl, missing⟩ := get_eq_error_iff.1 failed
      exact .undefinedGet (tracks.undefined_iff.2 missing)
  | depth =>
    have answer : history.Answers now .depth (.depth (1 + history.levelAt now)) := .depth
    rwa [Nat.add_comm, ← tracks.depth_eq] at answer
  | enter => exact .enter
  | leave =>
    obtain ⟨outer, left, _⟩ := tracks.next_leave inside performed
    rw [Operation.perform, left]
    exact .leave

end Tracks

end Step

/-! ## Whole histories -/

section Run

variable {history : History} {start stop time : Nat}

theorem tracks_environmentAt
    (inside : history.NeverLeavesGlobal)
    (before : time ≤ history.length) :
    Tracks history time (history.environmentAt time) := by
  induction time with
  | zero => exact tracks_empty history
  | succ time inductionHypothesis =>
    have performed := List.getElem?_eq_getElem before
    rw [environmentAt_succ performed]
    exact (inductionHypothesis (Nat.le_of_lt before)).next_perform inside performed

theorem depth_environmentAt
    (inside : history.NeverLeavesGlobal)
    (before : time ≤ history.length) :
    (history.environmentAt time).depth + (history.take time).count .leave =
      1 + (history.take time).count .enter := by
  have leftFewer := inside time before
  rw [(tracks_environmentAt inside before).depth_eq, levelAt]
  omega

theorem getElem?_answers_iff
    {operation : Operation}
    {answer : Answer}
    (inside : history.NeverLeavesGlobal)
    (performed : history[time]? = some operation) :
    history.answers[time]? = some answer ↔ history.Answers time operation answer := by
  obtain ⟨below, _⟩ := List.getElem?_eq_some_iff.1 performed
  have tracks := tracks_environmentAt inside (Nat.le_of_lt below)
  rw [getElem?_answers performed, Option.some_inj]
  constructor
  · rintro rfl
    exact tracks.answers_perform inside performed
  · exact tracks.perform_of_answers inside performed

/-- An assignment that fails leaves no trace. -/
theorem answers_eraseIdx_of_failed
    {name : String}
    {value : Value}
    {error : RuntimeError}
    (performed : history[time]? = some (.assign name value))
    (failed : history.answers[time]? = some (.failed error)) :
    answers (history.eraseIdx time) = history.answers.eraseIdx time := by
  refine answers_eraseIdx performed ?_
  rw [getElem?_answers performed, Option.some_inj, Operation.perform] at failed
  rw [Operation.perform]
  split
  · rename_i changed assigned
    rw [assigned] at failed
    cases failed
  · rfl

/-- What a scope that was entered and left again leaves of a scope around it: the last assignment in
it, or what was there before. -/
theorem valueOn_enclosed
    {level : Nat}
    (inside : history.NeverLeavesGlobal)
    (encloses : history.Encloses start stop)
    (outer : level ≤ history.levelAt start)
    (name : String) :
    (∃ value, history.LastAssigned level name value start stop ∧
      (history.environmentAt (stop + 1)).valueOn level name = some value) ∨
    (∀ time value, start < time → time < stop → ¬ history.Assigns level name value time) ∧
      (history.environmentAt (stop + 1)).valueOn level name =
        (history.environmentAt start).valueOn level name := by
  obtain ⟨belowStop, _⟩ := List.getElem?_eq_some_iff.1 encloses.left
  have before := tracks_environmentAt inside
    (Nat.le_of_lt (Nat.lt_trans encloses.later belowStop))
  have after := tracks_environmentAt inside (Nat.succ_le_of_lt belowStop)
  by_cases assigned : ∃ time, start < time ∧ time < stop ∧
      ∃ value, history.Assigns level name value time
  · obtain ⟨first, afterStart, beforeStop, assigns⟩ := assigned
    obtain ⟨time, afterFirst, beforeStop, ⟨value, assigns⟩, noLater⟩ :=
      exists_last (fun time => ∃ value, history.Assigns level name value time) assigns beforeStop
    have lastAssigned : history.LastAssigned level name value start stop :=
      ⟨time, Nat.lt_of_lt_of_le afterStart afterFirst, beforeStop, assigns, noLater⟩
    have written := encloses.lastWritten_of_lastAssigned inside outer lastAssigned
    exact .inl ⟨value, lastAssigned, (after.valueOn_iff level name value).2 written⟩
  · have noAssignment (time : Nat) (value : Value) (afterStart : start < time)
        (beforeStop : time < stop) : ¬ history.Assigns level name value time :=
      fun assigns => assigned ⟨time, afterStart, beforeStop, value, assigns⟩
    refine .inr ⟨noAssignment, Option.ext fun value => ?_⟩
    rw [after.valueOn_iff, before.valueOn_iff]
    exact encloses.lastWritten_iff inside outer noAssignment

end Run

/-- The environment behaves as a history of live declarations. -/
structure FollowsHistory (history : History) : Prop where
  /-- The depth is one, and what was entered, without what was left. -/
  depth (time : Nat) : time ≤ history.length →
    (history.environmentAt time).depth + (history.take time).count .leave =
      1 + (history.take time).count .enter
  /-- Every operation answers what the history says, and nothing else. -/
  answers (time : Nat) (operation : Operation) (answer : Answer) :
    history[time]? = some operation →
      (history.answers[time]? = some answer ↔ history.Answers time operation answer)
  /-- An assignment fails exactly if reading its name would. -/
  failsAsGet (time : Nat) (name : String) (value : Value) (error : RuntimeError) :
    time ≤ history.length →
      ((history.environmentAt time).assign name value = .error error ↔
        (history.environmentAt time).get name = .error error)
  /-- Without an assignment that fails, every other answer is the same. -/
  failedAssign (time : Nat) (name : String) (value : Value) (error : RuntimeError) :
    history[time]? = some (.assign name value) →
      history.answers[time]? = some (.failed error) →
        History.answers (history.eraseIdx time) = history.answers.eraseIdx time
  /-- After a scope was entered and left again, a name has in a scope around it the value that was
  assigned last in between to this very binding, or else what it had before. -/
  enclosed (start stop level : Nat) (name : String) :
    history.Encloses start stop →
      level ≤ history.levelAt start →
        (∃ value, history.LastAssigned level name value start stop ∧
          (history.environmentAt (stop + 1)).valueOn level name = some value) ∨
        (∀ time value, start < time → time < stop → ¬ history.Assigns level name value time) ∧
          (history.environmentAt (stop + 1)).valueOn level name =
            (history.environmentAt start).valueOn level name

/-- On every sequence of operations that never leaves the global scope, the environment behaves as a
history of live declarations. -/
theorem follows_history
    (history : History)
    (inside : history.NeverLeavesGlobal) :
    FollowsHistory history where
  depth _ before := depth_environmentAt inside before
  answers _ _ _ performed := getElem?_answers_iff inside performed
  failsAsGet _ _ _ _ _ := assign_eq_error_iff_get
  failedAssign _ _ _ _ performed failed := answers_eraseIdx_of_failed performed failed
  enclosed _ _ _ name encloses outer := valueOn_enclosed inside encloses outer name

/-- A name is shadowed while another one is changed from inside, and an assignment fails. -/
def shadowingHistory : History :=
  [.define "a" (.string "outer"), .define "b" (.string "before"), .enter,
    .assign "b" (.string "after"), .define "a" (.string "inner"), .get "a",
    .assign "c" .nil, .leave, .get "a", .get "b", .depth]

/-- The shadowing history is one of them, with a scope that is left again and these answers. -/
theorem follows_history_shadowing :
    shadowingHistory.NeverLeavesGlobal ∧ FollowsHistory shadowingHistory ∧
      shadowingHistory.Encloses 2 7 ∧
      shadowingHistory.answers =
        [.done, .done, .done, .done, .done, .value (.string "inner"),
          .failed (.undefinedVariable "c"), .done, .value (.string "outer"),
          .value (.string "after"), .depth 1] := by
  have inside : shadowingHistory.NeverLeavesGlobal := by decide
  have encloses : shadowingHistory.Encloses 2 7 := by
    constructor <;> decide
  exact ⟨inside, follows_history shadowingHistory inside, encloses, by rfl⟩

end Lox.Environment
