import Lox.Evaluation.Environment

/-!
Contract: histories of operations on an environment.

Owns:
- operations on an environment, their answers, and performing them one after another;
- the level of the innermost scope at each time, and for how long a scope is open;
- the open scopes in which a name was defined, the one that the name means, and what was written
  last for the name in a scope;
- the answer that a history gives to an operation, in these terms;
- how what was written last changes from one time to the next.

Does not own: that environments give these answers.

A time is the number of operations that come before it.  Levels are counted from the global scope,
which is on level zero.  Except for performing, nothing here mentions an environment.
-/

namespace Lox.Environment

/-! ## Operations -/

/-- What can be done with an environment. -/
inductive Operation where
  | define (name : String) (value : Value)
  | assign (name : String) (value : Value)
  | get (name : String)
  | depth
  | enter
  | leave
deriving DecidableEq

/-- What comes of an operation. -/
inductive Answer where
  | done
  | value (found : Value)
  | depth (scopes : Nat)
  | failed (error : RuntimeError)
  | impossible
deriving DecidableEq

/-- The answer of the operation in the environment, and the environment after it.  It is not
possible to leave the global scope. -/
def Operation.perform (environment : Environment) : Operation → Answer × Environment
  | define name value => (.done, environment.define name value)
  | assign name value =>
    match environment.assign name value with
    | .ok changed => (.done, changed)
    | .error error => (.failed error, environment)
  | get name =>
    match environment.get name with
    | .ok value => (.value value, environment)
    | .error error => (.failed error, environment)
  | depth => (.depth environment.depth, environment)
  | enter => (.done, environment.enter)
  | leave =>
    match environment.leave? with
    | some outer => (.done, outer)
    | none => (.impossible, environment)

/-- The operations that are performed one after another. -/
abbrev History := List Operation

namespace History

/-- The environment after the operations. -/
def after (environment : Environment) (history : History) : Environment :=
  history.foldl (fun environment operation => (operation.perform environment).2) environment

/-- The answers of the operations. -/
def answersFrom : Environment → History → List Answer
  | _, [] => []
  | environment, operation :: rest =>
    (operation.perform environment).1 :: answersFrom (operation.perform environment).2 rest

/-- The answers of the operations in an environment that is empty at the beginning. -/
def answers (history : History) : List Answer :=
  answersFrom {} history

/-- The environment at the time, if it is empty at the beginning. -/
def environmentAt (history : History) (time : Nat) : Environment :=
  after {} (history.take time)

/-! ## Levels -/

variable (history : History)

/-- The level of the innermost scope at the time: how many scopes were entered before it and not
left again. -/
def levelAt (time : Nat) : Nat :=
  (history.take time).count .enter - (history.take time).count .leave

/-- At no time more scopes were left than entered. -/
def NeverLeavesGlobal : Prop :=
  ∀ time ≤ history.length,
    (history.take time).count .leave ≤ (history.take time).count .enter

instance : Decidable history.NeverLeavesGlobal :=
  inferInstanceAs (Decidable (∀ time ≤ history.length, _))

/-- The scope that is on the level at the first time is not left until the second. -/
def StaysOpen (level start now : Nat) : Prop :=
  ∀ time ≤ now, start ≤ time → level ≤ history.levelAt time

instance (level start now : Nat) : Decidable (history.StaysOpen level start now) :=
  inferInstanceAs (Decidable (∀ time ≤ now, _))

/-! ## Names -/

/-- The name was defined in the scope that is on the level now. -/
def DefinedOn (level : Nat) (name : String) (now : Nat) : Prop :=
  ∃ time value, time < now ∧ history[time]? = some (.define name value) ∧
    history.levelAt time = level ∧ history.StaysOpen level time now

/-- The scope on the level is the innermost one of the open scopes in which the name was defined. -/
structure Means (level : Nat) (name : String) (now : Nat) : Prop where
  defined : history.DefinedOn level name now
  innermost (other : Nat) : history.DefinedOn other name now → other ≤ level

/-- At the time, the operation gives the name a value in the scope that is on the level. -/
inductive Writes (level : Nat) (name : String) (value : Value) (time : Nat) : Prop where
  | define (operation : history[time]? = some (.define name value))
    (innermost : history.levelAt time = level)
  | assign (operation : history[time]? = some (.assign name value))
    (resolved : history.Means level name time)

/-- The value is what was written last for the name in the scope that is on the level now. -/
def LastWritten (level : Nat) (name : String) (value : Value) (now : Nat) : Prop :=
  ∃ time < now, history.Writes level name value time ∧ history.StaysOpen level time now ∧
    ∀ later other, time < later → later < now → ¬ history.Writes level name other later

/-- What the history says that an operation answers now. -/
inductive Answers (now : Nat) : Operation → Answer → Prop where
  | define (name : String) (value : Value) : Answers now (.define name value) .done
  | enter : Answers now .enter .done
  | leave : Answers now .leave .done
  | depth : Answers now .depth (.depth (1 + history.levelAt now))
  | get {level : Nat} {name : String} {value : Value} :
    history.Means level name now → history.LastWritten level name value now →
      Answers now (.get name) (.value value)
  | assign {level : Nat} {name : String} (value : Value) :
    history.Means level name now → Answers now (.assign name value) .done
  | undefinedGet {name : String} :
    (∀ level, ¬ history.DefinedOn level name now) →
      Answers now (.get name) (.failed (.undefinedVariable name))
  | undefinedAssign {name : String} (value : Value) :
    (∀ level, ¬ history.DefinedOn level name now) →
      Answers now (.assign name value) (.failed (.undefinedVariable name))

/-- The scope that is entered at the first time is left at the second. -/
structure Encloses (start stop : Nat) : Prop where
  entered : history[start]? = some .enter
  left : history[stop]? = some .leave
  later : start < stop
  staysOpen : history.StaysOpen (history.levelAt start + 1) (start + 1) stop
  sameLevel : history.levelAt stop = history.levelAt start + 1

/-- At the time, the operation assigns the name in the scope that is on the level. -/
def Assigns (level : Nat) (name : String) (value : Value) (time : Nat) : Prop :=
  history[time]? = some (.assign name value) ∧ history.Means level name time

/-- The value is the one that was assigned last between the times for the name in the scope that is
on the level. -/
def LastAssigned (level : Nat) (name : String) (value : Value) (start stop : Nat) : Prop :=
  ∃ time, start < time ∧ time < stop ∧ history.Assigns level name value time ∧
    ∀ later, time < later → later < stop → ¬ ∃ other, history.Assigns level name other later

/-! ## From one time to the next -/

variable {history} {level start now time : Nat} {name : String} {value : Value}
variable {operation : Operation}

theorem take_succ (performed : history[time]? = some operation) :
    history.take (time + 1) = history.take time ++ [operation] := by
  rw [List.take_add_one, performed]
  rfl

theorem environmentAt_succ (performed : history[time]? = some operation) :
    history.environmentAt (time + 1) = (operation.perform (history.environmentAt time)).2 := by
  rw [environmentAt, take_succ performed, after, List.foldl_append]
  rfl

theorem answersFrom_append (environment : Environment) (first second : History) :
    answersFrom environment (first ++ second) =
      answersFrom environment first ++ answersFrom (after environment first) second := by
  induction first generalizing environment with
  | nil => rfl
  | cons operation first inductionHypothesis =>
    rw [List.cons_append, answersFrom, inductionHypothesis, answersFrom]
    rfl

theorem length_answersFrom (environment : Environment) (history : History) :
    (answersFrom environment history).length = history.length := by
  induction history generalizing environment with
  | nil => rfl
  | cons operation rest inductionHypothesis =>
    rw [answersFrom, List.length_cons, inductionHypothesis, List.length_cons]

/-- The answers before an operation, its own in the environment at its time, and those behind it. -/
theorem answers_eq (performed : history[time]? = some operation) :
    history.answers =
      answersFrom {} (history.take time) ++
        (operation.perform (history.environmentAt time)).1 ::
          answersFrom (history.environmentAt (time + 1)) (history.drop (time + 1)) := by
  obtain ⟨below, rfl⟩ := List.getElem?_eq_some_iff.1 performed
  have parts : history.take time ++ history[time] :: history.drop (time + 1) = history := by
    rw [← List.drop_eq_getElem_cons below, List.take_append_drop]
  rw [environmentAt_succ performed, environmentAt, ← answersFrom, ← answersFrom_append, parts]
  rfl

theorem length_answersFrom_take (performed : history[time]? = some operation) :
    (answersFrom {} (history.take time)).length = time := by
  obtain ⟨below, _⟩ := List.getElem?_eq_some_iff.1 performed
  rw [length_answersFrom, List.length_take_of_le (Nat.le_of_lt below)]

theorem getElem?_answers (performed : history[time]? = some operation) :
    history.answers[time]? = some (operation.perform (history.environmentAt time)).1 := by
  have length_eq := length_answersFrom_take performed
  rw [answers_eq performed, List.getElem?_append_right (Nat.le_of_eq length_eq), length_eq,
    Nat.sub_self]
  rfl

/-- Without an operation that does not change the environment, the other answers are the same. -/
theorem answers_eraseIdx
    (performed : history[time]? = some operation)
    (unchanged : (operation.perform (history.environmentAt time)).2 = history.environmentAt time) :
    answers (history.eraseIdx time) = history.answers.eraseIdx time := by
  have length_eq := length_answersFrom_take performed
  rw [answers_eq performed, List.eraseIdx_append_of_length_le (Nat.le_of_eq length_eq), length_eq,
    Nat.sub_self, List.eraseIdx_cons_zero, environmentAt_succ performed, unchanged, answers,
    List.eraseIdx_eq_take_drop_succ, answersFrom_append]
  rfl

theorem levelAt_succ_of_stays
    (performed : history[time]? = some operation)
    (notEnter : operation ≠ .enter)
    (notLeave : operation ≠ .leave) :
    history.levelAt (time + 1) = history.levelAt time := by
  simp [levelAt, take_succ performed, notEnter, notLeave]

theorem levelAt_succ_of_enter
    (inside : history.NeverLeavesGlobal)
    (performed : history[time]? = some .enter) :
    history.levelAt (time + 1) = history.levelAt time + 1 := by
  obtain ⟨below, _⟩ := List.getElem?_eq_some_iff.1 performed
  have entered := inside time (Nat.le_of_lt below)
  simp only [levelAt, take_succ performed, List.count_append, List.count_singleton]
  simp
  omega

theorem levelAt_succ_of_leave
    (inside : history.NeverLeavesGlobal)
    (performed : history[time]? = some .leave) :
    history.levelAt (time + 1) + 1 = history.levelAt time := by
  obtain ⟨below, _⟩ := List.getElem?_eq_some_iff.1 performed
  have entered := inside (time + 1) below
  simp only [take_succ performed, List.count_append, List.count_singleton] at entered
  simp only [levelAt, take_succ performed, List.count_append, List.count_singleton]
  simp at entered ⊢
  omega

theorem StaysOpen.level_le
    (staysOpen : history.StaysOpen level start now)
    (before : start ≤ now) :
    level ≤ history.levelAt now :=
  staysOpen now (Nat.le_refl now) before

theorem StaysOpen.trans
    {middle : Nat}
    (first : history.StaysOpen level start middle)
    (second : history.StaysOpen level middle now) :
    history.StaysOpen level start now := by
  intro time before after
  by_cases early : time ≤ middle
  · exact first time early after
  · exact second time before (Nat.le_of_not_le early)

theorem StaysOpen.within
    {first last : Nat}
    (staysOpen : history.StaysOpen level start now)
    (after : start ≤ first)
    (before : last ≤ now) :
    history.StaysOpen level first last :=
  fun time beforeLast afterFirst =>
    staysOpen time (Nat.le_trans beforeLast before) (Nat.le_trans after afterFirst)

theorem staysOpen_succ
    (here : level ≤ history.levelAt now)
    (next : level ≤ history.levelAt (now + 1)) :
    history.StaysOpen level now (now + 1) := by
  intro time before after
  obtain rfl | rfl : time = now ∨ time = now + 1 := by omega
  · exact here
  · exact next

theorem DefinedOn.level_le (defined : history.DefinedOn level name now) :
    level ≤ history.levelAt now := by
  obtain ⟨time, _, before, _, _, staysOpen⟩ := defined
  exact staysOpen.level_le (Nat.le_of_lt before)

theorem Writes.level_le (writes : history.Writes level name value time) :
    level ≤ history.levelAt time := by
  cases writes with
  | define _ innermost => exact Nat.le_of_eq innermost.symm
  | assign _ resolved => exact resolved.defined.level_le

theorem Means.unique
    {other : Nat}
    (means : history.Means level name now)
    (also : history.Means other name now) :
    other = level :=
  Nat.le_antisymm (means.innermost other also.defined) (also.innermost level means.defined)

theorem Writes.performed (writes : history.Writes level name value time) :
    history[time]? = some (.define name value) ∨ history[time]? = some (.assign name value) := by
  cases writes with
  | define operation _ => exact .inl operation
  | assign operation _ => exact .inr operation

theorem not_writes
    (performed : history[time]? = some operation)
    (notDefine : ∀ bound given, operation ≠ .define bound given)
    (notAssign : ∀ bound given, operation ≠ .assign bound given)
    (level : Nat)
    (name : String)
    (value : Value) :
    ¬ history.Writes level name value time := by
  intro writes
  rcases writes.performed with defines | assigns
  · exact notDefine name value (Option.some.inj (performed.symm.trans defines))
  · exact notAssign name value (Option.some.inj (performed.symm.trans assigns))

theorem writes_iff_of_define
    {bound : String}
    {given : Value}
    (performed : history[time]? = some (.define bound given)) :
    history.Writes level name value time ↔
      (level = history.levelAt time ∧ name = bound) ∧ value = given := by
  constructor
  · intro writes
    cases writes with
    | define operation innermost =>
      cases performed.symm.trans operation
      exact ⟨⟨innermost.symm, rfl⟩, rfl⟩
    | assign operation _ => cases performed.symm.trans operation
  · rintro ⟨⟨rfl, rfl⟩, rfl⟩
    exact .define performed rfl

theorem writes_iff_of_assign
    {bound : String}
    {given : Value}
    {resolved : Nat}
    (performed : history[time]? = some (.assign bound given))
    (means : history.Means resolved bound time) :
    history.Writes level name value time ↔
      (level = resolved ∧ name = bound) ∧ value = given := by
  constructor
  · intro writes
    cases writes with
    | define operation _ => cases performed.symm.trans operation
    | assign operation also =>
      cases performed.symm.trans operation
      exact ⟨⟨means.unique also, rfl⟩, rfl⟩
  · rintro ⟨⟨rfl, rfl⟩, rfl⟩
    exact .assign performed means

/-- An assignment of a name that means nothing writes nothing. -/
theorem not_writes_of_undefined
    {bound : String}
    {given : Value}
    (performed : history[time]? = some (.assign bound given))
    (undefined : ∀ level, ¬ history.DefinedOn level bound time)
    (level : Nat)
    (name : String)
    (value : Value) :
    ¬ history.Writes level name value time := by
  intro writes
  cases writes with
  | define operation _ => cases performed.symm.trans operation
  | assign operation means =>
    cases performed.symm.trans operation
    exact undefined level means.defined

/-- What was written last changes with a write on the level, and is gone when the scope is left. -/
theorem lastWritten_succ_iff :
    history.LastWritten level name value (now + 1) ↔
      level ≤ history.levelAt (now + 1) ∧
        (history.Writes level name value now ∨
          (∀ other, ¬ history.Writes level name other now) ∧
            history.LastWritten level name value now) := by
  constructor
  · rintro ⟨time, before, writes, staysOpen, noLater⟩
    refine ⟨staysOpen.level_le (Nat.le_of_lt before), ?_⟩
    rcases Nat.lt_succ_iff_lt_or_eq.1 before with earlier | rfl
    · refine .inr ⟨fun other => noLater now other earlier (Nat.lt_succ_self now), time, earlier,
        writes, staysOpen.within (Nat.le_refl time) (Nat.le_succ now), ?_⟩
      intro later other afterTime beforeNow
      exact noLater later other afterTime (Nat.lt_succ_of_lt beforeNow)
    · exact .inl writes
  · rintro ⟨next, writes | ⟨noWrite, time, earlier, writes, staysOpen, noLater⟩⟩
    · refine ⟨now, Nat.lt_succ_self now, writes, staysOpen_succ writes.level_le next, ?_⟩
      intro later other afterNow beforeNext
      omega
    · have here := staysOpen.level_le (Nat.le_of_lt earlier)
      refine ⟨time, Nat.lt_succ_of_lt earlier, writes, staysOpen.trans (staysOpen_succ here next),
        ?_⟩
      intro later other afterTime beforeNext
      rcases Nat.lt_succ_iff_lt_or_eq.1 beforeNext with beforeNow | rfl
      · exact noLater later other afterTime beforeNow
      · exact noWrite other

/-- Of the times at which something holds, one is the last before now. -/
theorem exists_last
    (Holds : Nat → Prop)
    (holds : Holds start)
    (before : start < now) :
    ∃ last, start ≤ last ∧ last < now ∧ Holds last ∧
      ∀ later, last < later → later < now → ¬ Holds later := by
  induction now with
  | zero => exact absurd before (Nat.not_lt_zero start)
  | succ now inductionHypothesis =>
    by_cases atEnd : Holds now
    · refine ⟨now, Nat.le_of_lt_succ before, Nat.lt_succ_self now, atEnd, ?_⟩
      intro later afterNow beforeNext
      omega
    · have earlier : start < now := by
        refine Nat.lt_of_le_of_ne (Nat.le_of_lt_succ before) ?_
        rintro rfl
        exact atEnd holds
      obtain ⟨last, after, beforeNow, holdsLast, noLater⟩ := inductionHypothesis earlier
      refine ⟨last, after, Nat.lt_succ_of_lt beforeNow, holdsLast, ?_⟩
      intro later afterLast beforeNext
      rcases Nat.lt_succ_iff_lt_or_eq.1 beforeNext with beforeNow | rfl
      · exact noLater later afterLast beforeNow
      · exact atEnd

/-- A name was defined in a scope that is open exactly if something was written for it there. -/
theorem definedOn_iff_exists_lastWritten :
    history.DefinedOn level name now ↔ ∃ value, history.LastWritten level name value now := by
  constructor
  · rintro ⟨start, first, before, operation, innermost, staysOpen⟩
    have written : ∃ value, history.Writes level name value start :=
      ⟨first, .define operation innermost⟩
    obtain ⟨time, after, beforeNow, ⟨value, writes⟩, noLater⟩ :=
      exists_last (fun time => ∃ value, history.Writes level name value time) written before
    refine ⟨value, time, beforeNow, writes, staysOpen.within after (Nat.le_refl now), ?_⟩
    intro later other afterTime beforeNow writes
    exact noLater later afterTime beforeNow ⟨other, writes⟩
  · rintro ⟨value, time, before, writes, staysOpen, _⟩
    cases writes with
    | define operation innermost => exact ⟨time, value, before, operation, innermost, staysOpen⟩
    | assign _ resolved =>
      -- The scope in which the name was resolved is the one that is still open.
      obtain ⟨start, first, earlier, operation, innermost, wasOpen⟩ := resolved.defined
      exact ⟨start, first, Nat.lt_trans earlier before, operation, innermost,
        wasOpen.trans staysOpen⟩

/-! ## Scopes that are left -/

namespace Encloses

variable {stop : Nat}

/-- A scope around the one that is entered and left stays open. -/
theorem outerStaysOpen
    (inside : history.NeverLeavesGlobal)
    (encloses : history.Encloses start stop)
    (outer : level ≤ history.levelAt start) :
    history.StaysOpen level start (stop + 1) := by
  intro time before after
  have left := levelAt_succ_of_leave inside encloses.left
  have sameLevel := encloses.sameLevel
  rcases Nat.eq_or_lt_of_le after with rfl | later
  · exact outer
  · rcases Nat.eq_or_lt_of_le before with rfl | earlier
    · omega
    · have between := encloses.staysOpen time (Nat.le_of_lt_succ earlier) later
      omega

/-- From when a scope is entered until it is left, nothing but an assignment writes in a scope
around it. -/
theorem assigns_of_writes
    (encloses : history.Encloses start stop)
    (outer : level ≤ history.levelAt start)
    (after : start ≤ time)
    (before : time ≤ stop)
    (writes : history.Writes level name value time) :
    start < time ∧ time < stop ∧ history.Assigns level name value time := by
  have performed := writes.performed
  have notStart : start ≠ time := by
    rintro rfl
    simp [encloses.entered] at performed
  have notStop : time ≠ stop := by
    rintro rfl
    simp [encloses.left] at performed
  refine ⟨Nat.lt_of_le_of_ne after notStart, Nat.lt_of_le_of_ne before notStop, ?_⟩
  cases writes with
  | define _ innermost =>
    have between := encloses.staysOpen time before (Nat.lt_of_le_of_ne after notStart)
    omega
  | assign operation resolved => exact ⟨operation, resolved⟩

/-- What was assigned last until the scope is left is what was written last. -/
theorem lastWritten_of_lastAssigned
    (inside : history.NeverLeavesGlobal)
    (encloses : history.Encloses start stop)
    (outer : level ≤ history.levelAt start)
    (lastAssigned : history.LastAssigned level name value start stop) :
    history.LastWritten level name value (stop + 1) := by
  obtain ⟨time, after, before, assigns, noLater⟩ := lastAssigned
  have staysOpen := encloses.outerStaysOpen inside outer
  refine ⟨time, Nat.lt_succ_of_lt before, .assign assigns.1 assigns.2,
    staysOpen.within (Nat.le_of_lt after) (Nat.le_refl _), ?_⟩
  intro later other afterTime beforeLeft writes
  have afterStart := Nat.le_of_lt (Nat.lt_trans after afterTime)
  obtain ⟨_, beforeStop, isAssignment⟩ :=
    encloses.assigns_of_writes outer afterStart (Nat.le_of_lt_succ beforeLeft) writes
  exact noLater later afterTime beforeStop ⟨other, isAssignment⟩

/-- Without an assignment until the scope is left, what was written last is what it was when the
scope was entered. -/
theorem lastWritten_iff
    (inside : history.NeverLeavesGlobal)
    (encloses : history.Encloses start stop)
    (outer : level ≤ history.levelAt start)
    (noAssignment : ∀ time value, start < time → time < stop →
      ¬ history.Assigns level name value time) :
    history.LastWritten level name value (stop + 1) ↔
      history.LastWritten level name value start := by
  have staysOpen := encloses.outerStaysOpen inside outer
  have noWrite {time : Nat} {other : Value} (after : start ≤ time) (before : time < stop + 1) :
      ¬ history.Writes level name other time := by
    intro writes
    obtain ⟨afterStart, beforeStop, assigns⟩ :=
      encloses.assigns_of_writes outer after (Nat.le_of_lt_succ before) writes
    exact noAssignment time other afterStart beforeStop assigns
  have startFirst : start ≤ stop + 1 := Nat.le_succ_of_le (Nat.le_of_lt encloses.later)
  constructor
  · rintro ⟨time, before, writes, wasOpen, noLater⟩
    have early : time < start := by
      refine Nat.lt_of_not_le fun after => ?_
      exact noWrite after before writes
    refine ⟨time, early, writes, wasOpen.within (Nat.le_refl time) startFirst, ?_⟩
    intro later other afterTime beforeStart
    exact noLater later other afterTime (Nat.lt_of_lt_of_le beforeStart startFirst)
  · rintro ⟨time, before, writes, wasOpen, noLater⟩
    refine ⟨time, Nat.lt_of_lt_of_le before startFirst, writes, wasOpen.trans staysOpen, ?_⟩
    intro later other afterTime beforeLeft
    by_cases early : later < start
    · exact noLater later other afterTime early
    · exact noWrite (Nat.le_of_not_lt early) beforeLeft

end Encloses

end History

end Lox.Environment
