import Lox.Evaluation.Statement

/-!
Contract: what execution has to do with the output.

Owns:
- programs after programs;
- that execution does no more to an output than write texts to it, as a law on related outputs;
- that what is in an output before the execution is still there after it and changes nothing else;
- that an output never holds more than its capacity.

Does not own: what the texts are.
-/

namespace Lox

/-! ## Programs after programs -/

/-- The second program is executed where the first one stops without an error. -/
theorem executeAll_append (first second : Program) (world : World) :
    executeAll (first ++ second) world =
      match executeAll first world with
      | (.error error, world) => (.error error, world)
      | (.ok (), world) => executeAll second world := by
  induction first generalizing world with
  | nil => rfl
  | cons statement rest inductionHypothesis =>
    rw [List.cons_append, executeAll, executeAll]
    rcases statement.execute world with ⟨_ | _, world⟩
    · rfl
    · exact inductionHypothesis world

/-! ## Related outputs -/

/-- Writing a text to related outputs has the same result and leaves them related. -/
def Sink.KeptByWriting (related : Sink → Sink → Prop) : Prop :=
  ∀ (text : String) (left right : Sink), related left right →
    (left.write text).1 = (right.write text).1 ∧ related (left.write text).2 (right.write text).2

/-- Worlds with the same bindings and related outputs. -/
structure World.Related (related : Sink → Sink → Prop) (left right : World) : Prop where
  environment_eq : left.environment = right.environment
  sinks : related left.sink right.sink

/-- The same result in related worlds. -/
structure SameOutcome
    {Result : Type}
    (related : Sink → Sink → Prop)
    (left right : Except RuntimeError Result × World) : Prop where
  result_eq : left.1 = right.1
  worlds : World.Related related left.2 right.2

theorem SameOutcome.exists_eq
    {Result : Type}
    {related : Sink → Sink → Prop}
    {left right : Except RuntimeError Result × World}
    (same : SameOutcome related left right) :
    ∃ result leftWorld rightWorld, left = (result, leftWorld) ∧ right = (result, rightWorld) ∧
      World.Related related leftWorld rightWorld := by
  obtain ⟨leftResult, leftWorld⟩ := left
  obtain ⟨rightResult, rightWorld⟩ := right
  obtain ⟨rfl, worlds⟩ := same
  exact ⟨leftResult, leftWorld, rightWorld, rfl, rfl, worlds⟩

variable {related : Sink → Sink → Prop} {left right : World}

theorem World.Related.evaluate
    (worlds : World.Related related left right)
    (tree : Expr) :
    SameOutcome related (left.evaluate tree) (right.evaluate tree) := by
  obtain ⟨leftEnvironment, leftSink⟩ := left
  obtain ⟨rightEnvironment, rightSink⟩ := right
  obtain ⟨rfl, sinks⟩ := worlds
  exact ⟨rfl, rfl, sinks⟩

theorem World.Related.write
    (kept : Sink.KeptByWriting related)
    (worlds : World.Related related left right)
    (text : String) :
    SameOutcome related (left.write text) (right.write text) := by
  obtain ⟨sameResult, sinks⟩ := kept text left.sink right.sink worlds.sinks
  unfold World.write
  rcases leftWritten : left.sink.write text with ⟨leftResult, leftSink⟩
  rcases rightWritten : right.sink.write text with ⟨rightResult, rightSink⟩
  rw [leftWritten, rightWritten] at sameResult sinks
  cases sameResult
  cases leftResult with
  | error fault => exact ⟨rfl, worlds.environment_eq, sinks⟩
  | ok => exact ⟨rfl, worlds.environment_eq, sinks⟩

theorem World.Related.define
    (worlds : World.Related related left right)
    (name : Name)
    (value : Value) :
    World.Related related (left.define name value) (right.define name value) :=
  ⟨congrArg (Environment.define name.lexeme value) worlds.environment_eq, worlds.sinks⟩

theorem World.Related.enter (worlds : World.Related related left right) :
    World.Related related left.enter right.enter :=
  ⟨congrArg Environment.enter worlds.environment_eq, worlds.sinks⟩

theorem World.Related.leave (worlds : World.Related related left right) :
    World.Related related left.leave right.leave :=
  ⟨by rw [World.leave, World.leave, worlds.environment_eq], worlds.sinks⟩

mutual

theorem Statement.execute_related (kept : Sink.KeptByWriting related) :
    (statement : Statement Expr) → {left right : World} →
      World.Related related left right →
      SameOutcome related (statement.execute left) (statement.execute right)
  | .expression tree, left, right, worlds => by
    obtain ⟨result, leftWorld, rightWorld, leftFound, rightFound, worlds⟩ :=
      (worlds.evaluate tree).exists_eq
    rw [Statement.execute, Statement.execute, leftFound, rightFound]
    cases result with
    | error error => exact ⟨rfl, worlds⟩
    | ok value => exact ⟨rfl, worlds⟩
  | .print tree, left, right, worlds => by
    obtain ⟨result, leftWorld, rightWorld, leftFound, rightFound, worlds⟩ :=
      (worlds.evaluate tree).exists_eq
    rw [Statement.execute, Statement.execute, leftFound, rightFound]
    cases result with
    | error error => exact ⟨rfl, worlds⟩
    | ok value => exact worlds.write kept (value.text ++ "\n")
  | .var name none, left, right, worlds => ⟨rfl, worlds.define name .nil⟩
  | .var name (some initializer), left, right, worlds => by
    obtain ⟨result, leftWorld, rightWorld, leftFound, rightFound, worlds⟩ :=
      (worlds.evaluate initializer).exists_eq
    rw [Statement.execute, Statement.execute, leftFound, rightFound]
    cases result with
    | error error => exact ⟨rfl, worlds⟩
    | ok value => exact ⟨rfl, worlds.define name value⟩
  | .block body, left, right, worlds => by
    obtain ⟨sameResult, worlds⟩ := executeAll_related kept body worlds.enter
    exact ⟨sameResult, worlds.leave⟩

/-- In related worlds a program has the same result and leaves them related. -/
theorem executeAll_related (kept : Sink.KeptByWriting related) :
    (program : List (Statement Expr)) → {left right : World} →
      World.Related related left right →
      SameOutcome related (executeAll program left) (executeAll program right)
  | [], left, right, worlds => ⟨rfl, worlds⟩
  | statement :: rest, left, right, worlds => by
    obtain ⟨result, leftWorld, rightWorld, leftDone, rightDone, worlds⟩ :=
      (statement.execute_related kept worlds).exists_eq
    rw [executeAll, executeAll, leftDone, rightDone]
    cases result with
    | error error => exact ⟨rfl, worlds⟩
    | ok => exact executeAll_related kept rest worlds

end

/-! ## What is in an output before -/

namespace Capacity

/-- The capacity with room for more bytes. -/
def grow (bytes : Nat) : Capacity → Capacity
  | .unlimited => .unlimited
  | .limited limit whenFull => .limited (limit + bytes) whenFull

/-- What is left of the capacity when that many bytes are taken. -/
def remaining (bytes : Nat) : Capacity → Capacity
  | .unlimited => .unlimited
  | .limited limit whenFull => .limited (limit - bytes) whenFull

/-- Whether that many bytes fit. -/
def Fits (bytes : Nat) : Capacity → Prop
  | .unlimited => True
  | .limited limit _ => bytes ≤ limit

theorem grow_remaining {bytes : Nat} {capacity : Capacity} (fits : capacity.Fits bytes) :
    (capacity.remaining bytes).grow bytes = capacity := by
  cases capacity with
  | unlimited => rfl
  | limited limit whenFull => rw [remaining, grow, Nat.sub_add_cancel fits]

end Capacity

namespace Sink

/-- The output with bytes in it before the ones that it has, and as much room as it had. -/
def preceded (before : ByteArray) (sink : Sink) : Sink where
  capacity := sink.capacity.grow before.size
  written := before ++ sink.written

/-- Bytes that are in an output before change nothing else. -/
theorem keptByWriting_preceded (before : ByteArray) :
    KeptByWriting fun left right => left = right.preceded before := by
  rintro text _ ⟨capacity, written⟩ rfl
  cases capacity with
  | unlimited =>
    refine ⟨rfl, ?_⟩
    simp only [write, preceded, Capacity.grow, ByteArray.append_assoc]
  | limited limit whenFull =>
    have sizes : (before ++ written).size = before.size + written.size := ByteArray.size_append
    by_cases fits : written.size + text.toUTF8.size ≤ limit
    · have fitsAfter : (before ++ written).size + text.toUTF8.size ≤ limit + before.size := by
        omega
      simp only [write, preceded, Capacity.grow, if_pos fits, if_pos fitsAfter,
        ByteArray.append_assoc, and_self]
    · have fullAfter : ¬ (before ++ written).size + text.toUTF8.size ≤ limit + before.size := by
        omega
      have room : limit + before.size - (before ++ written).size = limit - written.size := by
        omega
      simp only [write, preceded, Capacity.grow, if_neg fits, if_neg fullAfter, room,
        ByteArray.append_assoc, and_self]

/-- An output has its capacity and holds no more than that. -/
theorem keptByWriting_fits (capacity : Capacity) :
    KeptByWriting fun left right =>
      left = right ∧ right.capacity = capacity ∧ capacity.Fits right.written.size := by
  rintro text left ⟨held, written⟩ ⟨rfl, same, fits⟩
  change held = capacity at same
  subst same
  refine ⟨rfl, rfl, ?_⟩
  cases held with
  | unlimited => exact ⟨rfl, trivial⟩
  | limited limit whenFull =>
    by_cases taken : written.size + text.toUTF8.size ≤ limit
    · simp only [write, if_pos taken, Capacity.Fits, ByteArray.size_append, true_and]
      exact taken
    · simp only [write, if_neg taken, Capacity.Fits, ByteArray.size_append, true_and,
        ByteArray.size_extract]
      change written.size ≤ limit at fits
      omega

end Sink

/-! ## Executions one after another -/

/-- A program that is executed on an output with bytes in it has the result and the bindings that
it has on an empty one with the room that is left, and its output comes after those bytes. -/
theorem executeAll_after
    (program : Program)
    (environment : Environment)
    (sink : Sink)
    (fits : sink.capacity.Fits sink.written.size) :
    executeAll program ⟨environment, sink⟩ =
      match executeAll program
        ⟨environment, { capacity := sink.capacity.remaining sink.written.size }⟩ with
      | (result, world) =>
        (result, { world with sink := world.sink.preceded sink.written }) := by
  -- The output is an empty one with less room, preceded by what is in it.
  have whole : sink = Sink.preceded sink.written
      { capacity := sink.capacity.remaining sink.written.size } := by
    rw [Sink.preceded, Capacity.grow_remaining fits, ByteArray.append_empty]
  have start : World.Related (fun left right => left = right.preceded sink.written)
      ⟨environment, sink⟩
      ⟨environment, { capacity := sink.capacity.remaining sink.written.size }⟩ :=
    ⟨rfl, whole⟩
  obtain ⟨result, left, right, leftDone, rightDone, worlds⟩ :=
    (executeAll_related (Sink.keptByWriting_preceded sink.written) program start).exists_eq
  rw [leftDone, rightDone]
  obtain ⟨leftEnvironment, leftSink⟩ := left
  obtain ⟨rfl, sinks⟩ := worlds
  exact congrArg (fun sink => (result, World.mk right.environment sink)) sinks

/-- An execution keeps the capacity of an output, and what is written stays within it. -/
theorem executeAll_fits
    (program : Program)
    (world : World)
    (fits : world.sink.capacity.Fits world.sink.written.size) :
    (executeAll program world).2.sink.capacity = world.sink.capacity ∧
      world.sink.capacity.Fits (executeAll program world).2.sink.written.size := by
  have start : World.Related (fun left right => left = right ∧
      right.capacity = world.sink.capacity ∧ world.sink.capacity.Fits right.written.size)
      world world :=
    ⟨rfl, rfl, rfl, fits⟩
  have done := executeAll_related (Sink.keptByWriting_fits world.sink.capacity) program start
  exact done.worlds.sinks.2

end Lox
