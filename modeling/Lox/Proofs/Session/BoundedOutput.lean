import Lox.Proofs.Evaluation.Frame
import Lox.Proofs.Evaluation.Output
import Lox.Session

/-!
Contract: executions on an output that is too small.

Owns:
- the places where an execution comes to print a value, and the world there;
- that executions on an output without and with a limit go in step up to the `print` that passes
  the limit, and that the one with the limit ends there;
- that texts may be written in pieces.

Does not own: outputs that fail for other reasons.
-/

namespace Lox

/-! ## Writing -/

private theorem extract_append_of_size_le
    {first second : ByteArray}
    {limit : Nat}
    (fits : first.size ≤ limit) :
    (first ++ second).extract 0 limit = first ++ second.extract 0 (limit - first.size) := by
  have whole : first.extract 0 limit = first := by
    rw [← Nat.max_eq_left fits, ByteArray.extract_zero_max_size]
  rw [ByteArray.extract_append, whole, Nat.zero_sub]

private theorem extract_append_of_le_size
    {first second : ByteArray}
    {limit : Nat}
    (full : limit ≤ first.size) :
    (first ++ second).extract 0 limit = first.extract 0 limit := by
  rw [ByteArray.extract_append, Nat.sub_eq_zero_of_le full, Nat.zero_sub, ByteArray.extract_same,
    ByteArray.append_empty]

namespace Sink

section Limited

variable {text : String} {written : ByteArray} {limit : Nat} {whenFull : WriteFault}

theorem write_of_size_le (fits : (written ++ text.toUTF8).size ≤ limit) :
    write text ⟨.limited limit whenFull, written⟩ =
      (.ok (), ⟨.limited limit whenFull, written ++ text.toUTF8⟩) := by
  rw [ByteArray.size_append] at fits
  exact if_pos fits

/-- A text that does not fit is cut off where the output is full. -/
theorem write_of_lt_size
    (fits : written.size ≤ limit)
    (full : limit < (written ++ text.toUTF8).size) :
    write text ⟨.limited limit whenFull, written⟩ =
      (.error whenFull, ⟨.limited limit whenFull, (written ++ text.toUTF8).extract 0 limit⟩) := by
  rw [ByteArray.size_append] at full
  rw [extract_append_of_size_le fits]
  exact if_neg (Nat.not_le_of_lt full)

end Limited

/-- Writing a text in two pieces is writing it whole, where the output held no more than its
capacity. -/
theorem write_append
    {sink : Sink}
    (first second : String)
    (fits : sink.capacity.Fits sink.written.size) :
    sink.write (first ++ second) =
      match sink.write first with
      | (.error fault, sink) => (.error fault, sink)
      | (.ok (), sink) => sink.write second := by
  obtain ⟨capacity, written⟩ := sink
  have pieces : (first ++ second).toUTF8 = first.toUTF8 ++ second.toUTF8 := rfl
  cases capacity with
  | unlimited => simp only [write, pieces, ByteArray.append_assoc]
  | limited limit whenFull =>
    change written.size ≤ limit at fits
    rcases Nat.lt_or_ge limit (written ++ first.toUTF8).size with full | firstFits
    · have fullOfBoth : limit < (written ++ (first ++ second).toUTF8).size := by
        rw [pieces, ← ByteArray.append_assoc, ByteArray.size_append]
        omega
      rw [write_of_lt_size fits full, write_of_lt_size fits fullOfBoth, pieces,
        ← ByteArray.append_assoc, extract_append_of_le_size (Nat.le_of_lt full)]
    · rw [write_of_size_le firstFits]
      dsimp only
      rcases Nat.lt_or_ge limit (written ++ (first ++ second).toUTF8).size with full | bothFit
      · rw [write_of_lt_size fits full]
        rw [pieces, ← ByteArray.append_assoc] at full ⊢
        rw [write_of_lt_size firstFits full]
      · rw [write_of_size_le bothFit]
        rw [pieces, ← ByteArray.append_assoc] at bothFit ⊢
        rw [write_of_size_le bothFit]

end Sink

/-! ## Places of printing -/

mutual

/-- Executing the statement comes to print the value in the world.  In a block, the place of that
`print` is its place among the statements of the block. -/
inductive Statement.Prints : Statement Expr → World → List Nat → Value → World → Prop where
  | print
    {tree : Expr}
    {start reached : World}
    {value : Value}
    (evaluated : start.evaluate tree = (.ok value, reached)) :
    Statement.Prints (.print tree) start [] value reached
  | block
    {body : List (Statement Expr)}
    {start reached : World}
    {place : List Nat}
    {value : Value}
    (inside : Program.Prints body start.enter place value reached) :
    Statement.Prints (.block body) start place value reached

/-- Executing the statements comes to print the value in the world.  The place of that `print` is
the index of a statement and its place in that statement. -/
inductive Program.Prints : List (Statement Expr) → World → List Nat → Value → World → Prop where
  | here
    {statement : Statement Expr}
    {rest : List (Statement Expr)}
    {start reached : World}
    {place : List Nat}
    {value : Value}
    (prints : statement.Prints start place value reached) :
    Program.Prints (statement :: rest) start (0 :: place) value reached
  | later
    {statement : Statement Expr}
    {rest : List (Statement Expr)}
    {start next reached : World}
    {index : Nat}
    {place : List Nat}
    {value : Value}
    (executed : statement.execute start = (.ok (), next))
    (prints : Program.Prints rest next (index :: place) value reached) :
    Program.Prints (statement :: rest) start ((index + 1) :: place) value reached

end

theorem Program.Prints.exists_place_eq_cons
    {program : List (Statement Expr)}
    {start reached : World}
    {place : List Nat}
    {value : Value}
    (prints : Program.Prints program start place value reached) :
    ∃ index path, place = index :: path := by
  cases prints with
  | here => exact ⟨_, _, rfl⟩
  | later => exact ⟨_, _, rfl⟩

/-! ## Executions in step -/

/-- The world with another capacity of its output. -/
def World.withCapacity (capacity : Capacity) (world : World) : World :=
  { world with sink := { world.sink with capacity := capacity } }

/-- What an execution comes to without and with a limit of the output: the same, or an end of the
one with the limit at a `print` that both come to. -/
inductive InStep
    (limit : Nat)
    (whenFull : WriteFault)
    (prints : World → List Nat → Value → World → Prop)
    (start : World) :
    Except RuntimeError Unit × World → Except RuntimeError Unit × World → Prop where
  | together
    {result : Except RuntimeError Unit}
    {world : World}
    (unlimited : world.sink.capacity = .unlimited)
    (fits : world.sink.written.size ≤ limit) :
    InStep limit whenFull prints start
      (result, world) (result, world.withCapacity (.limited limit whenFull))
  | stopped
    {result : Except RuntimeError Unit}
    {world reached left : World}
    {place : List Nat}
    {value : Value}
    {more : ByteArray}
    (printed : prints start place value reached)
    (printedLimited : prints (start.withCapacity (.limited limit whenFull)) place value
      (reached.withCapacity (.limited limit whenFull)))
    (fits : reached.sink.written.size ≤ limit)
    (full : limit < (reached.sink.written ++ (value.text ++ "\n").toUTF8).size)
    (unlimited : world.sink.capacity = .unlimited)
    (continued : world.sink.written = reached.sink.written ++ (value.text ++ "\n").toUTF8 ++ more)
    (written : left.sink.written =
      (reached.sink.written ++ (value.text ++ "\n").toUTF8).extract 0 limit)
    (scopes : left.environment.scopes <:+ reached.environment.scopes) :
    InStep limit whenFull prints start (result, world) (.error (.output whenFull), left)

section InStep

variable {limit : Nat} {whenFull : WriteFault} {start : World}

theorem World.evaluate_withCapacity (tree : Expr) (capacity : Capacity) (world : World) :
    (world.withCapacity capacity).evaluate tree =
      ((world.evaluate tree).1, (world.evaluate tree).2.withCapacity capacity) := rfl

theorem World.sink_evaluate
    {tree : Expr}
    {result : Except RuntimeError Value}
    {world : World}
    (evaluated : start.evaluate tree = (result, world)) :
    world.sink = start.sink := by
  cases evaluated
  rfl

theorem World.scopes_leave_suffix (world : World) :
    world.leave.environment.scopes <:+ world.environment.scopes := by
  obtain ⟨⟨innermost, enclosing⟩, sink⟩ := world
  cases enclosing with
  | nil => exact List.suffix_rfl
  | cons scope enclosing => exact List.suffix_cons innermost (scope :: enclosing)

/-- On an output without a limit, execution only adds to what is written. -/
theorem executeAll_continues
    (program : Program)
    (unlimited : start.sink.capacity = .unlimited) :
    (executeAll program start).2.sink.capacity = .unlimited ∧
      ∃ more, (executeAll program start).2.sink.written = start.sink.written ++ more := by
  have fits : start.sink.capacity.Fits start.sink.written.size := by
    rw [unlimited]
    trivial
  constructor
  · rw [(executeAll_fits program start fits).1, unlimited]
  · have after : executeAll program start = _ :=
      executeAll_after program start.environment start.sink fits
    rw [after]
    exact ⟨_, rfl⟩

/-- Printing a value passes the limit or not. -/
theorem World.write_inStep
    {prints : World → List Nat → Value → World → Prop}
    {place : List Nat}
    {value : Value}
    {reached : World}
    (printed : prints start place value reached)
    (printedLimited : prints (start.withCapacity (.limited limit whenFull)) place value
      (reached.withCapacity (.limited limit whenFull)))
    (unlimited : reached.sink.capacity = .unlimited)
    (fits : reached.sink.written.size ≤ limit) :
    InStep limit whenFull prints start (reached.write (value.text ++ "\n"))
      ((reached.withCapacity (.limited limit whenFull)).write (value.text ++ "\n")) := by
  obtain ⟨environment, capacity, written⟩ := reached
  cases unlimited
  rcases Nat.lt_or_ge limit (written ++ (value.text ++ "\n").toUTF8).size with full | within
  · have cut : ((World.mk environment ⟨.unlimited, written⟩).withCapacity
        (.limited limit whenFull)).write (value.text ++ "\n") =
        (.error (.output whenFull), ⟨environment, .limited limit whenFull,
          (written ++ (value.text ++ "\n").toUTF8).extract 0 limit⟩) := by
      rw [World.write, World.withCapacity, Sink.write_of_lt_size fits full]
    rw [cut]
    exact .stopped printed printedLimited fits full rfl ByteArray.append_empty.symm rfl
      List.suffix_rfl
  · have whole : ((World.mk environment ⟨.unlimited, written⟩).withCapacity
        (.limited limit whenFull)).write (value.text ++ "\n") =
        (.ok (), ⟨environment, .limited limit whenFull,
          written ++ (value.text ++ "\n").toUTF8⟩) := by
      rw [World.write, World.withCapacity, Sink.write_of_size_le within]
    rw [whole]
    exact .together rfl within

mutual

theorem Statement.execute_inStep :
    (statement : Statement Expr) → {start : World} →
      start.sink.capacity = .unlimited →
      start.sink.written.size ≤ limit →
      InStep limit whenFull statement.Prints start (statement.execute start)
        (statement.execute (start.withCapacity (.limited limit whenFull)))
  | .expression tree, start, unlimited, fits => by
    rw [Statement.execute, Statement.execute, World.evaluate_withCapacity]
    rcases evaluated : start.evaluate tree with ⟨_ | value, world⟩
    all_goals
      have sameSink := World.sink_evaluate evaluated
      rw [← sameSink] at unlimited fits
      exact .together unlimited fits
  | .print tree, start, unlimited, fits => by
    rw [Statement.execute, Statement.execute, World.evaluate_withCapacity]
    rcases evaluated : start.evaluate tree with ⟨_ | value, world⟩
    all_goals
      have sameSink := World.sink_evaluate evaluated
      rw [← sameSink] at unlimited fits
    · exact .together unlimited fits
    · refine World.write_inStep (.print evaluated) (.print ?_) unlimited fits
      rw [World.evaluate_withCapacity, evaluated]
  | .var name none, start, unlimited, fits => .together unlimited fits
  | .var name (some initializer), start, unlimited, fits => by
    rw [Statement.execute, Statement.execute, World.evaluate_withCapacity]
    rcases evaluated : start.evaluate initializer with ⟨_ | value, world⟩
    all_goals
      have sameSink := World.sink_evaluate evaluated
      rw [← sameSink] at unlimited fits
      exact .together unlimited fits
  | .block body, start, unlimited, fits => by
    have inside : InStep limit whenFull _ start.enter _ _ :=
      executeAll_inStep body unlimited fits
    rw [Statement.execute, Statement.execute]
    change InStep limit whenFull _ start _ (match executeAll body
      (start.enter.withCapacity (.limited limit whenFull)) with
      | (result, world) => (result, world.leave))
    generalize executeAll body start.enter = run at inside
    generalize executeAll body (start.enter.withCapacity (.limited limit whenFull)) = limited at inside
    cases inside with
    | together unlimited fits => exact .together unlimited fits
    | stopped printed printedLimited fits full unlimited continued written scopes =>
      exact .stopped (.block printed) (.block printedLimited) fits full unlimited continued written
        ((World.scopes_leave_suffix _).trans scopes)

theorem executeAll_inStep :
    (program : List (Statement Expr)) → {start : World} →
      start.sink.capacity = .unlimited →
      start.sink.written.size ≤ limit →
      InStep limit whenFull (Program.Prints program) start (executeAll program start)
        (executeAll program (start.withCapacity (.limited limit whenFull)))
  | [], start, unlimited, fits => .together unlimited fits
  | statement :: rest, start, unlimited, fits => by
    have first := statement.execute_inStep unlimited fits
    rw [executeAll, executeAll]
    generalize executed : statement.execute start = run at first
    generalize executedLimited :
      statement.execute (start.withCapacity (.limited limit whenFull)) = limited at first
    cases first with
    | @together result world unlimited fits =>
      cases result with
      | error error => exact .together unlimited fits
      | ok =>
        have others := executeAll_inStep rest unlimited fits
        dsimp only
        generalize executeAll rest world = run at others
        generalize executeAll rest (world.withCapacity (.limited limit whenFull)) = limited at others
        cases others with
        | together unlimited fits => exact .together unlimited fits
        | stopped printed printedLimited fits full unlimited continued written scopes =>
          obtain ⟨index, path, rfl⟩ := printed.exists_place_eq_cons
          exact .stopped (.later executed printed) (.later executedLimited printedLimited) fits
            full unlimited continued written scopes
    | @stopped result world _ _ _ _ _ printed printedLimited fits full unlimited continued written
        scopes =>
      -- Without the limit, the rest of the statements may still be executed.
      cases result with
      | error error =>
        exact .stopped (.here printed) (.here printedLimited) fits full unlimited continued written
          scopes
      | ok =>
        obtain ⟨stillUnlimited, others, grown⟩ := executeAll_continues rest unlimited
        rw [continued, ByteArray.append_assoc] at grown
        exact .stopped (.here printed) (.here printedLimited) fits full stillUnlimited grown written
          scopes

end

end InStep

theorem depth_executeAll (program : Program) (world : World) :
    (executeAll program world).2.environment.depth = world.environment.depth := by
  have done : executeAll program world = _ :=
    executeAll_world program ⟨world.environment, world.sink⟩
  rw [done]
  exact (executeAllOn_framed program
    (⟨world.environment, world.sink⟩ : Sink.writer.World)).depth_eq

/-! ## Executions of a session -/

/-- An execution whose output is within the limit is the same with the limit.  Where the output
passes the limit, the execution with the limit writes as many bytes of it as the limit says and
ends with the error of the output.  It ends at a `print` that the execution without the limit comes
to as well, the one that passes the limit, and it leaves the scopes that are there when the value
has been found, without those of the blocks that are open. -/
theorem Session.execute_limited
    (program : Program)
    (session : Session)
    (limit : Nat)
    (whenFull : WriteFault) :
    ((session.execute program .unlimited).output.size ≤ limit →
      session.execute program (.limited limit whenFull) = session.execute program .unlimited) ∧
    (limit < (session.execute program .unlimited).output.size →
      (session.execute program (.limited limit whenFull)).output =
        (session.execute program .unlimited).output.extract 0 limit ∧
      (session.execute program (.limited limit whenFull)).result =
        .error (.stopped (.output whenFull)) ∧
      ∃ place value reached,
        Program.Prints program ⟨session.environment, {}⟩ place value reached ∧
        Program.Prints program
          ⟨session.environment, { capacity := .limited limit whenFull }⟩ place value
          (reached.withCapacity (.limited limit whenFull)) ∧
        reached.sink.written.size ≤ limit ∧
        limit < (reached.sink.written ++ (value.text ++ "\n").toUTF8).size ∧
        (∃ more, (session.execute program .unlimited).output =
          reached.sink.written ++ (value.text ++ "\n").toUTF8 ++ more) ∧
        (session.execute program (.limited limit whenFull)).session.environment.scopes <:+
          reached.environment.scopes ∧
        (session.execute program (.limited limit whenFull)).session.environment.depth =
          session.environment.depth) := by
  have inStep : InStep limit whenFull _ (World.mk session.environment {}) _ _ :=
    executeAll_inStep program rfl (Nat.zero_le limit)
  have sameDepth := depth_executeAll program
    ⟨session.environment, { capacity := .limited limit whenFull }⟩
  simp only [World.withCapacity] at inStep
  unfold Session.execute
  generalize executeAll program ⟨session.environment, {}⟩ = unlimited at inStep ⊢
  generalize executeAll program ⟨session.environment, { capacity := .limited limit whenFull }⟩ =
    limited at inStep sameDepth ⊢
  cases inStep with
  | together unlimited fits =>
    exact ⟨fun _ => rfl, fun passed => absurd fits (Nat.not_le_of_lt passed)⟩
  | @stopped result world reached left place value more printed printedLimited fits full unlimited
      continued written scopes =>
    have passed : limit < world.sink.written.size := by
      rw [continued, ByteArray.size_append]
      exact Nat.lt_add_right more.size full
    have cut : left.sink.written = world.sink.written.extract 0 limit := by
      rw [written, continued, extract_append_of_le_size (Nat.le_of_lt full)]
    exact ⟨fun within => absurd within (Nat.not_le_of_lt passed), fun _ => ⟨cut, rfl, place, value,
      reached, printed, printedLimited, fits, full, ⟨more, continued⟩, scopes, sameDepth⟩⟩

-- One byte of two is written of the first value, and the error of the second `print` never arises.
example :
    let run := Session.execute
      [.block [.print (.literal (.string "é")), .print (.reference ⟨"b", 1⟩)]]
      (.limited 1 .full) {}
    run.result = .error (.stopped (.output .full)) ∧ run.output.data = #[0xC3] := by
  with_unfolding_all exact ⟨rfl, rfl⟩

end Lox
