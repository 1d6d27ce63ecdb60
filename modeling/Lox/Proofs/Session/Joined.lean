import Lox.Proofs.Evaluation.Output
import Lox.Proofs.Syntax.Relocation
import Lox.Session

/-!
Contract: sources that are run one after another, and the one source that they are when joined by
line feeds.

Owns:
- accepted sources by their segments;
- the program of sources that are joined by a line feed;
- running sources one after another on one output;
- that this is the run of the joined source.

Does not own: how sources that are refused are run.
-/

namespace Lox

/-! ## Accepted sources -/

private theorem mapError_eq_ok_iff
    {Error Report Result : Type}
    {outcome : Except Error Result}
    {report : Error → Report}
    {result : Result} :
    outcome.mapError report = .ok result ↔ outcome = .ok result := by
  constructor
  · intro found
    cases outcome with
    | error error => cases found
    | ok value =>
      cases found
      rfl
  · rintro rfl
    rfl

theorem tokensOfSource_eq_ok_iff {source : String} {tokens : List Token} :
    tokensOfSource source = .ok tokens ↔
      (lex source).errors = [] ∧ (lex source).tokens = tokens := by
  unfold tokensOfSource
  rw [mapError_eq_ok_iff, Lexed.accepted]
  by_cases noError : (lex source).errors = []
  · simp [noError]
  · simp [noError]

/-- A tree is what is read from the tokens of a source without errors. -/
private theorem bind_tokensOfSource_eq_ok_iff
    {Tree : Type}
    {read : List Token → Except SyntaxError Tree}
    {source : String}
    {tree : Tree} :
    ((tokensOfSource source).bind fun tokens =>
        (read tokens).mapError fun error => [error.diagnostic]) = .ok tree ↔
      (lex source).errors = [] ∧ read (lex source).tokens = .ok tree := by
  constructor
  · intro isRead
    cases lexed : tokensOfSource source with
    | error reports =>
      rw [lexed] at isRead
      cases isRead
    | ok tokens =>
      rw [lexed] at isRead
      obtain ⟨noError, rfl⟩ := tokensOfSource_eq_ok_iff.1 lexed
      exact ⟨noError, mapError_eq_ok_iff.1 isRead⟩
  · rintro ⟨noError, parsed⟩
    rw [tokensOfSource_eq_ok_iff.2 ⟨noError, rfl⟩]
    exact mapError_eq_ok_iff.2 parsed

theorem Program.ofSource_eq_ok_iff {source : String} {program : Program} :
    Program.ofSource source = .ok program ↔
      (lex source).errors = [] ∧ Program.ofTokens (lex source).tokens = .ok program :=
  bind_tokensOfSource_eq_ok_iff

theorem Expr.ofSource_eq_ok_iff {source : String} {tree : Expr} :
    Expr.ofSource source = .ok tree ↔
      (lex source).errors = [] ∧ Expr.ofTokens (lex source).tokens = .ok tree :=
  bind_tokensOfSource_eq_ok_iff

/-- A source is accepted exactly if none of its segments is an error, its tokens write the program
and the nesting is within the limit. -/
theorem Cutting.ofSource_eq_ok_iff
    {source : String}
    {cuts : List Cut}
    {program : Program}
    (cutting : Cutting source.toList cuts) :
    Program.ofSource source = .ok program ↔
      (∀ cut ∈ cuts, cut.segment.fault? = none) ∧ program.WrittenBy (tokensOf 1 cuts) ∧
        Program.nesting program ≤ Grammar.maxNesting := by
  rw [Program.ofSource_eq_ok_iff, cutting.lex_eq, errorsOf_eq_nil_iff, Program.ofTokens_eq_ok_iff,
    Program.writtenBy_append_endAt_iff fun token => isEnd_eq_false_of_mem_tokensOf]

/-- Accepted sources that are joined by a line feed are accepted.  The program is that of the first
and then that of the second, whose names stand further down. -/
theorem Program.ofSource_append_lineFeed
    {front back : String}
    {first second : Program}
    (frontRead : Program.ofSource front = .ok first)
    (backRead : Program.ofSource back = .ok second) :
    Program.ofSource (front ++ "\n" ++ back) =
      .ok (first ++ Program.relocate (· + (front.toList.count '\n' + 1)) second) := by
  obtain ⟨frontCuts, frontCutting⟩ := exists_cutting front.toList
  obtain ⟨backCuts, backCutting⟩ := exists_cutting back.toList
  obtain ⟨frontSound, firstWrites, firstNesting⟩ := frontCutting.ofSource_eq_ok_iff.1 frontRead
  obtain ⟨backSound, secondWrites, secondNesting⟩ := backCutting.ofSource_eq_ok_iff.1 backRead
  have noneOpen : ∀ cut ∈ frontCuts, cut.segment ≠ .openString := by
    intro cut member isOpen
    have sound := frontSound cut member
    rw [isOpen] at sound
    cases sound
  -- The line feed is a blank segment between the two cuttings.
  have cutting := frontCutting.append_lineFeed noneOpen backCutting
  have joined : front.toList ++ '\n' :: back.toList = (front ++ "\n" ++ back).toList := by
    simp
  rw [joined] at cutting
  refine cutting.ofSource_eq_ok_iff.2 ⟨?_, ?_, ?_⟩
  · intro cut member
    rcases List.mem_append.1 member with inFront | afterFront
    · exact frontSound cut inFront
    · rcases List.mem_cons.1 afterFront with rfl | inBack
      · rfl
      · exact backSound cut inBack
  · have tokens : tokensOf 1 (frontCuts ++ ⟨.blank, ['\n']⟩ :: backCuts) =
        tokensOf 1 frontCuts ++ (tokensOf 1 backCuts).map
          (Token.relocate (· + (front.toList.count '\n' + 1))) := by
      rw [tokensOf_append, frontCutting.flatMap_text, ← tokensOf_add]
      rfl
    rw [tokens]
    exact firstWrites.append (fun token => isEnd_eq_false_of_mem_tokensOf)
      (secondWrites.relocate _)
  · rw [Program.nesting_append, Program.nesting_relocate]
    omega

/-! ## Runs one after another -/

/-- A run, and unless it failed what follows it in the same session and on the same output. -/
def Run.andThen (capacity : Capacity) (next : Capacity → Session → Run) (first : Run) : Run :=
  match first.result with
  | .error _ => first
  | .ok () =>
    let others := next (capacity.remaining first.output.size) first.session
    { others with output := first.output ++ others.output }

namespace Session

/-- Runs sources one after another on one output of the given capacity, up to the first that
fails. -/
def runAll : List String → Capacity → Session → Run
  | [], _, session => ⟨.ok (), ByteArray.empty, session⟩
  | source :: rest, capacity, session =>
    (session.run source capacity).andThen capacity (runAll rest)

/-- A program after a program is executed after it, in the same session and on the same output. -/
theorem execute_append
    (first second : Program)
    (capacity : Capacity)
    (session : Session) :
    session.execute (first ++ second) capacity =
      (session.execute first capacity).andThen capacity (Session.execute second) := by
  have emptyFits : capacity.Fits ByteArray.empty.size := by
    cases capacity with
    | unlimited => trivial
    | limited limit whenFull => exact Nat.zero_le limit
  obtain ⟨sameCapacity, firstFits⟩ :=
    executeAll_fits first ⟨session.environment, { capacity := capacity }⟩ emptyFits
  simp only [execute, executeAll_append]
  rcases done : executeAll first ⟨session.environment, { capacity := capacity }⟩ with
    ⟨result, environment, sink⟩
  rw [done] at sameCapacity firstFits
  cases result with
  | error error => rfl
  | ok =>
    change sink.capacity = capacity at sameCapacity
    change capacity.Fits sink.written.size at firstFits
    subst sameCapacity
    simp only [executeAll_after second environment sink firstFits]
    rfl

/-- The run of sources that are joined by a line feed is the run of the first and then that of the
second. -/
theorem run_append_lineFeed
    {front back : String}
    {first second : Program}
    (frontRead : Program.ofSource front = .ok first)
    (backRead : Program.ofSource back = .ok second)
    (capacity : Capacity)
    (session : Session) :
    session.run (front ++ "\n" ++ back) capacity =
      (session.run front capacity).andThen capacity (Session.run back) := by
  have sameEffect :
      execute (Program.relocate (· + (front.toList.count '\n' + 1)) second) = run back := by
    funext capacity session
    rw [execute, executeAll_relocate, run, backRead]
    rfl
  have joined := Program.ofSource_append_lineFeed frontRead backRead
  rw [run, joined, run, frontRead]
  dsimp only
  rw [execute_append, sameEffect]

theorem andThen_runAll_nil (capacity : Capacity) (first : Run) :
    first.andThen capacity (runAll []) = first := by
  obtain ⟨_ | _, output, session⟩ := first
  · rfl
  · simp only [Run.andThen, runAll, ByteArray.append_empty]

/-- Sources that are accepted by themselves are also accepted as one source, joined by line feeds.
The run of that source is the run of the sources one after another, up to the first that fails:
the result, the bytes on the output and the session after it are the same. -/
theorem run_joined
    {sources : List String}
    (accepted : ∀ source ∈ sources, ∃ program, Program.ofSource source = .ok program) :
    (∃ program, Program.ofSource ("\n".intercalate sources) = .ok program) ∧
      ∀ (capacity : Capacity) (session : Session),
        session.run ("\n".intercalate sources) capacity = session.runAll sources capacity := by
  induction sources with
  | nil =>
    have empty : Program.ofSource "" = .ok [] := by
      with_unfolding_all rfl
    rw [String.intercalate_nil]
    refine ⟨⟨[], empty⟩, fun capacity session => ?_⟩
    rw [run, empty]
    rfl
  | cons source rest inductionHypothesis =>
    obtain ⟨first, sourceRead⟩ := accepted source List.mem_cons_self
    obtain ⟨⟨others, restRead⟩, restRun⟩ :=
      inductionHypothesis fun other member => accepted other (List.mem_cons_of_mem _ member)
    cases rest with
    | nil =>
      rw [String.intercalate_singleton]
      refine ⟨⟨first, sourceRead⟩, fun capacity session => ?_⟩
      exact (andThen_runAll_nil capacity (session.run source capacity)).symm
    | cons next rest =>
      rw [String.intercalate_cons_cons]
      refine ⟨⟨_, Program.ofSource_append_lineFeed sourceRead restRead⟩,
        fun capacity session => ?_⟩
      -- What is joined behind the first source is again one source that is accepted.
      have sameRun : run ("\n".intercalate (next :: rest)) = runAll (next :: rest) := by
        funext capacity session
        exact restRun capacity session
      rw [run_append_lineFeed sourceRead restRead, sameRun]
      rfl

/-- A declaration with a comment behind it, a block that stops in a block, and one more source. -/
def sampleSources : List String :=
  ["var a = \"x\"; // text", "\x7b print a; \x7b print a + b; \x7d \x7d", "print a;"]

theorem run_joined_sample :
    (∀ source ∈ sampleSources, ∃ program, Program.ofSource source = .ok program) ∧
      (∃ program, Program.ofSource ("\n".intercalate sampleSources) = .ok program) ∧
      ∀ (capacity : Capacity) (session : Session),
        session.run ("\n".intercalate sampleSources) capacity =
          session.runAll sampleSources capacity := by
  have accepted : ∀ source ∈ sampleSources, ∃ program, Program.ofSource source = .ok program := by
    intro source member
    simp only [sampleSources, List.mem_cons, List.not_mem_nil, or_false] at member
    rcases member with rfl | rfl | rfl
    · exact ⟨[.var ⟨"a", 1⟩ (some (.literal (.string "x")))], by with_unfolding_all rfl⟩
    · exact ⟨[.block [.print (.reference ⟨"a", 1⟩),
        .block [.print (.binary (.reference ⟨"a", 1⟩) .add (.reference ⟨"b", 1⟩))]]],
        by with_unfolding_all rfl⟩
    · exact ⟨[.print (.reference ⟨"a", 1⟩)], by with_unfolding_all rfl⟩
  exact ⟨accepted, run_joined accepted⟩

end Session

end Lox
