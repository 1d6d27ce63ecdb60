import Lox.CommandLine
import Lox.Proofs.CommandLine.Printing
import Lox.Proofs.Session.Globals
import Mathlib.Data.List.Basic

/-!
Contract: the prompt as runs of its lines, one after another in one session.

Owns:
- that the lines of an input are determined by it;
- the runs of sources one after another, each in the session that the one before it leaves;
- what the prompt writes, by the runs of its lines;
- that refused sources can be left out, and that between runs only the global scope is there.

Does not own: what a single run does.
-/

namespace Lox

/-! ## Runs in one session -/

namespace Session

/-- The runs of the sources one after another, whether they fail or not. -/
def runEach (session : Session) : List String → List Run
  | [] => []
  | source :: rest =>
    let run := session.run source .unlimited
    run :: run.session.runEach rest

/-- What stands where something is kept. -/
def kept {Item : Type} (keeps : List Bool) (items : List Item) : List Item :=
  ((items.zip keeps).filter Prod.snd).map Prod.fst

section Kept

variable {Item : Type} (item : Item) (items : List Item) (keeps : List Bool)

theorem kept_true : kept (true :: keeps) (item :: items) = item :: kept keeps items := rfl

theorem kept_false : kept (false :: keeps) (item :: items) = kept keeps items := rfl

end Kept

theorem run_of_refused
    {source : String}
    {reports : List Diagnostic}
    (refused : Program.ofSource source = .error reports)
    (capacity : Capacity)
    (session : Session) :
    (session.run source capacity).session = session := by
  rw [run, refused]

/-- Where only refused sources are left out, the other runs stay as they are. -/
theorem runEach_kept
    {sources : List String}
    {keeps : List Bool}
    (refused : ∀ pair ∈ sources.zip keeps, pair.2 = false →
      ∃ reports, Program.ofSource pair.1 = .error reports)
    (session : Session) :
    session.runEach (kept keeps sources) = kept keeps (session.runEach sources) := by
  induction sources generalizing keeps session with
  | nil => cases keeps <;> rfl
  | cons source rest inductionHypothesis =>
    cases keeps with
    | nil => rfl
    | cons keep keeps =>
      rw [List.zip_cons_cons, List.forall_mem_cons] at refused
      obtain ⟨here, later⟩ := refused
      cases keep with
      | true =>
        rw [kept_true, runEach, runEach, kept_true, inductionHypothesis later]
      | false =>
        obtain ⟨reports, isRefused⟩ := here rfl
        rw [kept_false, runEach, kept_false, inductionHypothesis later,
          run_of_refused isRefused]

/-- After each of the runs the session has as many scopes as before. -/
theorem depth_of_mem_runEach
    {session : Session}
    {sources : List String}
    {run : Run}
    (member : run ∈ session.runEach sources) :
    run.session.environment.depth = session.environment.depth := by
  induction sources generalizing session with
  | nil => cases member
  | cons source rest inductionHypothesis =>
    have first : (session.run source .unlimited).session.environment.depth =
        session.environment.depth := by
      rw [session_run]
      exact (framed_after _ session).depth_eq
    rcases List.mem_cons.1 member with rfl | later
    · exact first
    · exact (inductionHypothesis later).trans first

end Session

namespace CommandLine

/-! ## Lines -/

private theorem takeWhile_line
    {line : List UInt8}
    (noFeed : 10 ∉ line)
    (rest : List UInt8) :
    (line ++ 10 :: rest).takeWhile (· ≠ 10) = line := by
  have others : ∀ byte ∈ line, decide (byte ≠ 10) = true := by
    intro byte member
    simpa using ne_of_mem_of_not_mem member noFeed
  rw [List.takeWhile_append_of_pos others, List.takeWhile_cons_of_neg (by simp), List.append_nil]

/-- The bytes are cut into lines in only one way. -/
theorem Lines.unique
    {bytes : List UInt8}
    {lines others : List ByteArray}
    (left : Lines bytes lines)
    (right : Lines bytes others) :
    lines = others := by
  induction left generalizing others with
  | done =>
    generalize empty : ([] : List UInt8) = bytes at right
    cases right with
    | done => rfl
    | last nonempty _ => exact absurd empty.symm nonempty
    | ended _ _ => simp at empty
  | @last line nonempty noFeed =>
    cases right with
    | done => exact absurd rfl nonempty
    | last _ _ => rfl
    | ended _ _ => simp at noFeed
  | @ended line rest _ noFeed _ inductionHypothesis =>
    generalize whole : line ++ 10 :: rest = bytes at right
    cases right with
    | done => simp at whole
    | last _ otherNoFeed =>
      rw [← whole] at otherNoFeed
      simp at otherNoFeed
    | @ended otherLine otherRest _ otherNoFeed next =>
      -- What stands before the first line feed is the same, and so is what stands behind it.
      have sameLine : line = otherLine := by
        rw [← takeWhile_line noFeed rest, whole, takeWhile_line otherNoFeed otherRest]
      subst sameLine
      obtain ⟨-, rfl⟩ := List.cons.inj (List.append_cancel_left whole)
      rw [inductionHypothesis next]

/-! ## What the prompt writes -/

/-- What the runs write to standard output, each behind an invitation. -/
def transcript : List Run → ByteArray
  | [] => ByteArray.empty
  | run :: rest => invitation.toUTF8 ++ run.output ++ transcript rest

/-- What a run writes to standard error: the text of its failure and a line feed. -/
def complaint (run : Run) : String :=
  match run.result with
  | .ok () => ""
  | .error failure => failure.message ++ "\n"

/-- What the runs write to standard error. -/
def complaints (runs : List Run) : String :=
  String.join (runs.map complaint)

theorem replyTo_toUTF8 (source : String) (session : Session) :
    replyTo source.toUTF8 session =
      { stdout := (session.run source .unlimited).output
        stderr := complaint (session.run source .unlimited)
        session := some (session.run source .unlimited).session } := by
  rw [replyTo, fromUTF8?_toUTF8]
  dsimp only
  rcases session.run source .unlimited with ⟨_ | _, output, after⟩ <;> rfl

/-- The prompt answers lines of text with their runs and goes on with the other lines. -/
theorem exists_converse_append
    (sources : List String)
    (rest : List ByteArray)
    (session : Session)
    (stdout : ByteArray)
    (stderr : String) :
    ∃ after, converse session stdout stderr (sources.map String.toUTF8 ++ rest) =
      converse after (stdout ++ transcript (session.runEach sources))
        (stderr ++ complaints (session.runEach sources)) rest := by
  induction sources generalizing session stdout stderr with
  | nil => exact ⟨session, by simp [Session.runEach, transcript, complaints]⟩
  | cons source others inductionHypothesis =>
    obtain ⟨after, same⟩ := inductionHypothesis (session.run source .unlimited).session
      (stdout ++ invitation.toUTF8 ++ (session.run source .unlimited).output)
      (stderr ++ complaint (session.run source .unlimited))
    refine ⟨after, ?_⟩
    rw [List.map_cons, List.cons_append, converse, replyTo_toUTF8]
    dsimp only
    rw [same]
    simp only [Session.runEach, transcript, complaints, List.map_cons, String.join_cons,
      ByteArray.append_assoc, String.append_assoc]

theorem exists_texts (lines : List ByteArray) :
    ∃ (sources : List String) (rest : List ByteArray),
      lines = sources.map String.toUTF8 ++ rest ∧
        ∀ line ∈ rest.head?, String.fromUTF8? line = none := by
  induction lines with
  | nil => exact ⟨[], [], rfl, fun line found => nomatch found⟩
  | cons line others inductionHypothesis =>
    cases decoded : String.fromUTF8? line with
    | none =>
      refine ⟨[], line :: others, rfl, fun first found => ?_⟩
      cases found
      exact decoded
    | some source =>
      obtain ⟨sources, rest, rfl, undecoded⟩ := inductionHypothesis
      have bytes : source.toUTF8 = line := by
        rw [String.fromUTF8?] at decoded
        split at decoded
        · cases decoded
          rfl
        · cases decoded
      exact ⟨source :: sources, rest, by rw [List.map_cons, bytes]; rfl, undecoded⟩

/-- The lines of every input are texts, perhaps up to a line that is none.  The prompt runs the
texts one after another in one session, whether they fail or not, and it fails only at the line
that is no text.  After every run only the global scope is there, and where refused sources are left
out, the other runs stay as they are. -/
theorem prompt_runs_lines (input : ByteArray) :
    (∃ (sources : List String) (rest : List ByteArray),
      (∀ lines, Lines input.toList lines ↔ lines = sources.map String.toUTF8 ++ rest) ∧
      (∀ line ∈ rest.head?, String.fromUTF8? line = none) ∧
      prompt input =
        match rest with
        | [] =>
          ⟨0, transcript (Session.runEach {} sources) ++ "> \n".toUTF8,
            complaints (Session.runEach {} sources)⟩
        | _ :: _ =>
          ⟨1, transcript (Session.runEach {} sources) ++ "> ".toUTF8,
            complaints (Session.runEach {} sources) ++
              "Error: stream did not contain valid UTF-8\n"⟩) ∧
    (∀ sources : List String, ∀ run ∈ Session.runEach {} sources,
      run.session.environment.depth = 1) ∧
    ∀ (session : Session) (sources : List String) (keeps : List Bool),
      (∀ pair ∈ sources.zip keeps, pair.2 = false →
        ∃ reports, Program.ofSource pair.1 = .error reports) →
      session.runEach (Session.kept keeps sources) =
        Session.kept keeps (session.runEach sources) := by
  refine ⟨?_, fun sources run member => Session.depth_of_mem_runEach member,
    fun session sources keeps refused => Session.runEach_kept refused session⟩
  have cut := lines_linesOf input
  obtain ⟨sources, rest, same, undecoded⟩ := exists_texts (linesOf input)
  refine ⟨sources, rest, fun lines => ⟨fun other => ?_, fun other => ?_⟩, undecoded, ?_⟩
  · rw [← same, other.unique cut]
  · rwa [other, ← same]
  · obtain ⟨after, conversed⟩ := exists_converse_append sources rest {} ByteArray.empty ""
    rw [prompt, same, conversed, ByteArray.empty_append, String.empty_append]
    cases rest with
    | nil => rfl
    | cons line others =>
      have noText := undecoded line rfl
      rw [converse, replyTo, noText]
      simp [invitation, invalidText, failureStatus]

/-- A declaration, a run that stops in nested blocks, a line that is refused, and a line without a
line feed. -/
def sampleLines : List String :=
  ["var a = \"x\";\n", "\x7b \x7b var a = \"y\"; print a; print b; \x7d \x7d\n", "@\n", "print a;"]

theorem prompt_runs_lines_sample :
    prompt (String.join sampleLines).toUTF8 =
        ⟨0, "> > y\n> > x\n> \n".toUTF8,
          "Undefined variable \"b\".\n[line 1] Error: Unexpected character: @\n"⟩ ∧
      (∀ pair ∈ sampleLines.zip [true, true, false, true], pair.2 = false →
        ∃ reports, Program.ofSource pair.1 = .error reports) ∧
      Session.runEach {} (Session.kept [true, true, false, true] sampleLines) =
        Session.kept [true, true, false, true] (Session.runEach {} sampleLines) := by
  have declares : Program.ofSource "var a = \"x\";\n" =
      .ok [.var ⟨"a", 1⟩ (some (.literal (.string "x")))] := by
    with_unfolding_all rfl
  have stops :
      Program.ofSource "\x7b \x7b var a = \"y\"; print a; print b; \x7d \x7d\n" =
        .ok [.block [.block [.var ⟨"a", 1⟩ (some (.literal (.string "y"))),
          .print (.reference ⟨"a", 1⟩), .print (.reference ⟨"b", 1⟩)]]] := by
    with_unfolding_all rfl
  have isRefused :
      Program.ofSource "@\n" = .error [⟨1, .unspecified, "Unexpected character: @"⟩] := by
    with_unfolding_all rfl
  have prints : Program.ofSource "print a;" = .ok [.print (.reference ⟨"a", 1⟩)] := by
    with_unfolding_all rfl
  have refused : ∀ pair ∈ sampleLines.zip [true, true, false, true], pair.2 = false →
      ∃ reports, Program.ofSource pair.1 = .error reports := by
    intro pair member leftOut
    simp only [sampleLines, List.zip_cons_cons, List.zip_nil_right, List.mem_cons,
      List.not_mem_nil, or_false] at member
    rcases member with rfl | rfl | rfl | rfl
    · cases leftOut
    · cases leftOut
    · exact ⟨_, isRefused⟩
    · cases leftOut
  refine ⟨?_, refused,
    (prompt_runs_lines (String.join sampleLines).toUTF8).2.2 {} sampleLines _ refused⟩
  have cut : linesOf (String.join sampleLines).toUTF8 = sampleLines.map String.toUTF8 ++ [] := by
    decide +kernel
  obtain ⟨after, conversed⟩ := exists_converse_append sampleLines [] {} ByteArray.empty ""
  rw [prompt, cut, conversed, converse]
  simp only [sampleLines, Session.runEach, Session.run, declares, stops, isRefused, prints]
  rfl

end CommandLine

end Lox
