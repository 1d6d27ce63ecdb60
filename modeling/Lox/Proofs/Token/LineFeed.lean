import Lox.Proofs.Token.Cutting

/-!
Contract: two sources with a line feed between them.

Owns:
- the lexical errors of segments that follow others, and of segments further down;
- that a line feed separates the sources, so that the tokens and the errors of the second follow
  those of the first, on the lines after it.

Does not own: a string that is open where the first source ends.
-/

namespace Lox

/-! ## The errors of segments -/

/-- The segments of a part and those after it begin on lines that follow one another. -/
theorem errorsOf_append (line : Nat) (front back : List Cut) :
    errorsOf line (front ++ back) =
      errorsOf line front ++ errorsOf (line + (front.flatMap Cut.text).count '\n') back := by
  induction front generalizing line with
  | nil => rfl
  | cons cut rest inductionHypothesis =>
    rw [List.cons_append, errorsOf, inductionHypothesis, errorsOf, List.append_assoc,
      List.flatMap_cons, List.count_append, ← Nat.add_assoc]
    rfl

/-- The error with its line changed. -/
def LexicalError.relocate (place : Nat → Nat) (error : LexicalError) : LexicalError :=
  { error with line := place error.line }

/-- Segments that begin further down have the same errors further down. -/
theorem errorsOf_add (line distance : Nat) (cuts : List Cut) :
    errorsOf (line + distance) cuts =
      (errorsOf line cuts).map (LexicalError.relocate (· + distance)) := by
  induction cuts generalizing line with
  | nil => rfl
  | cons cut rest inductionHypothesis =>
    have next : line + distance + cut.lineFeeds = line + cut.lineFeeds + distance := by
      omega
    have here : (cut.error? (line + distance)).toList =
        (cut.error? line).toList.map (LexicalError.relocate (· + distance)) := by
      unfold Cut.error?
      cases cut.segment.fault? with
      | none => rfl
      | some fault => simp only [Option.map_some, Option.toList_some, List.map_cons, List.map_nil,
          LexicalError.relocate, next]
    rw [errorsOf, errorsOf, List.map_append, here, next, inductionHypothesis]

/-- The fault of every segment is reported. -/
theorem exists_error_of_mem
    {cut : Cut}
    {cuts : List Cut}
    {fault : LexicalFault}
    (member : cut ∈ cuts)
    (isFault : cut.segment.fault? = some fault)
    (line : Nat) :
    ∃ error ∈ errorsOf line cuts, error.fault = fault := by
  induction cuts generalizing line with
  | nil => cases member
  | cons next rest inductionHypothesis =>
    rcases List.mem_cons.1 member with rfl | later
    · have here : cut.error? line = some ⟨fault, line + cut.lineFeeds⟩ := by
        rw [Cut.error?, isFault]
        rfl
      exact ⟨_, List.mem_append_left _ (Option.mem_toList.2 here), rfl⟩
    · obtain ⟨error, reported, same⟩ := inductionHypothesis later (line + next.lineFeeds)
      exact ⟨error, List.mem_append_right _ reported, same⟩

/-! ## Sources -/

/-- A line feed separates two sources, whatever errors there are, unless the first ends in a string
without an end.  The tokens of the first, without the end of its input, come before those of the
second, and its errors before the errors of the second, which begins on the line below. -/
theorem lex_append_lineFeed
    {front : String}
    (closed : ∀ error ∈ (lex front).errors, error.fault ≠ .unterminatedString)
    (back : String) :
    let lines := front.toList.count '\n' + 1
    ∃ tokens : List Token,
      (lex front).tokens = tokens ++ [Token.endAt lines] ∧
        lex (front ++ "\n" ++ back) =
          ⟨tokens ++ (lex back).tokens.map (Token.relocate (· + lines)),
            (lex front).errors ++ (lex back).errors.map (LexicalError.relocate (· + lines))⟩ := by
  intro lines
  obtain ⟨frontCuts, frontCutting⟩ := exists_cutting front.toList
  obtain ⟨backCuts, backCutting⟩ := exists_cutting back.toList
  have frontLexed := frontCutting.lex_eq
  have backLexed := backCutting.lex_eq
  have noneOpen : ∀ cut ∈ frontCuts, cut.segment ≠ .openString := by
    intro cut member isOpen
    have isFault : cut.segment.fault? = some .unterminatedString := by
      rw [isOpen]
      rfl
    obtain ⟨error, reported, unterminated⟩ := exists_error_of_mem member isFault 1
    rw [frontLexed] at closed
    exact closed error reported unterminated
  -- The line feed is a blank segment between the two cuttings.
  have cutting := frontCutting.append_lineFeed noneOpen backCutting
  have joined : front.toList ++ '\n' :: back.toList = (front ++ "\n" ++ back).toList := by
    simp
  rw [joined] at cutting
  have below : 1 + front.toList.count '\n' + Cut.lineFeeds ⟨.blank, ['\n']⟩ = 1 + lines :=
    Nat.add_assoc 1 (front.toList.count '\n') 1
  have tokens : tokensOf 1 (frontCuts ++ ⟨.blank, ['\n']⟩ :: backCuts) =
      tokensOf 1 frontCuts ++ (tokensOf 1 backCuts).map (Token.relocate (· + lines)) := by
    rw [tokensOf_append, frontCutting.flatMap_text, tokensOf, below, tokensOf_add]
    rfl
  have errors : errorsOf 1 (frontCuts ++ ⟨.blank, ['\n']⟩ :: backCuts) =
      errorsOf 1 frontCuts ++ (errorsOf 1 backCuts).map (LexicalError.relocate (· + lines)) := by
    rw [errorsOf_append, frontCutting.flatMap_text, errorsOf, below, errorsOf_add]
    rfl
  have ending : Token.endAt (1 + (front ++ "\n" ++ back).toList.count '\n') =
      (Token.endAt (1 + back.toList.count '\n')).relocate (· + lines) := by
    rw [← joined, List.count_append, List.count_cons_self]
    simp only [Token.relocate, Token.endAt, lines, Token.mk.injEq, true_and]
    omega
  refine ⟨tokensOf 1 frontCuts, ?_, ?_⟩
  · rw [frontLexed, Nat.add_comm 1]
  · rw [cutting.lex_eq, tokens, errors, ending, frontLexed, backLexed, List.append_assoc,
      List.map_append]
    rfl

/-- A number with a point behind it, a character that is none of the language, and half of an
operator with two characters. -/
def unfinishedSource : String :=
  "1.\n@ <"

theorem lex_append_lineFeed_unfinished :
    (∀ error ∈ (lex unfinishedSource).errors, error.fault ≠ .unterminatedString) ∧
      ∃ tokens : List Token,
        (lex unfinishedSource).tokens = tokens ++ [Token.endAt 2] ∧
          lex (unfinishedSource ++ "\n" ++ "= # \"") =
            ⟨tokens ++ (lex "= # \"").tokens.map (Token.relocate (· + 2)),
              (lex unfinishedSource).errors ++
                (lex "= # \"").errors.map (LexicalError.relocate (· + 2))⟩ := by
  have errors : (lex unfinishedSource).errors = [⟨.unexpectedCharacter '@', 2⟩] := by
    with_unfolding_all rfl
  have closed : ∀ error ∈ (lex unfinishedSource).errors, error.fault ≠ .unterminatedString := by
    rw [errors]
    decide
  exact ⟨closed, lex_append_lineFeed closed "= # \""⟩

end Lox
