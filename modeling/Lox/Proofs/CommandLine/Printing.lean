import Lox.CommandLine
import Lox.Proofs.Session.Joined
import Lox.Proofs.Token.Rescanning
import Lox.Proofs.Token.Slices

/-!
Contract: an expression that is evaluated, and the same expression that a program prints.

Owns:
- sources in a `print` statement, which ends on a line of its own;
- that a string which is open at the end of a source is still open in the statement;
- that a source is the expression that its `print` statement prints;
- that the commands on the two sources agree.

Does not own: the values of expressions, and their texts.
-/

namespace Lox

/-! ## Open strings -/

theorem Segment.Begins.shape_of_openString
    {first : Char}
    {passed rest : List Char}
    (begins : Begins first passed .openString rest) :
    first = '"' ∧ '"' ∉ passed ∧ rest = [] := by
  have read : Cut.ReadFrom (first :: passed ++ rest) rest ⟨.openString, first :: passed⟩ :=
    ⟨⟨first, passed, rfl, begins⟩, rfl⟩
  rcases read.spells_or_noSegment with spells | noSegment
  · generalize whole : first :: passed = text at spells
    cases spells with
    | openString noQuote =>
      cases whole
      exact ⟨rfl, noQuote, rfl⟩
  · obtain ⟨other, _⟩ := (readFrom_stray noSegment).unique read
    cases other

/-- A string that is open at the end of the characters stays open where no quotation mark
follows. -/
theorem Cutting.exists_openString_append
    {front back : List Char}
    {cuts : List Cut}
    (cutting : Cutting front cuts)
    (isOpen : ∃ cut ∈ cuts, cut.segment = .openString)
    (noQuote : '"' ∉ back) :
    ∃ others, Cutting (front ++ '\n' :: back) others ∧
      ∃ cut ∈ others, cut.segment = .openString := by
  induction cutting with
  | done =>
    obtain ⟨cut, member, _⟩ := isOpen
    cases member
  | @step first passed rest segment cuts begins others inductionHypothesis =>
    by_cases here : segment = .openString
    · subst here
      obtain ⟨rfl, noneInside, rfl⟩ := begins.shape_of_openString
      have noneAtAll : '"' ∉ passed ++ '\n' :: back := by
        simp [noneInside, noQuote]
      have longer := Cutting.step (Segment.begins_openString noneAtAll) .done
      rw [List.append_nil] at longer
      refine ⟨[⟨.openString, '"' :: (passed ++ '\n' :: back)⟩], ?_, _, List.mem_cons_self, rfl⟩
      simpa using longer
    · obtain ⟨cut, member, cutIsOpen⟩ := isOpen
      have later : cut ∈ cuts := by
        rcases List.mem_cons.1 member with rfl | later
        · exact absurd cutIsOpen here
        · exact later
      obtain ⟨restCuts, restCutting, restOpen⟩ := inductionHypothesis ⟨cut, later, cutIsOpen⟩
      have ends : segment.EndsBefore ('\n' :: back) := by
        intro next found
        cases found
        exact ⟨rfl, here, fun _ => rfl⟩
      have whole := Cutting.step (begins.append ends) restCutting
      rw [← List.append_assoc] at whole
      obtain ⟨found, inRest, foundOpen⟩ := restOpen
      exact ⟨_, whole, found, List.mem_cons_of_mem _ inRest, foundOpen⟩

/-! ## Printed sources -/

/-- The program that prints the expression of the source.  The semicolon stands on a line of its
own, so that it is in no comment. -/
def printing (source : String) : String :=
  "print " ++ source ++ "\n;"

private theorem toList_printing (source : String) :
    (printing source).toList =
      'p' :: (['r', 'i', 'n', 't'] ++ ' ' :: ([] ++ (source.toList ++ ['\n', ';']))) := by
  simp [printing]

private theorem cutting_print
    {characters : List Char}
    {cuts : List Cut}
    (cutting : Cutting characters cuts) :
    Cutting ('p' :: (['r', 'i', 'n', 't'] ++ ' ' :: ([] ++ characters)))
      (⟨.word, ['p', 'r', 'i', 'n', 't']⟩ :: ⟨.blank, [' ']⟩ :: cuts) := by
  obtain ⟨first, others, spelling, starts, continues⟩ := Keyword.spelling_isWord .printWord
  have letters : ['p', 'r', 'i', 'n', 't'] = first :: others := spelling
  obtain ⟨rfl, rfl⟩ := List.cons.inj letters
  have noWord : continuesWord ' ' = false :=
    (not_goesOn_of_isBlank (by decide)).2.2.2.2.2
  refine .step (Segment.begins_word starts continues fun next found => ?_) ?_
  · cases found
    exact noWord
  · exact .step (Segment.begins_blank (by decide) _) cutting

/-- A source whose `print` statement has no lexical error is cut by itself as it is cut there. -/
theorem exists_cutting_printing
    {source : String}
    (scans : (lex (printing source)).errors = []) :
    ∃ cuts, Cutting source.toList cuts ∧ (∀ cut ∈ cuts, cut.segment.fault? = none) ∧
      (lex (printing source)).tokens =
        ⟨.keyword .printWord, "print", 1⟩ :: (tokensOf 1 cuts ++
          [⟨.symbol .semicolon, ";", 1 + source.toList.count '\n' + 1⟩,
            Token.endAt (1 + source.toList.count '\n' + 1)]) := by
  obtain ⟨cuts, cutting⟩ := exists_cutting source.toList
  have noneOpen : ∀ cut ∈ cuts, cut.segment ≠ .openString := by
    intro cut member isOpen
    have noQuote : '"' ∉ [';'] := by decide
    obtain ⟨others, whole, found, inOthers, foundOpen⟩ :=
      cutting.exists_openString_append ⟨cut, member, isOpen⟩ noQuote
    have printed := cutting_print whole
    rw [← toList_printing] at printed
    rw [printed.lex_eq] at scans
    have sound := errorsOf_eq_nil_iff.1 scans found (by simp [inOthers])
    rw [foundOpen] at sound
    cases sound
  have semicolon : Cutting [';'] [⟨.symbol .semicolon, [';']⟩] :=
    .step (Segment.begins_symbol rfl (by decide) (.inl rfl)) .done
  have printed := cutting_print (cutting.append_lineFeed noneOpen semicolon)
  rw [← toList_printing] at printed
  rw [printed.lex_eq] at scans ⊢
  refine ⟨cuts, cutting, fun cut member => errorsOf_eq_nil_iff.1 scans cut (by simp [member]), ?_⟩
  have keyword : Cut.token? 1 ⟨.word, ['p', 'r', 'i', 'n', 't']⟩ =
      some ⟨.keyword .printWord, "print", 1⟩ := by
    have known : Keyword.ofSpelling? (String.ofList ['p', 'r', 'i', 'n', 't']) =
        some .printWord :=
      Keyword.ofSpelling?_eq_some_iff.2 rfl
    rw [Cut.token?, Segment.kind?, known]
  have lines : (printing source).toList.count '\n' = source.toList.count '\n' + 1 := by
    simp [toList_printing]
  dsimp only
  rw [tokensOf, keyword, tokensOf, tokensOf_append, tokensOf, tokensOf, lines, cutting.flatMap_text]
  simp [Cut.token?, Cut.lineFeeds, Segment.kind?, tokensOf, Nat.add_assoc]

/-- A source is the expression that its `print` statement prints. -/
theorem Expr.ofSource_of_printing
    {source : String}
    {tree : Expr}
    (scans : (lex (printing source)).errors = [])
    (parses : Program.ofTokens (lex (printing source)).tokens = .ok [.print tree]) :
    Expr.ofSource source = .ok tree := by
  obtain ⟨cuts, cutting, sound, tokens⟩ := exists_cutting_printing scans
  rw [tokens] at parses
  obtain ⟨⟨respects, written⟩, within⟩ := Program.ofTokens_eq_ok_iff.1 parses
  have noEnd : ∀ token ∈ tokensOf 1 cuts, token.isEnd = false :=
    fun token => isEnd_eq_false_of_mem_tokensOf
  -- Without the keyword and the semicolon, the tokens of the statement are those of the source.
  have pieces : (tokensOf 1 cuts).map Token.piece = tree.pieces := by
    rw [List.takeWhile_cons_of_pos rfl, takeWhile_append_of_noEnd noEnd] at written
    have statement : (tokensOf 1 cuts).map Token.piece ++ [.mark (.symbol .semicolon)] =
        tree.pieces ++ [.mark (.symbol .semicolon)] := by
      simpa [Program.pieces, Statement.pieces, Token.piece, Token.isEnd, Token.endAt]
        using written
    exact List.append_cancel_right statement
  have writes : tree.WrittenBy (tokensOf 1 cuts ++ [Token.endAt (1 + source.toList.count '\n')]) :=
    Expr.writtenBy_append (respects tree (by simp [Program.trees, Statement.trees])) pieces
      (endsAt_zero_iff.2 (by simp [Token.endAt, BinaryOp.ofKind?]))
  have nesting : tree.nesting ≤ Grammar.maxNesting := by
    simpa [Program.nesting, Statement.nesting] using within
  have read := Expr.ofTokens_eq_ok_iff.2 ⟨writes, nesting⟩
  have lexed := cutting.lex_eq
  have noErrors : (lex source).errors = [] := by
    rw [lexed]
    exact errorsOf_eq_nil_iff.2 sound
  rw [Expr.ofSource, tokensOfSource_eq_ok_iff.2 ⟨noErrors, rfl⟩, lexed]
  change (Expr.ofTokens _).mapError _ = _
  rw [read]
  rfl

/-! ## Commands -/

namespace CommandLine

/-- A file with the bytes of a text is that text. -/
theorem Command.onFile_toUTF8 (command : Command) (file text : String) :
    command.onFile file (.ok text.toUTF8) = command.onSource text := by
  rw [onFile, fromUTF8?_toUTF8]

/-- What is printed for an evaluation: the text of its value, or its error. -/
def shown : Except RuntimeError Value → Outcome
  | .ok value => .printed value.text
  | .error error => .failed (.stopped error) ByteArray.empty

theorem onSource_evaluate
    {source : String}
    {tree : Expr}
    (read : Expr.ofSource source = .ok tree) :
    Command.evaluate.onSource source = shown (tree.evaluate {}).1 := by
  rw [Command.onSource, Session.evaluate, read]
  dsimp only [Session.evaluateTree]
  cases (tree.evaluate {}).1 <;> rfl

theorem onSource_run_print
    {source : String}
    {tree : Expr}
    (read : Program.ofSource source = .ok [.print tree]) :
    Command.run.onSource source = shown (tree.evaluate {}).1 := by
  rw [Command.onSource, Session.run, read]
  dsimp only [Session.execute, executeAll, Statement.execute, World.evaluate]
  rcases tree.evaluate {} with ⟨error | value, environment⟩
  · rfl
  · simp only [World.write, Sink.write]
    rfl

/-- Where the `print` statement of a source is all of a program, evaluating the source and running
the statement come to the same outcome, which shows the value of the expression that the source
is. -/
theorem evaluate_agrees_with_run
    {source : String}
    {tree : Expr}
    (scans : (lex (printing source)).errors = [])
    (parses : Program.ofTokens (lex (printing source)).tokens = .ok [.print tree])
    (file printingFile : String) :
    Command.evaluate.onFile file (.ok source.toUTF8) =
        Command.run.onFile printingFile (.ok (printing source).toUTF8) ∧
      Command.run.onFile printingFile (.ok (printing source).toUTF8) =
        shown (tree.evaluate {}).1 ∧
      (Command.evaluate.onFile file (.ok source.toUTF8)).status ∈ [0, 70] ∧
      Command.parse.onFile file (.ok source.toUTF8) = ⟨0, (tree.text ++ "\n").toUTF8, ""⟩ := by
  have read := Expr.ofSource_of_printing scans parses
  have evaluated := onSource_evaluate read
  have printed := onSource_run_print (Program.ofSource_eq_ok_iff.2 ⟨scans, parses⟩)
  simp only [Command.onFile_toUTF8]
  refine ⟨evaluated.trans printed.symm, printed, ?_, ?_⟩
  · rw [evaluated]
    cases (tree.evaluate {}).1 with
    | error error => exact List.mem_cons_of_mem 0 List.mem_cons_self
    | ok value => exact List.mem_cons_self
  · rw [Command.onSource, read]
    rfl

/-- A sum of texts on two lines, with a semicolon in a comment behind it. -/
def sampleSum : String :=
  "\"a\" +\n\"b\" // ;"

theorem evaluate_agrees_with_run_sample :
    (lex (printing sampleSum)).errors = [] ∧
      Program.ofTokens (lex (printing sampleSum)).tokens =
        .ok [.print (.binary (.literal (.string "a")) .add (.literal (.string "b")))] ∧
      Command.evaluate.onFile "sum.lox" (.ok sampleSum.toUTF8) =
        Command.run.onFile "print.lox" (.ok (printing sampleSum).toUTF8) ∧
      Command.run.onFile "print.lox" (.ok (printing sampleSum).toUTF8) = .printed "ab" ∧
      Command.parse.onFile "sum.lox" (.ok sampleSum.toUTF8) = .printed "(+ a b)" := by
  have scans : (lex (printing sampleSum)).errors = [] := by
    with_unfolding_all rfl
  have parses : Program.ofTokens (lex (printing sampleSum)).tokens =
      .ok [.print (.binary (.literal (.string "a")) .add (.literal (.string "b")))] := by
    with_unfolding_all rfl
  obtain ⟨agree, printed, _, parsed⟩ :=
    evaluate_agrees_with_run scans parses "sum.lox" "print.lox"
  exact ⟨scans, parses, agree, printed, parsed⟩

end CommandLine

end Lox
