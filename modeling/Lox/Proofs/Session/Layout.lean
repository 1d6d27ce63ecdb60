import Lox.Proofs.Session.Joined
import Lox.Proofs.Syntax.Parallel
import Lox.Proofs.Token.Rescanning

/-!
Contract: sources that differ in the layout of their tokens.

Owns:
- tokens, trees and errors that are the same but for lines, as a parallel of the builder with
  itself;
- that runs and evaluations do not depend on the layout of the source.

Does not own: what layouts a sequence of tokens can have.
-/

namespace Lox

/-! ## The same but for lines -/

/-- The tokens are the same but for their lines. -/
structure Token.SameButLine (token other : Token) : Prop where
  kind_eq : token.kind = other.kind
  lexeme_eq : token.lexeme = other.lexeme

/-- The expressions are the same but for the lines of names. -/
def Expr.SameButLines (tree other : Expr) : Prop :=
  tree.relocate (fun _ => 0) = other.relocate (fun _ => 0)

/-- The statements are the same but for the lines of names. -/
def Statement.SameButLines (statement other : Statement Expr) : Prop :=
  statement.relocate (fun _ => 0) = other.relocate (fun _ => 0)

/-- The errors are the same but for the line of the report. -/
structure SyntaxError.SameButLine (error other : SyntaxError) : Prop where
  fault_eq : error.fault = other.fault
  index_eq : error.index = other.index
  diagnostic_eq : error.diagnostic = { other.diagnostic with line := error.token.line }

theorem Program.relocate_eq_of_sameButLines
    {program other : Program}
    (same : List.Forall₂ Statement.SameButLines program other) :
    Program.relocate (fun _ => 0) program = Program.relocate (fun _ => 0) other := by
  induction same with
  | nil => rfl
  | cons first _ inductionHypothesis => exact congrArg₂ List.cons first inductionHypothesis

/-- What readers see of tokens that are the same but for lines is the same but for lines. -/
def butLines : Grammar.Parallel Expr.builder Expr.builder where
  tokens := Token.SameButLine
  trees := Expr.SameButLines
  statements := Statement.SameButLines
  excused _ := False
  kind_eq same := same.kind_eq
  literal _ := rfl
  reference same := by
    simp [Expr.SameButLines, Expr.builder, Expr.relocate, Name.relocate, same.lexeme_eq]
  grouping same := congrArg Expr.grouping same
  unary operator _ _ same := congrArg (Expr.unary operator) same
  binary operator _ _ _ _ first second := congrArg₂ (Expr.binary · operator ·) first second
  assign := by
    intro target value otherTarget otherValue unread others targets values _
    -- Names are the same but for lines as names only.
    cases target with
    | reference name =>
      cases otherTarget with
      | reference otherName =>
        exact .inl ⟨_, _, rfl, rfl, congrArg₂ Expr.assign (Expr.reference.inj targets) values⟩
      | _ => cases targets
    | _ =>
      cases otherTarget with
      | reference otherName => cases targets
      | _ => exact .inr ⟨rfl, .inr rfl⟩
  expression same := congrArg Statement.expression same
  print same := congrArg Statement.print same
  declared same := by
    simp [Statement.SameButLines, Statement.relocate, Name.relocate, same.lexeme_eq]
  initialized same trees :=
    congrArg₂ (fun name tree => Statement.var name (some tree))
      (congrArg (Name.mk · 0) same.lexeme_eq) trees
  block same := congrArg Statement.block (Program.relocate_eq_of_sameButLines same)

/-! ## Inputs -/

section Inputs

variable {tokens others : List Token}

private theorem isEnd_eq {token other : Token} (same : token.SameButLine other) :
    token.isEnd = other.isEnd := by
  rw [Token.isEnd, Token.isEnd, same.kind_eq]

theorem sameButLine_takeWhile (same : List.Forall₂ Token.SameButLine tokens others) :
    List.Forall₂ Token.SameButLine (tokens.takeWhile (!·.isEnd)) (others.takeWhile (!·.isEnd)) := by
  induction same with
  | nil => exact .nil
  | @cons token other _ _ first _ inductionHypothesis =>
    rw [List.takeWhile_cons, List.takeWhile_cons, ← isEnd_eq first]
    split
    · exact .cons first inductionHypothesis
    · exact .nil

private theorem sameButLine_find? (same : List.Forall₂ Token.SameButLine tokens others) :
    Option.Rel Token.SameButLine (tokens.find? Token.isEnd) (others.find? Token.isEnd) := by
  induction same with
  | nil => exact .none
  | cons first _ inductionHypothesis =>
    rw [List.find?_cons, List.find?_cons, ← isEnd_eq first]
    split
    · exact .some first
    · exact inductionHypothesis

/-- The end markers are the same but for lines, those that stand in the lists and those that are
put behind them. -/
theorem sameButLine_marker (same : List.Forall₂ Token.SameButLine tokens others) :
    (TokenInput.ofTokens tokens).marker.SameButLine (TokenInput.ofTokens others).marker := by
  have found := sameButLine_find? same
  unfold TokenInput.ofTokens
  dsimp only
  generalize tokens.find? Token.isEnd = marker at found ⊢
  generalize others.find? Token.isEnd = otherMarker at found ⊢
  cases found with
  | none => exact ⟨rfl, rfl⟩
  | some markers => exact markers

end Inputs

/-! ## Sources -/

/-- The tokens of sources that have the same texts are the same but for lines. -/
theorem sameButLine_of_lexemes_eq
    {first second : String}
    (sameTexts : (lex first).tokens.map Token.lexeme = (lex second).tokens.map Token.lexeme) :
    List.Forall₂ Token.SameButLine (lex first).tokens (lex second).tokens := by
  have texts : List.Forall₂ (fun token other : Token => token.lexeme = other.lexeme)
      (lex first).tokens (lex second).tokens := by
    rwa [← List.forall₂_eq_eq_eq, List.forall₂_map_left_iff, List.forall₂_map_right_iff]
      at sameTexts
  obtain ⟨sameLength, sameText⟩ := List.forall₂_iff_zip.1 texts
  refine List.forall₂_iff_zip.2 ⟨sameLength, fun {token other} paired => ?_⟩
  obtain ⟨member, otherMember⟩ := List.of_mem_zip paired
  exact ⟨kind_eq_of_lexeme_eq member otherMember (sameText paired), sameText paired⟩

/-- What comes of two sources is the same, or both are refused by a syntax error that is the same
but for its line. -/
inductive Indifferent
    {Tree Outcome : Type}
    (refused : SyntaxError → Outcome)
    (read other : Except SyntaxError Tree)
    (outcome otherOutcome : Outcome) : Prop where
  | accepted
    {tree otherTree : Tree}
    (isRead : read = .ok tree)
    (otherIsRead : other = .ok otherTree)
    (same : outcome = otherOutcome)
  | refused
    {error otherError : SyntaxError}
    (isRefused : read = .error error)
    (otherIsRefused : other = .error otherError)
    (same : error.SameButLine otherError)
    (outcome_eq : outcome = refused error)
    (otherOutcome_eq : otherOutcome = refused otherError)

theorem Indifferent.of_reading
    {Tree Outcome : Type}
    {results : Tree → Tree → Prop}
    {read other : Except SyntaxError Tree}
    (outcome : Except SyntaxError Tree → Outcome)
    (reading : butLines.Reading results read other)
    (used : ∀ tree otherTree, results tree otherTree →
      outcome (.ok tree) = outcome (.ok otherTree)) :
    Indifferent (fun error => outcome (.error error)) read other (outcome read)
      (outcome other) := by
  cases reading with
  | accepted related => exact .accepted rfl rfl (used _ _ related)
  | @refused fault index token otherToken related =>
    refine .refused rfl rfl ⟨rfl, rfl, ?_⟩ rfl rfl
    simp [SyntaxError.diagnostic, Token.diagnostic, isEnd_eq related, related.lexeme_eq]
  | excused isExcused _ => exact isExcused.elim

namespace Session

/-- What comes of a source without lexical errors, by its reading as a program. -/
def runOf (capacity : Capacity) (session : Session) : Except SyntaxError Program → Run
  | .error error => ⟨.error (.refused [error.diagnostic]), ByteArray.empty, session⟩
  | .ok program => session.execute program capacity

/-- What comes of a source without lexical errors, by its reading as an expression. -/
def evaluationOf (session : Session) : Except SyntaxError Expr → Except Failure Value × Session
  | .error error => (.error (.refused [error.diagnostic]), session)
  | .ok tree => session.evaluateTree tree

section Scans

variable {source : String} (scans : (lex source).errors = [])

include scans

theorem run_eq_runOf (session : Session) (capacity : Capacity) :
    session.run source capacity = session.runOf capacity (Program.ofTokens (lex source).tokens) := by
  have read : Program.ofSource source =
      (Program.ofTokens (lex source).tokens).mapError fun error => [error.diagnostic] := by
    rw [Program.ofSource, tokensOfSource_eq_ok_iff.2 ⟨scans, rfl⟩]
    rfl
  rw [run, read]
  cases Program.ofTokens (lex source).tokens <;> rfl

theorem evaluate_eq_evaluationOf (session : Session) :
    session.evaluate source = session.evaluationOf (Expr.ofTokens (lex source).tokens) := by
  have read : Expr.ofSource source =
      (Expr.ofTokens (lex source).tokens).mapError fun error => [error.diagnostic] := by
    rw [Expr.ofSource, tokensOfSource_eq_ok_iff.2 ⟨scans, rfl⟩]
    rfl
  rw [evaluate, read]
  cases Expr.ofTokens (lex source).tokens <;> rfl

end Scans

theorem execute_eq_of_sameButLines
    {program other : Program}
    (same : List.Forall₂ Statement.SameButLines program other)
    (capacity : Capacity)
    (session : Session) :
    session.execute program capacity = session.execute other capacity := by
  have sameAll (world : World) : executeAll program world = executeAll other world := by
    rw [← executeAll_relocate (fun _ => 0) program, ← executeAll_relocate (fun _ => 0) other,
      Program.relocate_eq_of_sameButLines same]
  rw [execute, execute, sameAll]

theorem evaluateTree_eq_of_sameButLines
    {tree other : Expr}
    (same : tree.SameButLines other)
    (session : Session) :
    session.evaluateTree tree = session.evaluateTree other := by
  rw [evaluateTree, evaluateTree, ← tree.evaluate_relocate (fun _ => 0),
    ← other.evaluate_relocate (fun _ => 0), same]

/-- Sources without lexical errors whose tokens have the same texts are run alike and evaluated
alike, whatever stands between the tokens. -/
theorem layout_indifferent
    {first second : String}
    (firstScans : (lex first).errors = [])
    (secondScans : (lex second).errors = [])
    (sameTexts : (lex first).tokens.map Token.lexeme = (lex second).tokens.map Token.lexeme)
    (session : Session) :
    (∀ capacity : Capacity, Indifferent
      (fun error => ⟨.error (.refused [error.diagnostic]), ByteArray.empty, session⟩)
      (Program.ofTokens (lex first).tokens) (Program.ofTokens (lex second).tokens)
      (session.run first capacity) (session.run second capacity)) ∧
    Indifferent (fun error => (.error (.refused [error.diagnostic]), session))
      (Expr.ofTokens (lex first).tokens) (Expr.ofTokens (lex second).tokens)
      (session.evaluate first) (session.evaluate second) := by
  have tokens := sameButLine_of_lexemes_eq sameTexts
  have inputs : List.Forall₂ butLines.tokens (TokenInput.ofTokens (lex first).tokens).tokens
      (TokenInput.ofTokens (lex second).tokens).tokens :=
    sameButLine_takeWhile tokens
  have markers := sameButLine_marker tokens
  constructor
  · intro capacity
    have reading := (Grammar.Parallel.keeps_program butLines).reading inputs markers
    rw [run_eq_runOf firstScans, run_eq_runOf secondScans]
    exact .of_reading (session.runOf capacity) reading fun program other same =>
      execute_eq_of_sameButLines same capacity session
  · have reading := (Grammar.Parallel.keeps_expression butLines Grammar.maxNesting).reading
      inputs markers
    rw [evaluate_eq_evaluationOf firstScans, evaluate_eq_evaluationOf secondScans]
    exact .of_reading session.evaluationOf reading fun tree other same =>
      evaluateTree_eq_of_sameButLines same session

/-- A comment, line feeds and blanks in different places, and an assignment that is refused. -/
theorem layout_indifferent_sample :
    (lex "print a; // text\na\n+ 1 = 2;").errors = [] ∧
      (lex "\tprint a;a+1=2\n;").errors = [] ∧
      (lex "print a; // text\na\n+ 1 = 2;").tokens.map Token.lexeme =
        (lex "\tprint a;a+1=2\n;").tokens.map Token.lexeme ∧
      Indifferent (fun error => ⟨.error (.refused [error.diagnostic]), ByteArray.empty, {}⟩)
        (Program.ofTokens (lex "print a; // text\na\n+ 1 = 2;").tokens)
        (Program.ofTokens (lex "\tprint a;a+1=2\n;").tokens)
        (run "print a; // text\na\n+ 1 = 2;" .unlimited {})
        (run "\tprint a;a+1=2\n;" .unlimited {}) := by
  have firstScans : (lex "print a; // text\na\n+ 1 = 2;").errors = [] := by
    with_unfolding_all rfl
  have secondScans : (lex "\tprint a;a+1=2\n;").errors = [] := by
    with_unfolding_all rfl
  have firstTexts : (lex "print a; // text\na\n+ 1 = 2;").tokens.map Token.lexeme =
      ["print", "a", ";", "a", "+", "1", "=", "2", ";", ""] := by
    with_unfolding_all rfl
  have secondTexts : (lex "\tprint a;a+1=2\n;").tokens.map Token.lexeme =
      ["print", "a", ";", "a", "+", "1", "=", "2", ";", ""] := by
    with_unfolding_all rfl
  have sameTexts := firstTexts.trans secondTexts.symm
  exact ⟨firstScans, secondScans, sameTexts,
    (layout_indifferent firstScans secondScans sameTexts {}).1 .unlimited⟩

end Session

end Lox
