import Lox.Proofs.Syntax.Completeness
import Lox.Proofs.Syntax.Foresight

/-!
Contract: the steadiness of the grammar.

Owns:
- builders that let only the target decide whether there is an assignment;
- that every reader of the grammar is steady for such a builder, by induction on the room for
  nesting, and within statements on the number of tokens.

Does not own: the places of refusals in token lists with an end marker.
-/

namespace Lox.Grammar

open Lookahead

/-! ## Operands -/

/-- A token that is an expression by itself. -/
def nilToken : Token := ⟨.keyword .nilWord, "nil", 1⟩

/-- Steady wherever an expression may begin. -/
def SteadyAnywhere
    {Result : Type}
    (builds : Prop)
    (follows : Lookahead)
    (reader : Reader Result) : Prop :=
  ∀ begins : Lookahead, begins (some nilToken) → Steady builds begins follows reader

section Expressions

variable {Tree : Type} {builder : Builder Tree} {builds : Prop}

/-- What the readers know from the tokens that they have seen does not depend on what a builder
makes of them. -/
structure Builder.Regular (builder : Builder Tree) (builds : Prop) : Prop where
  /-- The tokens at an assignment do not matter. -/
  assign_eq (target : Tree) (unread others : List Token) (value : Tree) :
    builder.assign target unread value = builder.assign target others value
  /-- Only the target decides whether there is a tree. -/
  assign_eq_none (target : Tree) (unread : List Token) (value other : Tree) :
    builder.assign target unread value = none → builder.assign target unread other = none
  assign_ne_none (target : Tree) (unread : List Token) (value : Tree) :
    builds → builder.assign target unread value ≠ none

/-- The readers one level deeper are steady. -/
structure SteadyReaders (builds : Prop) (deeper : Readers Tree) : Prop where
  operand : SteadyAnywhere builds anything deeper.operand
  expression : SteadyAnywhere builds (ending 0) deeper.expression

theorem steadyAnywhere_tooMuchNesting {Result : Type} (follows : Lookahead) :
    SteadyAnywhere builds follows (refuse .tooMuchNesting : Reader Result) :=
  fun _ _ _ begun => foreseen_of_refuses .tooMuchNesting begun (fun _ _ => rfl)
    fun _ differs => absurd rfl differs

variable {deeper : Readers Tree}

/-- No token goes on with a unary or a primary expression. -/
theorem ending_unaryRank : ending unaryRank = anything := by
  funext next
  have ends : ending unaryRank next := by
    cases next with
    | none => exact endsAt_unaryRank []
    | some token => exact endsAt_unaryRank [token]
  exact propext ⟨fun _ => trivial, fun _ => ends⟩

/-- No token goes on with a closing parenthesis, brace or semicolon. -/
theorem ending_of_infixRank?_eq_none
    {token : Token}
    (rank : Nat)
    (noInfix : infixRank? token.kind = none) :
    ending rank (some token) :=
  endsAt_cons_of_infixRank?_eq_none rank noInfix []

private theorem steady_primary (steady : SteadyReaders builds deeper) :
    SteadyAnywhere builds anything (primary builder deeper) := by
  intro begins beginsNil unread begun
  have finishes : Finishes begins anything (primary builder deeper) :=
    ⟨[nilToken], builder.literal .nil, by simp [nilToken, Token.isEnd],
      fun _ _ => ⟨beginsNil, rfl⟩⟩
  cases unread with
  | nil => exact foreseen_at_end .expectedExpression begun rfl finishes
  | cons token rest =>
    obtain ⟨kind, lexeme, line⟩ := token
    have single {result : Tree} (read : ∀ others,
        primary builder deeper (⟨kind, lexeme, line⟩ :: others) = .ok (result, others)) :
        Foreseen builds begins anything (primary builder deeper) (⟨kind, lexeme, line⟩ :: rest) :=
      @Foreseen.accepted _ _ _ _ _ [_] rest result trivial fun others _ => ⟨begun, read others⟩
    have unexpected (refused : ∀ others, primary builder deeper (⟨kind, lexeme, line⟩ :: others) =
          .error ⟨.expectedExpression, ⟨kind, lexeme, line⟩ :: others⟩) :
        Foreseen builds begins anything (primary builder deeper)
          (⟨kind, lexeme, line⟩ :: rest) :=
      foreseen_at_token .expectedExpression begun refused finishes
    cases kind with
    | identifier | string | number => exact single fun _ => rfl
    | keyword word =>
      cases word with
      | nilWord | trueWord | falseWord => exact single fun _ => rfl
      | _ => exact unexpected fun _ => rfl
    | symbol mark =>
      cases mark with
      | leftParen =>
        have closed := (steady.expression anything trivial).closed (.symbol .rightParen)
          .missingRightParen (by simp)
          (fun token same => ending_of_infixRank?_eq_none 0 (by rw [same]; rfl)) builder.grouping
        exact .cons begun (fun _ => rfl) (closed rest trivial)
      | _ => exact unexpected fun _ => rfl
    | endOfInput => exact unexpected fun _ => rfl

/-- No unary operator is next. -/
private def noUnary : Lookahead := fun next => ∀ token ∈ next, UnaryOp.ofKind? token.kind = none

private theorem steady_operand (steady : SteadyReaders builds deeper) :
    SteadyAnywhere builds anything (operand builder deeper) := by
  intro begins beginsNil unread begun
  by_cases unary : noUnary unread.head?
  · -- The operand is a primary expression, also if only the next token stays the same.
    have primarySteady : Steady builds (fun next => begins next ∧ noUnary next) anything
        (primary builder deeper) :=
      steady_primary steady _ ⟨beginsNil, by simp [noUnary, nilToken, UnaryOp.ofKind?]⟩
    refine (primarySteady unread ⟨begun, unary⟩).congr (fun _ both => both.1) fun others both => ?_
    cases others with
    | nil => rfl
    | cons token others => simp only [operand, both.2 token rfl]
  · cases unread with
    | nil => exact absurd (by simp [noUnary]) unary
    | cons token rest =>
      cases known : UnaryOp.ofKind? token.kind with
      | none => exact absurd (by simpa [noUnary] using known) unary
      | some operator =>
        have inner := (steady.operand anything trivial).map (builder.unary operator)
        refine .cons begun (fun others => ?_) (inner rest trivial)
        simp only [operand, known]

/-! ## Chains of operators -/

private theorem reads_nil_chainFrom
    (level : Level)
    (next : Reader Tree)
    (room : Nat)
    (left : Tree) :
    Reads (ending (level.rank + 1)) (ending level.rank) (chainFrom builder level next room left) []
      left := by
  intro others ends
  refine ⟨EndsAt.mono ends (Nat.le_succ _), ?_⟩
  cases others with
  | nil => simp only [List.nil_append, chainFrom]
  | cons token others =>
    simp only [List.nil_append, chainFrom, operatorAt?_eq_none_of_endsAt ends]

private theorem exists_operator
    {level : Level}
    {unread : List Token}
    (begun : ending (level.rank + 1) unread.head?)
    (goesOn : ¬ ending level.rank unread.head?) :
    ∃ token rest operator, unread = token :: rest ∧
      operatorAt? level token.kind = some operator := by
  cases unread with
  | nil => exact absurd (endsAt_nil level.rank) goesOn
  | cons token rest =>
    cases found : operatorAt? level token.kind with
    | none => exact absurd (endsAt_of_operatorAt?_eq_none begun found) goesOn
    | some operator => exact ⟨token, rest, operator, rfl, found⟩

/-- A chain is steady if what follows each of its operators is. -/
private theorem steady_chainFrom_of_operator
    {level : Level}
    {next : Reader Tree}
    {room : Nat}
    {left : Tree}
    {after : BinaryOp → Reader Tree}
    (steadyAfter : ∀ operator, Steady builds anything (ending level.rank) (after operator))
    (step : ∀ {token operator}, operatorAt? level token.kind = some operator → ∀ others,
      chainFrom builder level next room left (token :: others) = after operator others) :
    Steady builds (ending (level.rank + 1)) (ending level.rank)
      (chainFrom builder level next room left) := by
  intro unread begun
  by_cases ends : ending level.rank unread.head?
  · exact .accepted ends (reads_nil_chainFrom level next room left)
  · obtain ⟨token, rest, operator, rfl, found⟩ := exists_operator begun ends
    exact .cons begun (step found) (steadyAfter operator rest trivial)

private theorem steady_chainFrom
    (level : Level)
    {next : Reader Tree}
    (steady : SteadyAnywhere builds (ending (level.rank + 1)) next)
    (room : Nat)
    (left : Tree) :
    Steady builds (ending (level.rank + 1)) (ending level.rank)
      (chainFrom builder level next room left) := by
  induction room generalizing left with
  | zero =>
    refine steady_chainFrom_of_operator
      (fun _ => steadyAnywhere_tooMuchNesting _ anything trivial) fun found others => ?_
    simp only [chainFrom, found]
  | succ room inductionHypothesis =>
    refine steady_chainFrom_of_operator
      (fun operator => (steady anything trivial).bind
        (fun right => inductionHypothesis (builder.binary left operator right))
        (fun right => finishes_of_reads_nil (reads_nil_chainFrom level next room _)))
      fun found others => ?_
    simp only [chainFrom, found]

private theorem steady_chain
    (level : Level)
    (room : Nat)
    {next : Reader Tree}
    (steady : SteadyAnywhere builds (ending (level.rank + 1)) next) :
    SteadyAnywhere builds (ending level.rank) (chain builder level room next) :=
  fun begins beginsNil => (steady begins beginsNil).bind
    (fun left => steady_chainFrom level steady room left)
    (fun left => finishes_of_reads_nil (reads_nil_chainFrom level next room left))

private theorem steady_equality
    (room : Nat)
    (steady : SteadyReaders builds deeper) :
    SteadyAnywhere builds (ending Level.equality.rank) (equality builder room deeper) := by
  have operands : SteadyAnywhere builds (ending (Level.factor.rank + 1))
      (operand builder deeper) := by
    have same : ending (Level.factor.rank + 1) = anything := ending_unaryRank
    rw [same]
    exact steady_operand steady
  exact steady_chain .equality room <| steady_chain .comparison room <|
    steady_chain .term room <| steady_chain .factor room operands

/-! ## Assignments -/

/-- What comes after the target of an assignment, or after an expression without one. -/
private def assignTail (builder : Builder Tree) (deeper : Readers Tree) (target : Tree) :
    Reader Tree :=
  fun rest =>
    match rest with
    | [] => return (target, [])
    | token :: inside =>
      if token.kind = .symbol .equal then do
        let (value, after) ← deeper.expression inside
        match builder.assign target rest value with
        | some tree => return (tree, after)
        | none => refuse .invalidAssignmentTarget rest
      else return (target, rest)

private theorem assignTail_of_equal
    (regular : builder.Regular builds)
    {token : Token}
    (equal : token.kind = .symbol .equal)
    (target : Tree)
    (inside : List Token) :
    assignTail builder deeper target (token :: inside) = (do
      let (value, after) ← deeper.expression inside
      match builder.assign target [] value with
      | some tree => return (tree, after)
      | none => refuse .invalidAssignmentTarget (token :: inside)) := by
  simp only [assignTail, if_pos equal, regular.assign_eq target (token :: inside) []]

private theorem reads_nil_assignTail (target : Tree) :
    Reads (ending Level.equality.rank) (ending 0) (assignTail builder deeper target) []
      target := by
  intro others ends
  refine ⟨EndsAt.mono ends (Nat.zero_le _), ?_⟩
  cases others with
  | nil => rfl
  | cons token others => exact if_neg ((endsAt_zero_iff.1 ends) token rfl).1

private theorem steady_assignTail
    (regular : builder.Regular builds)
    (steady : SteadyReaders builds deeper)
    (target : Tree) :
    Steady builds (ending Level.equality.rank) (ending 0) (assignTail builder deeper target) := by
  intro unread begun
  by_cases stops : ending 0 unread.head?
  · exact .accepted stops (reads_nil_assignTail target)
  · cases unread with
    | nil => exact absurd (endsAt_nil 0) stops
    | cons token inside =>
      have equal : token.kind = .symbol .equal := Classical.byContradiction fun noEqual =>
        stops (endsAt_zero_of_kind_ne_equal begun noEqual)
      cases steady.expression anything trivial inside trivial with
      | @accepted front rest value ends reads =>
        cases built : builder.assign target [] value with
        | some tree =>
          refine @Foreseen.accepted _ _ _ _ _ (token :: front) rest tree ends ?_
          intro others allowed
          refine ⟨begun, ?_⟩
          rw [List.cons_append, assignTail_of_equal regular equal, (reads others allowed).2]
          simp only [ok_bind, built]
          rfl
        | none =>
          refine @Foreseen.refused _ _ _ _ _ [] (token :: (front ++ rest))
            .invalidAssignmentTarget ?_ ?_ ?_
          · rw [List.nil_append, assignTail_of_equal regular equal, (reads rest ends).2]
            simp only [ok_bind, built]
            rfl
          · intro others same
            obtain ⟨tail, rfl⟩ := List.head?_eq_some_iff.1 same
            refine ⟨begun, ?_⟩
            rw [List.nil_append, assignTail_of_equal regular equal]
            rcases deeper.expression tail with refusal | ⟨other, after⟩
            · exact ⟨refusal, rfl⟩
            · have notBuilt := regular.assign_eq_none target [] value other built
              simp only [ok_bind, notBuilt]
              exact ⟨_, rfl⟩
          · exact fun builds _ => absurd built (regular.assign_ne_none target [] value builds)
      | @refused front rest fault found refuses completes =>
        refine @Foreseen.refused _ _ _ _ _ (token :: front) rest fault ?_ ?_ ?_
        · rw [List.cons_append, assignTail_of_equal regular equal, found]
          rfl
        · intro others same
          obtain ⟨_, refusal, refused⟩ := refuses others same
          refine ⟨begun, refusal, ?_⟩
          rw [List.cons_append, assignTail_of_equal regular equal, refused]
          rfl
        · intro builds noNesting
          obtain ⟨closing, value, noEnd, reads⟩ := completes builds noNesting
          obtain ⟨tree, built⟩ :=
            Option.ne_none_iff_exists'.1 (regular.assign_ne_none target [] value builds)
          refine ⟨closing, tree, noEnd, fun others allowed => ⟨begun, ?_⟩⟩
          rw [List.cons_append, List.cons_append, assignTail_of_equal regular equal,
            (reads others allowed).2]
          simp only [ok_bind, built]
          rfl

private theorem steady_assignment
    (room : Nat)
    (regular : builder.Regular builds)
    (steady : SteadyReaders builds deeper) :
    SteadyAnywhere builds (ending 0) (assignment builder room deeper) :=
  fun begins beginsNil => (steady_equality room steady begins beginsNil).bind
    (fun target => steady_assignTail regular steady target)
    (fun target => finishes_of_reads_nil (reads_nil_assignTail target))

/-! ## Nesting -/

private theorem steady_readers (regular : builder.Regular builds) (room : Nat) :
    SteadyReaders builds (readers builder room) := by
  have within {deeper : Readers Tree} (room : Nat) (steady : SteadyReaders builds deeper) :
      SteadyReaders builds (readersWithin builder room deeper) :=
    ⟨steady_operand steady, steady_assignment room regular steady⟩
  induction room with
  | zero => exact within 0 ⟨steadyAnywhere_tooMuchNesting _, steadyAnywhere_tooMuchNesting _⟩
  | succ room inductionHypothesis => exact within (room + 1) inductionHypothesis

/-- The reader of expressions is steady. -/
theorem steady_expression (regular : builder.Regular builds) (room : Nat) :
    SteadyAnywhere builds (ending 0) (expression builder room) :=
  (steady_readers regular room).expression

end Expressions

/-! ## Statements -/

section Statements

variable {Tree : Type} {builds : Prop}

/-! ### Sequences -/

private theorem reads_nil_statementsFrom
    (stops : Token → Bool)
    (declaration : Advancing (Statement Tree))
    (found : List (Statement Tree)) :
    Reads anything (stopping stops) (statementsFrom stops declaration found) [] found.reverse :=
  fun _ stopped => ⟨trivial, statementsFrom_of_stops stopped⟩

private theorem steady_statementsFrom
    (stops : Token → Bool)
    (noStop : stops nilToken = false)
    {declaration : Advancing (Statement Tree)}
    (steady : SteadyAnywhere builds anything declaration.read)
    (found : List (Statement Tree)) :
    Steady builds anything (stopping stops) (statementsFrom stops declaration found) := by
  intro unread begun
  -- Every statement takes at least one token.
  induction size : unread.length using Nat.strongRecOn generalizing unread found with
  | ind size inductionHypothesis =>
  by_cases stopped : stopping stops unread.head?
  · exact .accepted stopped (reads_nil_statementsFrom stops declaration found)
  · have goesOn : going stops unread.head? := by
      simpa [stopping, going] using stopped
    have first := steady (going stops) ⟨nilToken, rfl, by simp [noStop]⟩ unread goesOn
    have both := first.bind
      (fun statement => statementsFrom stops declaration (statement :: found))
      (fun statement rest read _ => inductionHypothesis rest.length
        (size ▸ declaration.advances read) (statement :: found) rest trivial rfl)
      (fun statement => finishes_of_reads_nil
        (reads_nil_statementsFrom stops declaration (statement :: found)))
    refine both.congr (fun _ _ => trivial) ?_
    rintro others ⟨token, next, noStop⟩
    obtain ⟨tail, rfl⟩ := List.head?_eq_some_iff.1 next
    exact statementsFrom_of_goesOn noStop

private theorem steady_block
    {declaration : Advancing (Statement Tree)}
    (steady : SteadyAnywhere builds anything declaration.read) :
    Steady builds anything anything (block declaration) := by
  refine (steady_statementsFrom endsBlock rfl steady []).closed _ _ (by simp)
    (fun token same => ?_) _
  rintro _ ⟨⟩
  simpa [endsBlock] using same

/-! ### Single statements -/

variable {expression : Reader Tree} {inBlock : Reader (Statement Tree)}

private theorem ending_of_semicolon {token : Token} (same : token.kind = .symbol .semicolon) :
    ending 0 (some token) :=
  ending_of_infixRank?_eq_none 0 (by rw [same]; rfl)

private theorem steady_expressionStatement (steady : SteadyAnywhere builds (ending 0) expression) :
    SteadyAnywhere builds anything (expressionStatement expression) :=
  fun begins beginsNil =>
    (steady begins beginsNil).closed _ _ (by simp) (fun _ => ending_of_semicolon) _

private theorem steady_printStatement (steady : SteadyAnywhere builds (ending 0) expression) :
    Steady builds anything anything (printStatement expression) :=
  (steady anything trivial).closed _ _ (by simp) (fun _ => ending_of_semicolon) _

/-- What comes after the name of a variable. -/
private def varTail (expression : Reader Tree) (name : Name) : Reader (Statement Tree) :=
  fun unread => do
    let (tree, rest) ← initializer expression unread
    let rest ← expect (.symbol .semicolon) .expectedSemicolonAfterVarDeclaration rest
    return (.var name tree, rest)

/-- No equals sign is next. -/
private def noEqual : Lookahead := fun next => ∀ token ∈ next, token.kind ≠ .symbol .equal

private theorem steady_varTail
    (steady : SteadyAnywhere builds (ending 0) expression)
    (name : Name) :
    Steady builds anything anything (varTail expression name) := by
  intro unread begun
  by_cases bare : noEqual unread.head?
  · have nothing : Steady builds noEqual noEqual
        (fun unread => (.ok ((), unread) : Except Refusal (Unit × List Token))) :=
      fun rest allowed => @Foreseen.accepted _ _ _ _ _ [] rest () allowed
        fun others allowed => ⟨allowed, rfl⟩
    have closed := nothing.closed (.symbol .semicolon) .expectedSemicolonAfterVarDeclaration
      (by simp) (fun token same => by simp [noEqual, same])
      fun _ => (.var name none : Statement Tree)
    refine (closed unread bare).congr (fun _ _ => trivial) fun others noEqual => ?_
    cases others with
    | nil => rfl
    | cons token others =>
      simp only [varTail, initializer, if_neg (noEqual token rfl)]
      rfl
  · cases unread with
    | nil => exact absurd (by simp [noEqual]) bare
    | cons token rest =>
      have equal : token.kind = .symbol .equal := by
        simpa [noEqual] using bare
      have closed := (steady anything trivial).closed (.symbol .semicolon)
        .expectedSemicolonAfterVarDeclaration (by simp) (fun _ => ending_of_semicolon)
        fun tree => Statement.var name (some tree)
      refine .cons begun (fun others => ?_) (closed rest trivial)
      simp only [varTail, initializer, if_pos equal, bind_assoc, pure_bind]

private theorem steady_varDeclaration (steady : SteadyAnywhere builds (ending 0) expression) :
    Steady builds anything anything (varDeclaration expression) := by
  have finishes : Finishes anything anything (varDeclaration expression) :=
    ⟨[⟨.identifier, "a", 1⟩, ⟨.symbol .semicolon, ";", 1⟩], .var ⟨"a", 1⟩ none,
      by simp [Token.isEnd], fun _ _ => ⟨trivial, rfl⟩⟩
  intro unread begun
  cases unread with
  | nil => exact foreseen_at_end .expectedVariableName begun rfl finishes
  | cons token rest =>
    by_cases name : token.kind = .identifier
    · exact .cons begun (fun others => if_pos name)
        (steady_varTail steady ⟨token.lexeme, token.line⟩ rest trivial)
    · exact foreseen_at_token .expectedVariableName begun (fun others => if_neg name) finishes

/-- No token is next that only begins a statement. -/
private def plain : Lookahead :=
  fun next => ∀ token ∈ next, token.kind ≠ .keyword .varWord ∧ token.kind ≠ .keyword .printWord ∧
    token.kind ≠ .symbol .leftBrace

private theorem steady_declaration
    (steady : SteadyAnywhere builds (ending 0) expression)
    (steadyInBlock : Steady builds anything anything inBlock) :
    SteadyAnywhere builds anything (declaration expression inBlock) := by
  intro begins beginsNil unread begun
  by_cases isPlain : plain unread.head?
  · have plainSteady := steady_expressionStatement steady (fun next => begins next ∧ plain next)
      ⟨beginsNil, by simp [plain, nilToken]⟩
    refine (plainSteady unread ⟨begun, isPlain⟩).congr (fun _ both => both.1) fun others both => ?_
    cases others with
    | nil => rfl
    | cons token others =>
      obtain ⟨noVar, noPrint, noBrace⟩ := both.2 token rfl
      unfold declaration
      dsimp only
      split
      · exact absurd ‹_› noVar
      · exact absurd ‹_› noPrint
      · exact absurd ‹_› noBrace
      · rfl
  · cases unread with
    | nil => exact absurd (by simp [plain]) isPlain
    | cons token rest =>
      have known : token.kind = .keyword .varWord ∨ token.kind = .keyword .printWord ∨
          token.kind = .symbol .leftBrace := by
        refine Classical.byContradiction fun other => isPlain ?_
        rintro _ ⟨⟩
        simpa only [not_or] using other
      rcases known with isVar | isPrint | isBrace
      · exact .cons begun (fun others => by simp only [declaration, isVar])
          (steady_varDeclaration steady rest trivial)
      · exact .cons begun (fun others => by simp only [declaration, isPrint])
          (steady_printStatement steady rest trivial)
      · exact .cons begun (fun others => by simp only [declaration, isBrace])
          (steadyInBlock rest trivial)

end Statements

/-! ## Programs -/

section Programs

variable {Tree : Type} {builder : Builder Tree} {builds : Prop}

private theorem steady_declarationAt (regular : builder.Regular builds) (room : Nat) :
    SteadyAnywhere builds anything (declarationAt builder room).read := by
  induction room with
  | zero =>
    exact steady_declaration (steady_expression regular 0)
      (steadyAnywhere_tooMuchNesting anything anything trivial)
  | succ room inductionHypothesis =>
    exact steady_declaration (steady_expression regular (room + 1))
      (steady_block inductionHypothesis)

/-- The reader of programs is steady, up to the end of the input. -/
theorem steady_program (regular : builder.Regular builds) :
    Steady builds anything (stopping fun _ => false) (program builder) :=
  steady_statementsFrom _ rfl (steady_declarationAt regular maxNesting) []

end Programs

end Lox.Grammar
