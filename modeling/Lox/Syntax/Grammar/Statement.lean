import Lox.Syntax.Grammar.Expression

/-!
Contract: the grammar of statements.

Owns:
- the readers of declarations, statements and blocks;
- sequences of statements, which end because every statement takes at least one token.

Does not own: the end marker of a token list, or the error that a refusal is reported as.
-/

namespace Lox.Grammar

/-- A reader that takes at least one token whenever it does not refuse. -/
structure Advancing (Result : Type) where
  read : Reader Result
  advances : Advances read

section

variable {Tree : Type}

/-! ## Sequences -/

/-- Reads statements up to a token that stops them, or to the end of the input.  The statements
found so far come last first. -/
def statementsFrom
    (stops : Token → Bool)
    (declaration : Advancing (Statement Tree))
    (found : List (Statement Tree)) :
    Reader (List (Statement Tree))
  | [] => .ok (found.reverse, [])
  | token :: rest =>
    if stops token then .ok (found.reverse, token :: rest)
    else
      match _ : declaration.read (token :: rest) with
      | .error refusal => .error refusal
      | .ok (statement, remaining) =>
        statementsFrom stops declaration (statement :: found) remaining
termination_by unread => unread.length
decreasing_by exact declaration.advances ‹_›

/-- At the end and before a token that stops the statements, no more are read. -/
theorem statementsFrom_of_stops
    {stops : Token → Bool}
    {declaration : Advancing (Statement Tree)}
    {found : List (Statement Tree)}
    {unread : List Token}
    (stopped : ∀ token ∈ unread.head?, stops token = true) :
    statementsFrom stops declaration found unread = .ok (found.reverse, unread) := by
  unfold statementsFrom
  split
  · rfl
  · rw [if_pos (stopped _ rfl)]

/-- Before a token that does not stop the statements, one more is read. -/
theorem statementsFrom_of_goesOn
    {stops : Token → Bool}
    {declaration : Advancing (Statement Tree)}
    {found : List (Statement Tree)}
    {token : Token}
    {rest : List Token}
    (goesOn : ¬ stops token = true) :
    statementsFrom stops declaration found (token :: rest) =
      declaration.read (token :: rest) >>= fun (statement, remaining) =>
        statementsFrom stops declaration (statement :: found) remaining := by
  rw [statementsFrom, if_neg goesOn]
  split
  · rename_i refusal refused
    rw [refused]
    rfl
  · rename_i statement remaining taken
    rw [taken]
    rfl

/-- Whether the token ends a block. -/
def endsBlock (token : Token) : Bool :=
  token.kind = .symbol .rightBrace

/-- The statements of a block, after the brace that opens it, and the brace that closes it. -/
def block (declaration : Advancing (Statement Tree)) : Reader (Statement Tree) :=
  fun unread => do
    let (body, rest) ← statementsFrom endsBlock declaration [] unread
    let rest ← expect (.symbol .rightBrace) .expectedRightBrace rest
    return (.block body, rest)

/-! ## Single statements -/

/-- An expression and a semicolon. -/
def expressionStatement (expression : Reader Tree) : Reader (Statement Tree) :=
  fun unread => do
    let (tree, rest) ← expression unread
    let rest ← expect (.symbol .semicolon) .expectedSemicolonAfterExpression rest
    return (.expression tree, rest)

/-- What comes after `print`: an expression and a semicolon. -/
def printStatement (expression : Reader Tree) : Reader (Statement Tree) :=
  fun unread => do
    let (tree, rest) ← expression unread
    let rest ← expect (.symbol .semicolon) .expectedSemicolonAfterValue rest
    return (.print tree, rest)

/-- After the name of a variable: an equals sign and an expression, or nothing. -/
def initializer (expression : Reader Tree) : Reader (Option Tree)
  | [] => .ok (none, [])
  | token :: rest =>
    if token.kind = .symbol .equal then do
      let (tree, rest) ← expression rest
      return (some tree, rest)
    else .ok (none, token :: rest)

/-- What comes after `var`: a name, perhaps an initial value, and a semicolon. -/
def varDeclaration (expression : Reader Tree) : Reader (Statement Tree)
  | [] => refuse .expectedVariableName []
  | token :: rest =>
    if token.kind = .identifier then do
      let (tree, rest) ← initializer expression rest
      let rest ← expect (.symbol .semicolon) .expectedSemicolonAfterVarDeclaration rest
      return (.var ⟨token.lexeme, token.line⟩ tree, rest)
    else refuse .expectedVariableName (token :: rest)

/-- A declaration or a statement, chosen by its first token. -/
def declaration (expression : Reader Tree) (inBlock : Reader (Statement Tree)) :
    Reader (Statement Tree)
  | [] => expressionStatement expression []
  | token :: rest =>
    match token.kind with
    | .keyword .varWord => varDeclaration expression rest
    | .keyword .printWord => printStatement expression rest
    | .symbol .leftBrace => inBlock rest
    | _ => expressionStatement expression (token :: rest)

/-! ## Progress -/

private theorem length_statementsFrom
    {stops : Token → Bool}
    {declaration : Advancing (Statement Tree)}
    {found : List (Statement Tree)}
    {unread rest : List Token}
    {result : List (Statement Tree)}
    (read : statementsFrom stops declaration found unread = .ok (result, rest)) :
    rest.length ≤ unread.length := by
  fun_induction statementsFrom stops declaration found unread with
  | case1 =>
    cases read
    exact Nat.le_refl _
  | case2 =>
    cases read
    exact Nat.le_refl _
  | case3 => contradiction
  | case4 found token after _ statement remaining taken inductionHypothesis =>
    have first := declaration.advances taken
    have others := inductionHypothesis read
    omega

private theorem advances_block (declaration : Advancing (Statement Tree)) :
    Advances (block declaration) := by
  intro unread result rest read
  obtain ⟨⟨body, unclosed⟩, inside, read⟩ := exists_of_bind_eq_ok read
  obtain ⟨last, closed, read⟩ := exists_of_bind_eq_ok read
  cases read
  exact Nat.lt_of_lt_of_le (expect_length closed) (length_statementsFrom inside)

private theorem advances_expressionStatement
    {expression : Reader Tree}
    (expressionAdvances : Advances expression) :
    Advances (expressionStatement expression) := by
  intro unread result rest read
  obtain ⟨⟨tree, unclosed⟩, inside, read⟩ := exists_of_bind_eq_ok read
  obtain ⟨last, closed, read⟩ := exists_of_bind_eq_ok read
  cases read
  exact Nat.lt_trans (expect_length closed) (expressionAdvances inside)

private theorem advances_printStatement
    {expression : Reader Tree}
    (expressionAdvances : Advances expression) :
    Advances (printStatement expression) := by
  intro unread result rest read
  obtain ⟨⟨tree, unclosed⟩, inside, read⟩ := exists_of_bind_eq_ok read
  obtain ⟨last, closed, read⟩ := exists_of_bind_eq_ok read
  cases read
  exact Nat.lt_trans (expect_length closed) (expressionAdvances inside)

private theorem length_initializer
    {expression : Reader Tree}
    (expressionAdvances : Advances expression)
    {unread rest : List Token}
    {result : Option Tree}
    (read : initializer expression unread = .ok (result, rest)) :
    rest.length ≤ unread.length := by
  unfold initializer at read
  split at read
  · cases read
    exact Nat.le_refl _
  · rename_i token after
    split at read
    · obtain ⟨⟨tree, remaining⟩, inside, read⟩ := exists_of_bind_eq_ok read
      cases read
      exact Nat.le_succ_of_le (Nat.le_of_lt (expressionAdvances inside))
    · cases read
      exact Nat.le_refl _

private theorem advances_varDeclaration
    {expression : Reader Tree}
    (expressionAdvances : Advances expression) :
    Advances (varDeclaration expression) := by
  intro unread result rest read
  unfold varDeclaration at read
  split at read
  · cases read
  · rename_i token after
    split at read
    · obtain ⟨⟨tree, unclosed⟩, inside, read⟩ := exists_of_bind_eq_ok read
      obtain ⟨last, closed, read⟩ := exists_of_bind_eq_ok read
      cases read
      have first := length_initializer expressionAdvances inside
      have second := expect_length closed
      exact Nat.lt_succ_of_lt (Nat.lt_of_lt_of_le second first)
    · cases read

private theorem advances_declaration
    {expression : Reader Tree}
    {inBlock : Reader (Statement Tree)}
    (expressionAdvances : Advances expression)
    (blockAdvances : Advances inBlock) :
    Advances (declaration expression inBlock) := by
  intro unread result rest read
  unfold declaration at read
  split at read
  · exact advances_expressionStatement expressionAdvances read
  · rename_i token after
    split at read
    · exact Nat.lt_succ_of_lt (advances_varDeclaration expressionAdvances read)
    · exact Nat.lt_succ_of_lt (advances_printStatement expressionAdvances read)
    · exact Nat.lt_succ_of_lt (blockAdvances read)
    · exact advances_expressionStatement expressionAdvances read

/-! ## Nesting -/

variable (builder : Builder Tree)

/-- The reader of declarations at the depth that leaves the room.  With no room left a block is
refused at the token after its brace. -/
def declarationAt : (room : Nat) → Advancing (Statement Tree)
  | 0 =>
    ⟨declaration (expression builder 0) (refuse .tooMuchNesting),
      advances_declaration (advances_expression 0) (advances_refuse _)⟩
  | room + 1 =>
    ⟨declaration (expression builder (room + 1)) (block (declarationAt room)),
      advances_declaration (advances_expression (room + 1)) (advances_block _)⟩

/-- Statements up to the end of the input. -/
def program : Reader (List (Statement Tree)) :=
  statementsFrom (fun _ => false) (declarationAt builder maxNesting) []

end

end Lox.Grammar
