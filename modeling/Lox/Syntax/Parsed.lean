import Lox.Syntax.Grammar.Statement

/-!
Contract: expressions and programs as read from token lists.

Owns:
- the input of the grammar: the tokens up to the first end marker;
- reading an expression or a program for the trees of a builder, and for `Expr`;
- which syntax error a refusal is.

Does not own: the grammar.
-/

namespace Lox

/-! ## The input -/

/-- Tokens before an end marker, and that marker. -/
structure TokenInput where
  tokens : List Token
  marker : Token

namespace TokenInput

/-- The tokens before the first end marker.  A list without one gets one on the line of its last
token, or on the first line if there is none. -/
def ofTokens (tokens : List Token) : TokenInput where
  tokens := tokens.takeWhile (!·.isEnd)
  marker :=
    match tokens.find? Token.isEnd with
    | some marker => marker
    | none => .endAt ((tokens.getLast?.map Token.line).getD 1)

/-- The input ends with an end marker. -/
theorem isEnd_marker (tokens : List Token) : (ofTokens tokens).marker.isEnd = true := by
  unfold ofTokens
  dsimp only
  split
  · exact List.find?_some ‹_›
  · rfl

/-- Nothing before the end marker of the input is one. -/
theorem isEnd_eq_false
    {tokens : List Token}
    {token : Token}
    (member : token ∈ (ofTokens tokens).tokens) :
    token.isEnd = false := by
  have keeps := List.all_eq_true.1 List.all_takeWhile token member
  simpa using keeps

/-- The error that points at the first unread token of a refusal, or at the end marker. -/
def errorOf (input : TokenInput) (refusal : Grammar.Refusal) : SyntaxError where
  fault := refusal.fault
  index := input.tokens.length - refusal.unread.length
  token := refusal.unread.head?.getD input.marker

/-- What the reader makes of the input, whatever tokens it leaves. -/
def read {Result : Type} (reader : Grammar.Reader Result) (input : TokenInput) :
    Except SyntaxError Result :=
  match reader input.tokens with
  | .ok (result, _) => .ok result
  | .error refusal => .error (input.errorOf refusal)

end TokenInput

/-! ## Trees -/

namespace Grammar

/-- The expression at the beginning of the tokens; what comes after it is ignored. -/
def readExpression {Tree : Type} (builder : Builder Tree) (tokens : List Token) :
    Except SyntaxError Tree :=
  (TokenInput.ofTokens tokens).read (expression builder maxNesting)

/-- The program that the tokens are. -/
def readProgram {Tree : Type} (builder : Builder Tree) (tokens : List Token) :
    Except SyntaxError (List (Statement Tree)) :=
  (TokenInput.ofTokens tokens).read (program builder)

end Grammar

namespace Expr

/-- The trees of the language: only a name can be assigned to. -/
def builder : Grammar.Builder Expr where
  literal := .literal
  reference := .reference
  grouping := .grouping
  unary := .unary
  binary := .binary
  assign := fun target _ value =>
    match target with
    | .reference name => some (.assign name value)
    | _ => none

/-- The expression at the beginning of the tokens. -/
def ofTokens (tokens : List Token) : Except SyntaxError Expr :=
  Grammar.readExpression builder tokens

end Expr

namespace Program

/-- The program that the tokens are. -/
def ofTokens (tokens : List Token) : Except SyntaxError Program :=
  Grammar.readProgram Expr.builder tokens

end Program

end Lox
