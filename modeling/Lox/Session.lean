import Lox.Evaluation.Statement
import Lox.Syntax.Parsed
import Lox.Token.Lexed

/-!
Contract: source texts run one after another over the same global bindings.

Owns:
- from a source text to a program or an expression, with every report about a text that is
  refused;
- sessions, and what running a text or evaluating an expression does to one.

Does not own: where source texts come from and where reports go.
-/

namespace Lox

/-! ## Source texts -/

/-- The tokens of a source, or every report about it. -/
def tokensOfSource (source : String) : Except (List Diagnostic) (List Token) :=
  (lex source).accepted.mapError (·.map LexicalError.diagnostic)

/-- The program that a source is.  Tokens are only read as a program if there is no lexical
error, and then the first syntax error is the only report. -/
def Program.ofSource (source : String) : Except (List Diagnostic) Program := do
  let tokens ← tokensOfSource source
  (Program.ofTokens tokens).mapError fun error => [error.diagnostic]

/-- The expression at the beginning of a source. -/
def Expr.ofSource (source : String) : Except (List Diagnostic) Expr := do
  let tokens ← tokensOfSource source
  (Expr.ofTokens tokens).mapError fun error => [error.diagnostic]

/-- Why a source has no result: it was refused and nothing was executed, or an error stopped
it. -/
inductive Failure where
  | refused (reports : List Diagnostic)
  | stopped (error : RuntimeError)
deriving DecidableEq

/-- The text of the failure. -/
def Failure.message : Failure → String
  | refused reports => Diagnostic.report reports
  | stopped error => error.message

/-! ## Sessions -/

/-- What is kept from one source to the next. -/
structure Session where
  environment : Environment := {}

/-- What came of a run: its result, the bytes that it wrote, and the session after it. -/
structure Run where
  result : Except Failure Unit
  output : ByteArray
  session : Session

namespace Session

/-- Executes a program with an output of the given capacity. -/
def execute (program : Program) (capacity : Capacity) (session : Session) : Run :=
  match executeAll program ⟨session.environment, { capacity := capacity }⟩ with
  | (result, world) => ⟨result.mapError .stopped, world.sink.written, ⟨world.environment⟩⟩

/-- Runs a source.  A refused source writes nothing and changes nothing. -/
def run (source : String) (capacity : Capacity) (session : Session) : Run :=
  match Program.ofSource source with
  | .error reports => ⟨.error (.refused reports), ByteArray.empty, session⟩
  | .ok program => session.execute program capacity

/-- Evaluates an expression. -/
def evaluateTree (expression : Expr) (session : Session) : Except Failure Value × Session :=
  match expression.evaluate session.environment with
  | (result, environment) => (result.mapError .stopped, ⟨environment⟩)

/-- Evaluates the expression at the beginning of a source. -/
def evaluate (source : String) (session : Session) : Except Failure Value × Session :=
  match Expr.ofSource source with
  | .error reports => (.error (.refused reports), session)
  | .ok expression => session.evaluateTree expression

end Session

end Lox
