import Lox.Session
import Lox.Syntax.Rendering
import Lox.Token.Listing

/-!
Contract: what the program does when it is called.

Owns:
- the commands on a file and their outcomes;
- the prompt: its reply to one line, and its outcome on the whole of its input.

Does not own: reading files and standard input, and writing what an outcome holds.
-/

namespace Lox.CommandLine

/-! ## Outcomes -/

/-- What a call leaves behind: an exit status and the two outputs. -/
structure Outcome where
  status : Nat
  stdout : ByteArray := ByteArray.empty
  stderr : String := ""

/-- The exit status after success. -/
def successStatus : Nat := 0

/-- The exit status if the program could not do its work at all. -/
def failureStatus : Nat := 1

/-- The exit status if the source is refused. -/
def refusedStatus : Nat := 65

/-- The exit status if an error stops the program. -/
def stoppedStatus : Nat := 70

/-- The exit status after a failure on a source. -/
def statusOf : Failure → Nat
  | .refused _ => refusedStatus
  | .stopped _ => stoppedStatus

namespace Outcome

/-- A text and a line feed on standard output. -/
def printed (text : String) : Outcome where
  status := successStatus
  stdout := (text ++ "\n").toUTF8

/-- A failure after some output: its text and a line feed on standard error. -/
def failed (failure : Failure) (stdout : ByteArray) : Outcome where
  status := statusOf failure
  stdout := stdout
  stderr := failure.message ++ "\n"

end Outcome

/-! ## Commands on a file -/

/-- The commands. -/
inductive Command where
  | tokenize
  | parse
  | evaluate
  | run
deriving DecidableEq, Repr

namespace Command

/-- Every command, each once. -/
def all : List Command :=
  [tokenize, parse, evaluate, run]

/-- The word for the command. -/
def word : Command → String
  | tokenize => "tokenize"
  | parse => "parse"
  | evaluate => "evaluate"
  | run => "run"

/-- The command that a word stands for. -/
def ofWord? (word : String) : Option Command :=
  all.find? fun command => command.word == word

/-- Lists the tokens, also those of a refused source. -/
def listTokens (source : String) : Outcome :=
  let lexed := lex source
  let listing := String.join (lexed.tokens.map fun token => token.listing ++ "\n")
  match lexed.accepted with
  | .ok _ => { status := successStatus, stdout := listing.toUTF8 }
  | .error errors => .failed (.refused (errors.map LexicalError.diagnostic)) listing.toUTF8

/-- What the command does with a source. -/
def onSource (command : Command) (source : String) : Outcome :=
  match command with
  | tokenize => listTokens source
  | parse =>
    match Expr.ofSource source with
    | .ok expression => .printed expression.text
    | .error reports => .failed (.refused reports) ByteArray.empty
  | evaluate =>
    match (Session.evaluate source {}).1 with
    | .ok value => .printed value.text
    | .error failure => .failed failure ByteArray.empty
  | run =>
    match Session.run source .unlimited {} with
    | ⟨.ok (), output, _⟩ => { status := successStatus, stdout := output }
    | ⟨.error failure, output, _⟩ => .failed failure output

end Command

/-- The reason given for bytes that are no text. -/
def invalidText : String := "stream did not contain valid UTF-8"

/-- The reason given for a file that is not there. -/
def missingFile : String := "No such file or directory (os error 2)"

/-- The outcome if a file cannot be read. -/
def unreadable (file reason : String) : Outcome where
  status := failureStatus
  stderr := "Error: Failed to read " ++ file ++ "\n\nCaused by:\n    " ++ reason ++ "\n"

/-- What the command does with a file, given its bytes or the reason why there are none. -/
def Command.onFile (command : Command) (file : String) (content : Except String ByteArray) :
    Outcome :=
  match content with
  | .error reason => unreadable file reason
  | .ok bytes =>
    match String.fromUTF8? bytes with
    | none => unreadable file invalidText
    | some source => command.onSource source

/-! ## The prompt -/

/-- What the prompt writes before it reads a line. -/
def invitation : String := "> "

/-- What the prompt answers to a line: what goes to the two outputs, and the session to go on
with; none if it ends. -/
structure Reply where
  stdout : ByteArray := ByteArray.empty
  stderr : String := ""
  session : Option Session

/-- Runs a line.  A failure is reported and the prompt goes on, unless the line is no text. -/
def replyTo (line : ByteArray) (session : Session) : Reply :=
  match String.fromUTF8? line with
  | none => { stderr := "Error: " ++ invalidText ++ "\n", session := none }
  | some source =>
    match session.run source .unlimited with
    | ⟨.ok (), output, session⟩ => { stdout := output, session := some session }
    | ⟨.error failure, output, session⟩ =>
      { stdout := output, stderr := failure.message ++ "\n", session := some session }

/-- Cuts bytes after each line feed.  The bytes of the current line and the lines before it come
last first. -/
private def linesFrom (current : List UInt8) (found : List ByteArray) :
    List UInt8 → List ByteArray
  | [] => (if current.isEmpty then found else current.reverse.toByteArray :: found).reverse
  | byte :: rest =>
    if byte = 10 then linesFrom [] ((byte :: current).reverse.toByteArray :: found) rest
    else linesFrom (byte :: current) found rest

/-- The lines of the input, each with its line feed; the last may have none. -/
def linesOf (input : ByteArray) : List ByteArray :=
  linesFrom [] [] input.toList

/-- The bytes are the lines one after another.  A line ends with its only line feed, and the last
one may end without. -/
inductive Lines : List UInt8 → List ByteArray → Prop where
  | done : Lines [] []
  | last
    {line : List UInt8}
    (nonempty : line ≠ [])
    (noFeed : 10 ∉ line) :
    Lines line [line.toByteArray]
  | ended
    {line rest : List UInt8}
    {others : List ByteArray}
    (noFeed : 10 ∉ line)
    (next : Lines rest others) :
    Lines (line ++ 10 :: rest) ((line ++ [10]).toByteArray :: others)

private theorem exists_lines_linesFrom
    {current : List UInt8}
    (noFeed : 10 ∉ current)
    (found : List ByteArray)
    (bytes : List UInt8) :
    ∃ lines, linesFrom current found bytes = found.reverse ++ lines ∧
      Lines (current.reverse ++ bytes) lines := by
  induction bytes generalizing current found with
  | nil =>
    rw [linesFrom, List.append_nil]
    cases current with
    | nil => exact ⟨[], (List.append_nil _).symm, .done⟩
    | cons byte before =>
      exact ⟨_, List.reverse_cons, .last (by simp) (by simpa only [List.mem_reverse])⟩
  | cons byte rest inductionHypothesis =>
    rw [linesFrom]
    split
    · rename_i feed
      subst feed
      obtain ⟨lines, same, others⟩ := inductionHypothesis List.not_mem_nil
        ((10 :: current).reverse.toByteArray :: found)
      refine ⟨_, ?_, .ended (by simpa only [List.mem_reverse]) others⟩
      rw [same]
      simp
    · rename_i noneHere
      have stillNone : 10 ∉ byte :: current := by
        simp [Ne.symm noneHere, noFeed]
      obtain ⟨lines, same, others⟩ := inductionHypothesis stillNone found
      exact ⟨lines, same, by simpa using others⟩

/-- The input is cut after each line feed, and nothing of it is lost. -/
theorem lines_linesOf (input : ByteArray) : Lines input.toList (linesOf input) := by
  obtain ⟨lines, same, cut⟩ := exists_lines_linesFrom List.not_mem_nil [] input.toList
  rw [linesOf, same]
  exact cut

/-- The prompt on the lines that are left, after what was written so far.  At the end of the
input it ends the line of its last invitation. -/
def converse (session : Session) (stdout : ByteArray) (stderr : String) :
    List ByteArray → Outcome
  | [] => ⟨successStatus, stdout ++ (invitation ++ "\n").toUTF8, stderr⟩
  | line :: rest =>
    let reply := replyTo line session
    let stdout := stdout ++ invitation.toUTF8 ++ reply.stdout
    let stderr := stderr ++ reply.stderr
    match reply.session with
    | none => ⟨failureStatus, stdout, stderr⟩
    | some session => converse session stdout stderr rest

/-- The prompt on the whole of its input. -/
def prompt (input : ByteArray) : Outcome :=
  converse {} ByteArray.empty "" (linesOf input)

end Lox.CommandLine
