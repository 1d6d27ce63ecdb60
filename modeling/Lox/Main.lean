import Lox.CommandLine

/-!
Contract: the executable program.

Owns:
- the arguments of the command line;
- reading files and standard input, and writing outcomes.

Does not own: any decision about what is written.
-/

namespace Lox.CommandLine

/-- The words for a failure to read a file. -/
def reasonOf : IO.Error → String
  | .noFileOrDirectory .. => missingFile
  | error => toString error

/-- The bytes of a file, or the reason why there are none. -/
def contentOf (file : String) : IO (Except String ByteArray) := do
  try
    return .ok (← IO.FS.readBinFile file)
  catch error =>
    return .error (reasonOf error)

/-- Writes the two outputs. -/
def emit (stdout : ByteArray) (stderr : String) : IO Unit := do
  let output ← IO.getStdout
  output.write stdout
  output.flush
  IO.eprint stderr

/-- Reads bytes up to and with a line feed, or to the end of the input. -/
partial def readLine (input : IO.FS.Stream) (line : ByteArray) : IO ByteArray := do
  let byte ← input.read 1
  if byte.isEmpty then return line
  else if byte.toList.contains 10 then return line ++ byte
  else readLine input (line ++ byte)

/-- Invites, reads a line and replies, until the input or the conversation ends. -/
partial def interact (input : IO.FS.Stream) (session : Session) : IO UInt32 := do
  emit invitation.toUTF8 ""
  let line ← readLine input ByteArray.empty
  if line.isEmpty then
    emit "\n".toUTF8 ""
    return successStatus.toUInt32
  else
    let reply := replyTo line session
    emit reply.stdout reply.stderr
    match reply.session with
    | none => return failureStatus.toUInt32
    | some session => interact input session

/-- How to call the program. -/
def usage : String :=
  "Usage: lox [tokenize|parse|evaluate|run FILE]\n"

end Lox.CommandLine

open Lox.CommandLine in
/-- The program: without arguments the prompt, else a command and a file. -/
def main (arguments : List String) : IO UInt32 := do
  match arguments with
  | [] => interact (← IO.getStdin) {}
  | [word, file] =>
    match Command.ofWord? word with
    | none =>
      emit ByteArray.empty usage
      return 2
    | some command =>
      let outcome := command.onFile file (← contentOf file)
      emit outcome.stdout outcome.stderr
      return outcome.status.toUInt32
  | _ =>
    emit ByteArray.empty usage
    return 2
