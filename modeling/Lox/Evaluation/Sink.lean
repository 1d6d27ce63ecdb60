import Lox.Evaluation.RuntimeError

/-!
Contract: where a program writes.

Owns:
- sinks, with the bytes they have taken and how many they take in all;
- writing a text, of which a sink takes as much as it has room for.

Does not own: what is written.
-/

namespace Lox

/-- How much an output takes. -/
inductive Capacity where
  | unlimited
  | limited (bytes : Nat) (whenFull : WriteFault)
deriving DecidableEq, Repr

/-- An output and the bytes written to it. -/
structure Sink where
  capacity : Capacity := .unlimited
  written : ByteArray := ByteArray.empty

namespace Sink

/-- Writes a text.  Where not all of its bytes fit, as many as fit are written, and the sink's
fault is the result. -/
def write (text : String) (sink : Sink) : Except WriteFault Unit × Sink :=
  let bytes := text.toUTF8
  match sink.capacity with
  | .unlimited => (.ok (), { sink with written := sink.written ++ bytes })
  | .limited limit whenFull =>
    if sink.written.size + bytes.size ≤ limit then
      (.ok (), { sink with written := sink.written ++ bytes })
    else
      (.error whenFull,
        { sink with written := sink.written ++ bytes.extract 0 (limit - sink.written.size) })

end Sink

end Lox
