import Lox.Source.Cursor
import Lox.Text.Visible

/-!
Contract: texts that show a cursor.

Owns:
- the quoted form of a text, in which every character can be seen;
- the short and the long text of a cursor.

Does not own: the meaning of a cursor.
-/

namespace Lox

/-! ## Quoted text -/

/-- The written form of one character in a quoted text: a backslash and a letter for the usual
controls and the two delimiters, the code point for what cannot be seen, and itself otherwise. -/
def quotedChar (character : Char) : List Char :=
  match character with
  | '\x00' => ['\\', '0']
  | '\t' => ['\\', 't']
  | '\r' => ['\\', 'r']
  | '\n' => ['\\', 'n']
  | '\\' => ['\\', '\\']
  | '"' => ['\\', '"']
  | other =>
    if Text.isVisible other then [other]
    else ['\\', 'u', '{'] ++ Nat.toDigits 16 other.toNat ++ ['}']

/-- A text between quotation marks. -/
def quoted (characters : List Char) : String :=
  String.ofList ('"' :: characters.flatMap quotedChar ++ ['"'])

/-! ## Cursors -/

namespace Cursor

/-- The line and the offset on one line of text. -/
def shown (cursor : Cursor) : String :=
  "Cursor \x7b line: Line(" ++ toString cursor.line ++ "), offset: " ++ toString cursor.offset ++
    " \x7d"

/-- The line, the offset and the unread text, one field after another. -/
def shownInFull (cursor : Cursor) : String :=
  "Cursor \x7b\n    line: Line(\n        " ++ toString cursor.line ++
    ",\n    ),\n    offset: " ++ toString cursor.offset ++
    ",\n    rest: " ++ quoted cursor.rest ++ ",\n\x7d"

end Cursor

end Lox
