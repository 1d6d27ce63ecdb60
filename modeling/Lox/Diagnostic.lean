/-!
Contract: reports about source text that is refused.

Owns:
- where on its line a report points;
- the text of one report and of a list of reports.

Does not own: which reports there are.
-/

namespace Lox

/-- Where on its line a report points. -/
inductive Place where
  | unspecified
  | atEnd
  | atLexeme (lexeme : String)
deriving DecidableEq, Repr

namespace Place

/-- The words for the place, with a space before them; none if it is unspecified. -/
def text : Place → String
  | .unspecified => ""
  | .atEnd => " at end"
  | .atLexeme lexeme => " at '" ++ lexeme ++ "'"

end Place

/-- A report about refused source text. -/
structure Diagnostic where
  line : Nat
  place : Place
  message : String
deriving DecidableEq, Repr

namespace Diagnostic

/-- The line in brackets, the place, and the message after a colon. -/
def text (diagnostic : Diagnostic) : String :=
  "[line " ++ toString diagnostic.line ++ "] Error" ++ diagnostic.place.text ++ ": " ++
    diagnostic.message

/-- One report per line, without a line feed at the end. -/
def report (diagnostics : List Diagnostic) : String :=
  "\n".intercalate (diagnostics.map text)

end Diagnostic

end Lox
