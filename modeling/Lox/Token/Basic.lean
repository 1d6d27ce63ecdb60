import Lox.Diagnostic

/-!
Contract: the tokens of the language.

Owns:
- symbols and keywords with their spellings;
- token kinds with their payloads, and tokens;
- the diagnostic that points at a token.

Does not own: how tokens are found in a source, or what sequences of them mean.
-/

namespace Lox

/-! ## Symbols -/

/-- The tokens of one or two characters that are neither literals nor words. -/
inductive Symbol where
  | leftParen
  | rightParen
  | leftBrace
  | rightBrace
  | comma
  | dot
  | minus
  | plus
  | semicolon
  | slash
  | star
  | bang
  | bangEqual
  | equal
  | equalEqual
  | greater
  | greaterEqual
  | less
  | lessEqual
deriving DecidableEq, Repr

namespace Symbol

/-- Every symbol, each once. -/
def all : List Symbol :=
  [leftParen, rightParen, leftBrace, rightBrace, comma, dot, minus, plus, semicolon, slash, star,
    bang, bangEqual, equal, equalEqual, greater, greaterEqual, less, lessEqual]

/-- The characters of the symbol. -/
def spelling : Symbol → String
  | leftParen => "("
  | rightParen => ")"
  | leftBrace => "\x7b"
  | rightBrace => "\x7d"
  | comma => ","
  | dot => "."
  | minus => "-"
  | plus => "+"
  | semicolon => ";"
  | slash => "/"
  | star => "*"
  | bang => "!"
  | bangEqual => "!="
  | equal => "="
  | equalEqual => "=="
  | greater => ">"
  | greaterEqual => ">="
  | less => "<"
  | lessEqual => "<="

/-- The name of the symbol in a listing. -/
def name : Symbol → String
  | leftParen => "LEFT_PAREN"
  | rightParen => "RIGHT_PAREN"
  | leftBrace => "LEFT_BRACE"
  | rightBrace => "RIGHT_BRACE"
  | comma => "COMMA"
  | dot => "DOT"
  | minus => "MINUS"
  | plus => "PLUS"
  | semicolon => "SEMICOLON"
  | slash => "SLASH"
  | star => "STAR"
  | bang => "BANG"
  | bangEqual => "BANG_EQUAL"
  | equal => "EQUAL"
  | equalEqual => "EQUAL_EQUAL"
  | greater => "GREATER"
  | greaterEqual => "GREATER_EQUAL"
  | less => "LESS"
  | lessEqual => "LESS_EQUAL"

/-- The symbol that consists of the character. -/
def ofChar? : Char → Option Symbol
  | '(' => some leftParen
  | ')' => some rightParen
  | '{' => some leftBrace
  | '}' => some rightBrace
  | ',' => some comma
  | '.' => some dot
  | '-' => some minus
  | '+' => some plus
  | ';' => some semicolon
  | '/' => some slash
  | '*' => some star
  | '!' => some bang
  | '=' => some equal
  | '>' => some greater
  | '<' => some less
  | _ => none

/-- The symbol that an equals sign after this one makes of it. -/
def withEqual? : Symbol → Option Symbol
  | bang => some bangEqual
  | equal => some equalEqual
  | greater => some greaterEqual
  | less => some lessEqual
  | _ => none

end Symbol

/-! ## Keywords -/

/-- The words with a meaning of their own. -/
inductive Keyword where
  | andWord
  | classWord
  | elseWord
  | falseWord
  | forWord
  | funWord
  | ifWord
  | nilWord
  | orWord
  | printWord
  | returnWord
  | superWord
  | thisWord
  | trueWord
  | varWord
  | whileWord
deriving DecidableEq, Repr

namespace Keyword

/-- Every keyword, each once. -/
def all : List Keyword :=
  [andWord, classWord, elseWord, falseWord, forWord, funWord, ifWord, nilWord, orWord, printWord,
    returnWord, superWord, thisWord, trueWord, varWord, whileWord]

/-- The word itself. -/
def spelling : Keyword → String
  | andWord => "and"
  | classWord => "class"
  | elseWord => "else"
  | falseWord => "false"
  | forWord => "for"
  | funWord => "fun"
  | ifWord => "if"
  | nilWord => "nil"
  | orWord => "or"
  | printWord => "print"
  | returnWord => "return"
  | superWord => "super"
  | thisWord => "this"
  | trueWord => "true"
  | varWord => "var"
  | whileWord => "while"

/-- The name of the keyword in a listing: the word in capitals. -/
def name (keyword : Keyword) : String :=
  keyword.spelling.toUpper

/-- The keyword with exactly that spelling. -/
def ofSpelling? (word : String) : Option Keyword :=
  all.find? fun keyword => keyword.spelling == word

/-- A word is read as a keyword exactly if it is that keyword's spelling. -/
theorem ofSpelling?_eq_some_iff {word : String} {keyword : Keyword} :
    ofSpelling? word = some keyword ↔ word = keyword.spelling := by
  constructor
  · intro found
    have same := List.find?_some found
    exact (beq_iff_eq.1 same).symm
  · rintro rfl
    cases keyword <;> decide

end Keyword

/-! ## Tokens -/

/-- What a token is.  A string carries its content, a number its value. -/
inductive TokenKind where
  | symbol (mark : Symbol)
  | identifier
  | string (content : String)
  | number (value : Float)
  | keyword (word : Keyword)
  | endOfInput
deriving DecidableEq

namespace TokenKind

/-- The name of the kind in a listing. -/
def name : TokenKind → String
  | .symbol mark => mark.name
  | .identifier => "IDENTIFIER"
  | .string _ => "STRING"
  | .number _ => "NUMBER"
  | .keyword word => word.name
  | .endOfInput => "EOF"

end TokenKind

/-- A token: its kind, its text in the source, and the line that it begins on. -/
structure Token where
  kind : TokenKind
  lexeme : String
  line : Nat
deriving DecidableEq

namespace Token

/-- The token without text that ends every token list. -/
def endAt (line : Nat) : Token :=
  ⟨.endOfInput, "", line⟩

/-- Whether the token ends the input. -/
def isEnd (token : Token) : Bool :=
  token.kind = .endOfInput

/-- A report that points at the token. -/
def diagnostic (token : Token) (message : String) : Diagnostic where
  line := token.line
  place := if token.isEnd then .atEnd else .atLexeme token.lexeme
  message := message

end Token

end Lox
