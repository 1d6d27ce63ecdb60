import Lox.Token.Segment

/-!
Contract: the tokens and the lexical errors of a source.

Owns:
- lexical errors with their messages;
- cutting a source into segments up to its end, which never stops at an error;
- that no promise between segments and tokens is ever broken, which makes `lex` total.

Does not own: what a sequence of tokens means.
-/

namespace Lox

/-! ## Lexical errors -/

/-- What can be wrong with the text of a source. -/
inductive LexicalFault where
  | unexpectedCharacter (character : Char)
  | unterminatedString
deriving DecidableEq, Repr

/-- The message of the fault. -/
def LexicalFault.message : LexicalFault → String
  | .unexpectedCharacter character => "Unexpected character: " ++ character.toString
  | .unterminatedString => "Unterminated string."

/-- A fault and the line where it was found. -/
structure LexicalError where
  fault : LexicalFault
  line : Nat
deriving DecidableEq, Repr

/-- A lexical error points at no token. -/
def LexicalError.diagnostic (error : LexicalError) : Diagnostic :=
  ⟨error.line, .unspecified, error.fault.message⟩

/-- The fault that a segment is, if it is one. -/
def Segment.fault? : Segment → Option LexicalFault
  | .stray character => some (.unexpectedCharacter character)
  | .openString => some .unterminatedString
  | _ => none

/-! ## Cutting a source -/

/-- The tokens of a source, with the one that ends them, and its lexical errors, both in the
order of the source. -/
structure Lexed where
  tokens : List Token
  errors : List LexicalError

namespace Lexed

/-- The token of the segment between two cursors, if it is one. -/
def tokenBetween? (segment : Segment) (start stop : Cursor) :
    Except Segment.CutFault (Option Token) :=
  match start.slice stop with
  | .error fault => .error (.slice fault)
  | .ok lexeme =>
    match segment.kind? lexeme with
    | .error fault => .error fault
    | .ok kind => .ok (kind.map fun kind => ⟨kind, lexeme, start.line⟩)

/-- A segment is never empty. -/
theorem length_rest_lt
    {start inside stop : Cursor}
    {first : Char}
    {segment : Segment}
    (read : start.next = (some first, inside))
    (cut : Segment.read first inside = (segment, stop)) :
    stop.rest.length < start.rest.length := by
  have firstLength := (Cursor.reaches_next read).length_eq
  obtain ⟨passed, reaches, _⟩ := Segment.read_form first inside
  have segmentLength := reaches.length_eq
  simp only [cut] at segmentLength
  simp only [List.length_singleton] at firstLength
  omega

/-- Cuts what is left of a source.  The tokens and errors found so far come last first.  An error
is on the line where its segment stops. -/
def cutFrom (start : Cursor) (tokens : List Token) (errors : List LexicalError) :
    Except Segment.CutFault Lexed :=
  match _ : start.next with
  | (none, _) => .ok ⟨(Token.endAt start.line :: tokens).reverse, errors.reverse⟩
  | (some first, inside) =>
    match _ : Segment.read first inside with
    | (segment, stop) =>
      match tokenBetween? segment start stop with
      | .error fault => .error fault
      | .ok token =>
        cutFrom stop (token.toList ++ tokens)
          ((segment.fault?.map fun fault => ⟨fault, stop.line⟩).toList ++ errors)
termination_by start.rest.length
decreasing_by exact length_rest_lt ‹_› ‹_›

/-- Between the ends of a segment that was read there is always text, and it has a token or is
seen to be none. -/
theorem exists_tokenBetween
    {start inside : Cursor}
    {first : Char}
    (read : start.next = (some first, inside)) :
    ∃ token, tokenBetween? (Segment.read first inside).1 start (Segment.read first inside).2 =
      .ok token := by
  obtain ⟨passed, reaches, form⟩ := Segment.read_form first inside
  have between := ((Cursor.reaches_next read).trans reaches).slice_eq
  obtain ⟨kind, found⟩ := Segment.exists_kind _ form
  simp only [List.singleton_append] at between
  exact ⟨_, by simp only [tokenBetween?, between, found]; rfl⟩

/-- Cutting a source meets no broken promise. -/
theorem exists_cutFrom (start : Cursor) (tokens : List Token) (errors : List LexicalError) :
    ∃ lexed, cutFrom start tokens errors = .ok lexed := by
  fun_induction cutFrom start tokens errors with
  | case1 => exact ⟨_, rfl⟩
  | case2 start tokens errors first inside read segment stop cut fault broken =>
    obtain ⟨token, found⟩ := exists_tokenBetween read
    rw [cut] at found
    rw [found] at broken
    contradiction
  | case3 start tokens errors first inside read segment stop cut token found inductionHypothesis =>
    exact inductionHypothesis

/-- The whole of a source text. -/
def cut (text : String) : Except Segment.CutFault Lexed :=
  cutFrom (.start ⟨0, text⟩) [] []

end Lexed

/-- The tokens and lexical errors of a source text. -/
def lex (text : String) : Lexed :=
  match found : Lexed.cut text with
  | .ok lexed => lexed
  | .error _ => absurd (Lexed.exists_cutFrom _ _ _) (by
      rintro ⟨lexed, present⟩
      rw [Lexed.cut, present] at found
      contradiction)

/-- `lex` is what cutting the source gives. -/
theorem cut_eq_ok_lex (text : String) : Lexed.cut text = .ok (lex text) := by
  unfold lex
  split
  · assumption
  · rename_i broken
    obtain ⟨lexed, present⟩ := Lexed.exists_cutFrom (.start ⟨0, text⟩) [] []
    rw [Lexed.cut, present] at broken
    contradiction

namespace Lexed

/-- The tokens, if there is no lexical error. -/
def accepted (lexed : Lexed) : Except (List LexicalError) (List Token) :=
  if lexed.errors.isEmpty then .ok lexed.tokens else .error lexed.errors

end Lexed

end Lox
