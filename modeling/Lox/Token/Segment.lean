import Lox.Number.Double
import Lox.Source.Cursor
import Lox.Text.Alphabetic
import Lox.Token.Basic

/-!
Contract: the segments that a source is cut into.

Owns:
- the classes of segments, and which segment begins at a cursor;
- the kind of the token that a segment is, if it is one;
- that every segment begins with the character it is chosen by and has the form of its class.

Does not own: the order of segments in a source, or where they are reported.

Every segment is as long as its class allows.  A broken promise between a segment and its token
(no text between its ends, a string without quotes, a number without a value) is a `CutFault`;
`Segment.exists_kind` says that there is none.
-/

namespace Lox

/-! ## Characters -/

/-- Whether a word may begin with the character. -/
def startsWord (character : Char) : Bool :=
  Text.isAlphabetic character || character == '_'

/-- Whether a word may go on with the character. -/
def continuesWord (character : Char) : Bool :=
  startsWord character || character.isDigit

/-- Whether the character only separates tokens. -/
def isBlank (character : Char) : Bool :=
  character == ' ' || character == '\r' || character == '\t' || character == '\n'

/-! ## Classes -/

/-- The classes of segments. -/
inductive Segment where
  | blank
  | comment
  | symbol (mark : Symbol)
  | string
  | openString
  | number
  | word
  | stray (character : Char)
deriving DecidableEq, Repr

namespace Segment

/-- After a quotation mark: a string up to the next one, or an open string up to the end. -/
def readString (inside : Cursor) : Segment × Cursor :=
  let content := inside.consumeWhile (· ≠ '"')
  match content.consumeIf '"' with
  | (true, stop) => (.string, stop)
  | (false, stop) => (.openString, stop)

/-- After a slash: a comment up to the end of the line, or the symbol. -/
def readSlash (inside : Cursor) : Segment × Cursor :=
  match inside.consumeIf '/' with
  | (true, text) => (.comment, text.consumeWhile (· ≠ '\n'))
  | (false, stop) => (.symbol .slash, stop)

/-- After the first character of a symbol: an equals sign belongs to it where that makes a
symbol. -/
def readSymbol (mark : Symbol) (inside : Cursor) : Segment × Cursor :=
  match mark.withEqual? with
  | none => (.symbol mark, inside)
  | some longer =>
    match inside.consumeIf '=' with
    | (true, stop) => (.symbol longer, stop)
    | (false, stop) => (.symbol mark, stop)

/-- After the first digit: the other digits, and a point with digits after it.  A point without
a digit after it does not belong to the number. -/
def readNumber (inside : Cursor) : Cursor :=
  let whole := inside.consumeWhile Char.isDigit
  if whole.peek = some '.' ∧ whole.peekNext.any Char.isDigit then
    (whole.next.2).consumeWhile Char.isDigit
  else whole

/-- The segment that begins with the character before the cursor, and where it stops. -/
def read (first : Char) (inside : Cursor) : Segment × Cursor :=
  if first = '"' then readString inside
  else if first = '/' then readSlash inside
  else
    match Symbol.ofChar? first with
    | some mark => readSymbol mark inside
    | none =>
      if first.isDigit then (.number, readNumber inside)
      else if startsWord first then (.word, inside.consumeWhile continuesWord)
      else if isBlank first then (.blank, inside)
      else (.stray first, inside)

/-! ## Tokens of segments -/

/-- A promise between a segment and its token that does not hold. -/
inductive CutFault where
  | slice (fault : Cursor.SliceFault)
  | quotes (lexeme : String)
  | numeral (lexeme : String)
deriving DecidableEq, Repr

/-- The text between the quotation marks at both ends. -/
def unquoted? (lexeme : List Char) : Option (List Char) :=
  match lexeme with
  | '"' :: rest => if rest.getLast? = some '"' then some rest.dropLast else none
  | _ => none

/-- The kind of the token that the segment with that text is; none for segments that are no
tokens. -/
def kind? (segment : Segment) (lexeme : String) : Except CutFault (Option TokenKind) :=
  match segment with
  | .symbol mark => .ok (some (.symbol mark))
  | .string =>
    match unquoted? lexeme.toList with
    | some content => .ok (some (.string (String.ofList content)))
    | none => .error (.quotes lexeme)
  | .number =>
    match Number.Decimal.read? lexeme.toList with
    | some decimal => .ok (some (.number decimal.nearestDouble))
    | none => .error (.numeral lexeme)
  | .word =>
    match Keyword.ofSpelling? lexeme with
    | some keyword => .ok (some (.keyword keyword))
    | none => .ok (some .identifier)
  | .blank | .comment | .openString | .stray _ => .ok none

/-! ## The form of segments -/

/-- What can follow the first character of a segment, by its class. -/
def Form (first : Char) (passed : List Char) : Segment → Prop
  | .string => first = '"' ∧ ∃ content, passed = content ++ ['"'] ∧ '"' ∉ content
  | .number =>
    first.isDigit = true ∧
      (passed.all Char.isDigit = true ∨
        ∃ whole fraction, passed = whole ++ '.' :: fraction ∧ fraction ≠ [] ∧
          whole.all Char.isDigit = true ∧ fraction.all Char.isDigit = true)
  | _ => True

private theorem not_mem_takeWhile_ne (unwanted : Char) (characters : List Char) :
    unwanted ∉ characters.takeWhile (· ≠ unwanted) := by
  intro member
  have kept := List.all_takeWhile (p := fun c => decide (c ≠ unwanted)) (l := characters)
  have differs := List.all_eq_true.1 kept unwanted member
  simp at differs

private theorem consumeIf_false
    {cursor stop : Cursor}
    {expected : Char}
    (read : cursor.consumeIf expected = (false, stop)) :
    stop = cursor := by
  unfold Cursor.consumeIf at read
  split at read
  · exact (Prod.mk.inj read).2.symm
  · split at read
    · simp at read
    · exact (Prod.mk.inj read).2.symm

private theorem readString_form (inside : Cursor) :
    ∃ passed, inside.Reaches passed (readString inside).2 ∧
      Form '"' passed (readString inside).1 := by
  have content := inside.reaches_consumeWhile (· ≠ '"')
  unfold readString
  dsimp only
  split
  · rename_i stop read
    exact ⟨_, content.trans (Cursor.reaches_consumeIf read), rfl, _, rfl,
      not_mem_takeWhile_ne _ _⟩
  · rename_i stop read
    rw [consumeIf_false read]
    exact ⟨_, content, trivial⟩

private theorem readSlash_form (inside : Cursor) :
    ∃ passed, inside.Reaches passed (readSlash inside).2 ∧
      Form '/' passed (readSlash inside).1 := by
  unfold readSlash
  split
  · rename_i text read
    exact ⟨_, (Cursor.reaches_consumeIf read).trans (text.reaches_consumeWhile _), trivial⟩
  · rename_i stop read
    rw [consumeIf_false read]
    exact ⟨_, .refl _, trivial⟩

private theorem readSymbol_form (first : Char) (mark : Symbol) (inside : Cursor) :
    ∃ passed, inside.Reaches passed (readSymbol mark inside).2 ∧
      Form first passed (readSymbol mark inside).1 := by
  unfold readSymbol
  split
  · exact ⟨_, .refl _, trivial⟩
  · split
    · rename_i stop read
      exact ⟨_, Cursor.reaches_consumeIf read, trivial⟩
    · rename_i stop read
      rw [consumeIf_false read]
      exact ⟨_, .refl _, trivial⟩

private theorem readNumber_form
    {first : Char}
    (digit : first.isDigit = true)
    (inside : Cursor) :
    ∃ passed, inside.Reaches passed (readNumber inside) ∧ Form first passed .number := by
  have wholeReached := inside.reaches_consumeWhile Char.isDigit
  have wholeDigits := List.all_takeWhile (p := Char.isDigit) (l := inside.rest)
  unfold readNumber
  dsimp only
  generalize inside.consumeWhile Char.isDigit = whole at *
  split
  · rename_i pointed
    obtain ⟨point, next⟩ := pointed
    cases shape : whole.rest with
    | nil => simp [Cursor.peek, shape] at point
    | cons head tail =>
      have headEq : head = '.' := by simpa [Cursor.peek, shape] using point
      subst headEq
      have stepped : whole.next = (some '.', whole.after ['.'] tail) := by
        simp [Cursor.next, shape]
      rw [stepped]
      have fractionReached := (whole.after ['.'] tail).reaches_consumeWhile Char.isDigit
      refine ⟨_, (wholeReached.trans (Cursor.reaches_next stepped)).trans fractionReached,
        digit, Or.inr ⟨_, _, List.append_assoc .., ?_, wholeDigits, List.all_takeWhile⟩⟩
      cases tail with
      | nil => simp [Cursor.peekNext, shape] at next
      | cons second rest =>
        have secondDigit : second.isDigit = true := by
          simpa [Cursor.peekNext, shape] using next
        simp [Cursor.after, secondDigit]
  · exact ⟨_, wholeReached, digit, Or.inl wholeDigits⟩

/-- A segment reads on from the cursor, and what it reads has the form of its class. -/
theorem read_form (first : Char) (inside : Cursor) :
    ∃ passed, inside.Reaches passed (read first inside).2 ∧
      Form first passed (read first inside).1 := by
  unfold read
  split
  · rename_i quote
    subst quote
    exact readString_form inside
  · split
    · rename_i slash
      subst slash
      exact readSlash_form inside
    · split
      · exact readSymbol_form first _ inside
      · split
        · rename_i digit
          exact readNumber_form digit inside
        · split
          · exact ⟨_, inside.reaches_consumeWhile continuesWord, trivial⟩
          · split
            · exact ⟨_, .refl _, trivial⟩
            · exact ⟨_, .refl _, trivial⟩

private theorem exists_read?
    {first : Char}
    {passed : List Char}
    (form : Form first passed .number) :
    ∃ decimal, Number.Decimal.read? (first :: passed) = some decimal := by
  obtain ⟨digit, digits | ⟨whole, fraction, rfl, nonempty, wholeDigits, fractionDigits⟩⟩ := form
  · have all : ∀ c ∈ first :: passed, c.isDigit = true := by
      intro c member
      rcases List.mem_cons.1 member with rfl | member
      · exact digit
      · exact List.all_eq_true.1 digits c member
    have taken : (first :: passed ++ []).takeWhile Char.isDigit = first :: passed ++ [] :=
      List.takeWhile_append_of_pos all
    have dropped : (first :: passed ++ []).dropWhile Char.isDigit = [] :=
      List.dropWhile_append_of_pos all
    rw [List.append_nil] at taken dropped
    simp [Number.Decimal.read?, taken, dropped]
  · have all : ∀ c ∈ first :: whole, c.isDigit = true := by
      intro c member
      rcases List.mem_cons.1 member with rfl | member
      · exact digit
      · exact List.all_eq_true.1 wholeDigits c member
    have point : Char.isDigit '.' = false := by decide
    have taken : (first :: (whole ++ '.' :: fraction)).takeWhile Char.isDigit = first :: whole := by
      rw [← List.cons_append, List.takeWhile_append_of_pos all,
        List.takeWhile_cons_of_neg (by simp [point]), List.append_nil]
    have dropped :
        (first :: (whole ++ '.' :: fraction)).dropWhile Char.isDigit = '.' :: fraction := by
      rw [← List.cons_append, List.dropWhile_append_of_pos all,
        List.dropWhile_cons_of_neg (by simp [point])]
    simp only [Number.Decimal.read?, taken, dropped]
    simp [nonempty, fractionDigits]

/-- The text of a segment always gives its token, or shows that it is none. -/
theorem exists_kind
    {first : Char}
    {passed : List Char}
    (segment : Segment)
    (form : Form first passed segment) :
    ∃ kind, segment.kind? (String.ofList (first :: passed)) = .ok kind := by
  cases segment with
  | string =>
    obtain ⟨rfl, content, rfl, _⟩ := form
    simp [kind?, unquoted?]
  | number =>
    obtain ⟨decimal, found⟩ := exists_read? form
    simp [kind?, found]
  | word =>
    simp only [kind?]
    split <;> exact ⟨_, rfl⟩
  | _ => exact ⟨_, rfl⟩

end Segment

end Lox
