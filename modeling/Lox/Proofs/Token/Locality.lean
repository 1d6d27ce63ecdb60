import Lox.Token.Segment

/-!
Contract: a segment depends on nothing but the characters that it is read from.

Owns:
- cursors on a part of a source, seen as cursors on the whole source;
- the separation of a segment from the characters after it;
- that a separated segment is the same in the part and in the whole.

Does not own: sequences of segments.
-/

namespace Lox

/-! ## Blanks -/

/-- No segment but a comment or a string goes on with a blank. -/
theorem not_goesOn_of_isBlank {character : Char} (blank : isBlank character = true) :
    character ≠ '"' ∧ character ≠ '/' ∧ character ≠ '=' ∧ character ≠ '.' ∧
      character.isDigit = false ∧ continuesWord character = false := by
  have blanks : character = ' ' ∨ character = '\r' ∨ character = '\t' ∨ character = '\n' := by
    simpa [isBlank, or_assoc] using blank
  have ascii : character.toNat < 128 := by
    rcases blanks with rfl | rfl | rfl | rfl <;> decide
  rw [continuesWord, startsWord, Text.isAlphabetic_of_ascii ascii]
  rcases blanks with rfl | rfl | rfl | rfl <;> decide

/-! ## Parts of a source -/

/-- The rest of a source around a part of it: how much is before the part, and the characters
after it. -/
structure Surroundings where
  source : Source
  bytes : Nat
  lines : Nat
  tail : List Char

namespace Cursor

/-- A cursor on the part as a cursor on the source. -/
def within (around : Surroundings) (cursor : Cursor) : Cursor where
  source := around.source
  rest := cursor.rest ++ around.tail
  offset := cursor.offset + around.bytes
  line := cursor.line + around.lines

variable {around : Surroundings} {cursor : Cursor}

/-- What is read in the part is read in the source. -/
theorem after_within (passed rest : List Char) :
    (cursor.within around).after passed (rest ++ around.tail) =
      (cursor.after passed rest).within around := by
  simp only [within, after, Cursor.mk.injEq, true_and]
  omega

/-- A run of accepted characters does not go on from the part into the tail. -/
def StopsBefore (accepts : Char → Bool) (rest tail : List Char) : Prop :=
  rest.dropWhile accepts = [] → ∀ next ∈ tail.head?, accepts next = false

theorem dropWhile_append_of_stopsBefore
    {accepts : Char → Bool}
    {rest tail : List Char}
    (stops : StopsBefore accepts rest tail) :
    (rest ++ tail).dropWhile accepts = rest.dropWhile accepts ++ tail := by
  rw [List.dropWhile_append]
  split
  · rename_i empty
    rw [List.isEmpty_iff] at empty
    rw [empty]
    cases tail with
    | nil => rfl
    | cons next tail => rw [List.dropWhile_cons_of_neg (by simp [stops empty next rfl])]; rfl
  · rfl

theorem takeWhile_append_of_stopsBefore
    {accepts : Char → Bool}
    {rest tail : List Char}
    (stops : StopsBefore accepts rest tail) :
    (rest ++ tail).takeWhile accepts = rest.takeWhile accepts := by
  have whole : (rest ++ tail).takeWhile accepts ++ (rest ++ tail).dropWhile accepts =
      rest.takeWhile accepts ++ (rest.dropWhile accepts ++ tail) := by
    rw [List.takeWhile_append_dropWhile, ← List.append_assoc, List.takeWhile_append_dropWhile]
  rw [dropWhile_append_of_stopsBefore stops] at whole
  exact List.append_cancel_right whole

theorem consumeWhile_within
    {accepts : Char → Bool}
    (stops : StopsBefore accepts cursor.rest around.tail) :
    (cursor.within around).consumeWhile accepts = (cursor.consumeWhile accepts).within around := by
  have taken := takeWhile_append_of_stopsBefore stops
  have dropped := dropWhile_append_of_stopsBefore stops
  simp only [consumeWhile]
  rw [← after_within]
  simp only [within, taken, dropped]

theorem consumeIf_within
    (around : Surroundings)
    (cursor : Cursor)
    (expected : Char)
    (stops : cursor.rest = [] → ∀ next ∈ around.tail.head?, next ≠ expected) :
    (cursor.within around).consumeIf expected =
      ((cursor.consumeIf expected).1, (cursor.consumeIf expected).2.within around) := by
  cases shape : cursor.rest with
  | nil =>
    cases after : around.tail with
    | nil => simp [consumeIf, within, shape, after]
    | cons next tail =>
      have differs := stops shape next (by rw [after]; rfl)
      simp [consumeIf, within, shape, after, differs]
  | cons first rest =>
    have inside : (cursor.within around).rest = first :: (rest ++ around.tail) := by
      simp [within, shape]
    by_cases same : first = expected
    · simp only [consumeIf, shape, inside, if_pos same]
      rw [after_within]
    · simp only [consumeIf, shape, inside, if_neg same]

theorem next_within {first : Char} {rest : List Char} (shape : cursor.rest = first :: rest) :
    (cursor.within around).next = (some first, (cursor.after [first] rest).within around) := by
  have inside : (cursor.within around).rest = first :: (rest ++ around.tail) := by
    simp [within, shape]
  simp only [next, inside]
  rw [after_within]

end Cursor

/-! ## Segments -/

namespace Segment

/-- A segment can stand before the characters: there are none, or the first is a blank that the
segment does not go on with. -/
def EndsBefore (segment : Segment) (tail : List Char) : Prop :=
  ∀ next ∈ tail.head?, isBlank next = true ∧ segment ≠ .openString ∧
    (segment = .comment → next = '\n')

variable {around : Surroundings}

private theorem readString_within
    (inside : Cursor)
    (ends : (readString inside).1.EndsBefore around.tail) :
    readString (inside.within around) =
      ((readString inside).1, (readString inside).2.within around) := by
  have closed : (inside.consumeWhile (· ≠ '"')).rest = [] → around.tail.head? = none := by
    intro unclosed
    cases found : around.tail.head? with
    | none => rfl
    | some next =>
      have opened : (readString inside).1 = .openString := by
        simp only [readString, Cursor.consumeIf, unclosed]
      exact absurd opened (ends next found).2.1
  have content : (inside.within around).consumeWhile (· ≠ '"') =
      (inside.consumeWhile (· ≠ '"')).within around := by
    apply Cursor.consumeWhile_within
    intro unclosed next member
    rw [closed unclosed] at member
    cases member
  have quote := Cursor.consumeIf_within around (inside.consumeWhile (· ≠ '"')) '"'
    fun unclosed next member => by
      rw [closed unclosed] at member
      cases member
  cases found : (inside.consumeWhile (· ≠ '"')).consumeIf '"' with
  | mk taken stop =>
    rw [found] at quote
    cases taken <;> simp only [readString, content, quote, found]

private theorem readSlash_within
    (inside : Cursor)
    (ends : (readSlash inside).1.EndsBefore around.tail) :
    readSlash (inside.within around) =
      ((readSlash inside).1, (readSlash inside).2.within around) := by
  have slash := Cursor.consumeIf_within around inside '/'
    fun _ next member => (not_goesOn_of_isBlank (ends next member).1).2.1
  cases found : inside.consumeIf '/' with
  | mk taken text =>
    rw [found] at slash
    cases taken with
    | false => simp only [readSlash, slash, found]
    | true =>
      -- A comment only stands before a line feed, which it does not go on with.
      have stops : Cursor.StopsBefore (· ≠ '\n') text.rest around.tail := by
        intro _ next member
        have lineFeed : next = '\n' := (ends next member).2.2 (by simp only [readSlash, found])
        simp [lineFeed]
      simp only [readSlash, slash, found]
      rw [Cursor.consumeWhile_within stops]

private theorem readSymbol_within
    (mark : Symbol)
    (inside : Cursor)
    (ends : (readSymbol mark inside).1.EndsBefore around.tail) :
    readSymbol mark (inside.within around) =
      ((readSymbol mark inside).1, (readSymbol mark inside).2.within around) := by
  have equal := Cursor.consumeIf_within around inside '='
    fun _ next member => (not_goesOn_of_isBlank (ends next member).1).2.2.1
  cases longer : mark.withEqual? with
  | none => simp only [readSymbol, longer]
  | some symbol =>
    cases found : inside.consumeIf '=' with
    | mk taken stop =>
      rw [found] at equal
      cases taken <;> simp only [readSymbol, longer, equal, found]

private theorem readNumber_within
    (inside : Cursor)
    (ends : Segment.number.EndsBefore around.tail) :
    readNumber (inside.within around) = (readNumber inside).within around := by
  have digits (cursor : Cursor) :
      (cursor.within around).consumeWhile Char.isDigit =
        (cursor.consumeWhile Char.isDigit).within around :=
    Cursor.consumeWhile_within fun _ next member =>
      (not_goesOn_of_isBlank (ends next member).1).2.2.2.2.1
  simp only [readNumber, digits]
  generalize inside.consumeWhile Char.isDigit = whole
  have pointed :
      ((whole.within around).peek = some '.' ∧ (whole.within around).peekNext.any Char.isDigit) ↔
        (whole.peek = some '.' ∧ whole.peekNext.any Char.isDigit) := by
    rcases shape : whole.rest with _ | ⟨first, _ | ⟨second, rest⟩⟩
    · -- The point would have to come from behind the number.
      refine ⟨fun ⟨point, _⟩ => ?_, fun ⟨point, _⟩ => ?_⟩
      · rw [Cursor.peek, Cursor.within, shape] at point
        exact absurd rfl (not_goesOn_of_isBlank (ends '.' point).1).2.2.2.1
      · rw [Cursor.peek, shape] at point
        cases point
    · -- The digit after the point would have to come from behind the number.
      refine ⟨fun ⟨_, digit⟩ => ?_, fun ⟨_, digit⟩ => ?_⟩
      · obtain ⟨next, found, isDigit⟩ := (Option.any_eq_true _ _).1 digit
        rw [Cursor.peekNext, Cursor.within, shape] at found
        exact absurd isDigit
          (Bool.eq_false_iff.1 (not_goesOn_of_isBlank (ends next found).1).2.2.2.2.1)
      · rw [Cursor.peekNext, shape] at digit
        cases digit
    · simp only [Cursor.peek, Cursor.peekNext, Cursor.within, shape, List.cons_append,
        List.head?_cons, List.tail_cons]
  by_cases point : whole.peek = some '.' ∧ whole.peekNext.any Char.isDigit
  · rw [if_pos point, if_pos (pointed.2 point)]
    cases shape : whole.rest with
    | nil => simp [Cursor.peek, shape] at point
    | cons first rest =>
      have stepped : whole.next = (some first, whole.after [first] rest) := by
        simp only [Cursor.next, shape]
      rw [Cursor.next_within shape, stepped, digits]
  · rw [if_neg point, if_neg (mt pointed.1 point)]

/-- A segment of a part that can stand before what follows the part is a segment of the whole. -/
theorem read_within
    (around : Surroundings)
    (first : Char)
    (inside : Cursor)
    (ends : (read first inside).1.EndsBefore around.tail) :
    read first (inside.within around) =
      ((read first inside).1, (read first inside).2.within around) := by
  unfold read at ends ⊢
  split at ends
  · rename_i quote
    simp only [if_pos quote]
    exact readString_within inside ends
  · rename_i noQuote
    simp only [if_neg noQuote]
    split at ends
    · rename_i slash
      simp only [if_pos slash]
      exact readSlash_within inside ends
    · rename_i noSlash
      simp only [if_neg noSlash]
      split at ends
      · rename_i mark _
        exact readSymbol_within mark inside ends
      · split at ends
        · rename_i digit
          simp only [if_pos digit, readNumber_within inside ends]
        · rename_i noDigit
          simp only [if_neg noDigit]
          split at ends
          · rename_i starts
            simp only [if_pos starts]
            rw [Cursor.consumeWhile_within]
            exact fun _ next member => (not_goesOn_of_isBlank (ends next member).1).2.2.2.2.2
          · rename_i noStart
            simp only [if_neg noStart]
            split <;> rfl

end Segment

end Lox
