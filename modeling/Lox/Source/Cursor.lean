/-!
Contract: positions in a source text.

Owns:
- cursors, which know the unread text, the bytes passed and the line;
- looking ahead, moving on, and the text between two cursors;
- the relation `Cursor.Reaches` between a cursor and one further on, with the text between.

Does not own: what the characters mean.
-/

namespace Lox

/-- A source text.  The label tells texts of equal content apart that were opened separately. -/
structure Source where
  label : Nat
  text : String
deriving DecidableEq, Repr

/-- The number of bytes of the characters in UTF-8. -/
def utf8Length : List Char → Nat
  | [] => 0
  | first :: rest => first.utf8Size + utf8Length rest

@[simp] theorem utf8Length_nil : utf8Length [] = 0 := rfl

@[simp] theorem utf8Length_cons (first : Char) (rest : List Char) :
    utf8Length (first :: rest) = first.utf8Size + utf8Length rest := rfl

@[simp] theorem utf8Length_append (front back : List Char) :
    utf8Length (front ++ back) = utf8Length front + utf8Length back := by
  induction front with
  | nil => simp
  | cons first rest inductionHypothesis => simp [inductionHypothesis, Nat.add_assoc]

/-- A position in a source: the characters not yet read, the number of bytes before them, and
the line of the first of them, counted from one. -/
structure Cursor where
  source : Source
  rest : List Char
  offset : Nat
  line : Nat
deriving Repr

namespace Cursor

/-- The beginning of a source. -/
def start (source : Source) : Cursor :=
  ⟨source, source.text.toList, 0, 1⟩

/-- Whether nothing is left to read. -/
def atEnd (cursor : Cursor) : Bool :=
  cursor.rest.isEmpty

/-! ## Looking ahead -/

/-- The next character. -/
def peek (cursor : Cursor) : Option Char :=
  cursor.rest.head?

/-- The character after the next. -/
def peekNext (cursor : Cursor) : Option Char :=
  cursor.rest.tail.head?

/-! ## Moving on -/

/-- The cursor after `passed`, with `rest` left: a line feed begins a new line. -/
def after (cursor : Cursor) (passed rest : List Char) : Cursor where
  source := cursor.source
  rest := rest
  offset := cursor.offset + utf8Length passed
  line := cursor.line + passed.count '\n'

/-- Reads one character, if there is one. -/
def next (cursor : Cursor) : Option Char × Cursor :=
  match cursor.rest with
  | [] => (none, cursor)
  | first :: rest => (some first, cursor.after [first] rest)

/-- Reads the next character if it is the expected one, and says whether it was. -/
def consumeIf (expected : Char) (cursor : Cursor) : Bool × Cursor :=
  match cursor.rest with
  | [] => (false, cursor)
  | first :: rest =>
    if first = expected then (true, cursor.after [first] rest) else (false, cursor)

/-- Reads on up to the first character that is not accepted, or to the end. -/
def consumeWhile (accepts : Char → Bool) (cursor : Cursor) : Cursor :=
  cursor.after (cursor.rest.takeWhile accepts) (cursor.rest.dropWhile accepts)

/-! ## The text between two cursors -/

/-- Why there is no text between two cursors. -/
inductive SliceFault where
  | differentSources
  | endBeforeStart
deriving DecidableEq, Repr

/-- The first characters that together have the given number of bytes. -/
private def takeBytes (taken : List Char) : (bytes : Nat) → List Char → List Char
  | _, [] => taken.reverse
  | bytes, first :: rest =>
    if first.utf8Size ≤ bytes then takeBytes (first :: taken) (bytes - first.utf8Size) rest
    else taken.reverse

/-- The text from one cursor to another, which has to be on the same source and not before
it. -/
def slice (start stop : Cursor) : Except SliceFault String :=
  if start.source.label ≠ stop.source.label then .error .differentSources
  else if stop.offset < start.offset then .error .endBeforeStart
  else .ok (String.ofList (takeBytes [] (stop.offset - start.offset) start.rest))

/-- Cursors are at the same place if they have the same source and the same offset. -/
instance : BEq Cursor where
  beq left right := left.source.label == right.source.label && left.offset == right.offset

/-! ## Reaching a cursor -/

/-- `stop` is where `start` comes to by reading the characters `passed`. -/
structure Reaches (start : Cursor) (passed : List Char) (stop : Cursor) : Prop where
  rest_eq : start.rest = passed ++ stop.rest
  stop_eq : stop = start.after passed stop.rest

theorem Reaches.refl (cursor : Cursor) : Reaches cursor [] cursor :=
  ⟨rfl, by simp [after]⟩

theorem Reaches.trans
    {start middle stop : Cursor}
    {front back : List Char}
    (first : Reaches start front middle)
    (second : Reaches middle back stop) :
    Reaches start (front ++ back) stop := by
  obtain ⟨firstRest, firstStop⟩ := first
  obtain ⟨secondRest, secondStop⟩ := second
  refine ⟨by rw [firstRest, secondRest, List.append_assoc], ?_⟩
  rw [secondStop, firstStop]
  simp [after, Nat.add_assoc]

theorem Reaches.after
    {cursor : Cursor}
    {passed rest : List Char}
    (split : cursor.rest = passed ++ rest) :
    Reaches cursor passed (cursor.after passed rest) :=
  ⟨split, rfl⟩

/-- Reading a character passes that character. -/
theorem reaches_next
    {cursor stop : Cursor}
    {first : Char}
    (read : cursor.next = (some first, stop)) :
    Reaches cursor [first] stop := by
  unfold next at read
  split at read
  · simp at read
  · rename_i head rest shape
    simp only [Prod.mk.injEq, Option.some.injEq] at read
    obtain ⟨rfl, rfl⟩ := read
    exact .after shape

/-- A character that is read under a condition is the expected one. -/
theorem reaches_consumeIf
    {cursor stop : Cursor}
    {expected : Char}
    (read : cursor.consumeIf expected = (true, stop)) :
    Reaches cursor [expected] stop := by
  unfold consumeIf at read
  split at read
  · simp at read
  · rename_i first rest shape
    split at read
    · rename_i same
      simp only [Prod.mk.injEq, true_and] at read
      subst same read
      exact .after shape
    · simp at read

/-- Reading on passes the longest run of accepted characters. -/
theorem reaches_consumeWhile (accepts : Char → Bool) (cursor : Cursor) :
    Reaches cursor (cursor.rest.takeWhile accepts) (cursor.consumeWhile accepts) :=
  .after List.takeWhile_append_dropWhile.symm

private theorem takeBytes_append (taken passed rest : List Char) :
    takeBytes taken (utf8Length passed) (passed ++ rest) = taken.reverse ++ passed := by
  induction passed generalizing taken with
  | nil =>
    cases rest with
    | nil => simp [takeBytes]
    | cons first rest =>
      have positive := first.utf8Size_pos
      have tooLong : ¬ first.utf8Size ≤ 0 := by omega
      simp [takeBytes, tooLong]
  | cons first passed inductionHypothesis =>
    rw [utf8Length_cons, List.cons_append, takeBytes,
      if_pos (Nat.le_add_right _ _), Nat.add_sub_cancel_left, inductionHypothesis]
    simp

/-- The text between two cursors is what was read between them. -/
theorem Reaches.slice_eq
    {start stop : Cursor}
    {passed : List Char}
    (reaches : Reaches start passed stop) :
    start.slice stop = .ok (String.ofList passed) := by
  obtain ⟨restEq, stopEq⟩ := reaches
  have label : start.source.label = stop.source.label := by rw [stopEq]; rfl
  have offset : stop.offset = start.offset + utf8Length passed := by rw [stopEq]; rfl
  unfold slice
  rw [if_neg (fun different => different label), if_neg (by omega), offset,
    Nat.add_sub_cancel_left, restEq, takeBytes_append]
  rfl

/-- What is left after reading is not longer than before. -/
theorem Reaches.length_eq
    {start stop : Cursor}
    {passed : List Char}
    (reaches : Reaches start passed stop) :
    start.rest.length = passed.length + stop.rest.length := by
  rw [reaches.rest_eq, List.length_append]

end Cursor

end Lox
