import Lox.Proofs.Token.Cutting

/-!
Contract: which segment begins with which characters.

Owns:
- reading over characters that are known;
- the characters that symbols, words and numbers begin with;
- for every class of segments, the characters that one of the class begins with;
- that only one segment begins with given characters.

Does not own: the lexical grammar.
-/

namespace Lox

/-! ## Reading over known characters -/

namespace Cursor

variable {cursor : Cursor} {passed rest : List Char}

theorem after_after (cursor : Cursor) (front back middle rest : List Char) :
    (cursor.after front middle).after back rest = cursor.after (front ++ back) rest := by
  simp [after, Nat.add_assoc]

/-- A run of accepted characters is passed where it cannot go on. -/
theorem consumeWhile_eq
    {accepts : Char → Bool}
    (left : cursor.rest = passed ++ rest)
    (accepted : ∀ character ∈ passed, accepts character = true)
    (stops : ∀ next ∈ rest.head?, accepts next = false) :
    cursor.consumeWhile accepts = cursor.after passed rest := by
  have stopped : rest.takeWhile accepts = [] ∧ rest.dropWhile accepts = rest := by
    cases rest with
    | nil => exact ⟨rfl, rfl⟩
    | cons next tail =>
      have refused : ¬ accepts next = true := by simp [stops next rfl]
      exact ⟨List.takeWhile_cons_of_neg refused, List.dropWhile_cons_of_neg refused⟩
  rw [consumeWhile, left, List.takeWhile_append_of_pos accepted,
    List.dropWhile_append_of_pos accepted, stopped.1, stopped.2, List.append_nil]

theorem consumeIf_eq_true {expected : Char} (left : cursor.rest = expected :: rest) :
    cursor.consumeIf expected = (true, cursor.after [expected] rest) := by
  simp only [consumeIf, left, if_true]

theorem consumeIf_eq_false
    {expected : Char}
    (differs : cursor.rest.head? ≠ some expected) :
    cursor.consumeIf expected = (false, cursor) := by
  cases left : cursor.rest with
  | nil => simp only [consumeIf, left]
  | cons first rest =>
    have other : first ≠ expected := by simpa [left] using differs
    simp only [consumeIf, left, if_neg other]

theorem next_eq {first : Char} (left : cursor.rest = first :: rest) :
    cursor.next = (some first, cursor.after [first] rest) := by
  simp only [next, left]

end Cursor

/-! ## First characters -/

theorem startsWord_of_ascii {character : Char} (ascii : character.toNat < 128) :
    startsWord character = (character.isAlpha || character == '_') := by
  rw [startsWord, Text.isAlphabetic_of_ascii ascii]

namespace Symbol

/-- A symbol is one character, or one with an equals sign behind it. -/
theorem spelling_cases (mark : Symbol) :
    (∃ first, mark.spelling.toList = [first] ∧ ofChar? first = some mark) ∨
      ∃ first shorter, mark.spelling.toList = [first, '='] ∧ ofChar? first = some shorter ∧
        shorter.withEqual? = some mark := by
  cases mark with
  | bangEqual => exact .inr ⟨'!', bang, rfl, rfl, rfl⟩
  | equalEqual => exact .inr ⟨'=', equal, rfl, rfl, rfl⟩
  | greaterEqual => exact .inr ⟨'>', greater, rfl, rfl, rfl⟩
  | lessEqual => exact .inr ⟨'<', less, rfl, rfl, rfl⟩
  | _ => exact .inl ⟨_, rfl, rfl⟩

theorem spelling_of_ofChar? {first : Char} {mark : Symbol} (found : ofChar? first = some mark) :
    mark.spelling.toList = [first] := by
  unfold ofChar? at found
  split at found <;> cases found <;> rfl

theorem spelling_of_withEqual?
    {first : Char}
    {shorter mark : Symbol}
    (found : ofChar? first = some shorter)
    (longer : shorter.withEqual? = some mark) :
    mark.spelling.toList = [first, '='] := by
  unfold ofChar? at found
  split at found <;> cases found <;> cases longer <;> rfl

/-- The characters of symbols begin no word. -/
theorem ofChar?_of_startsWord {first : Char} (starts : startsWord first = true) :
    ofChar? first = none := by
  unfold ofChar?
  split <;> first | rfl | (rw [startsWord_of_ascii (by decide)] at starts; contradiction)

/-- The characters of symbols begin no number. -/
theorem ofChar?_of_isDigit {first : Char} (digit : first.isDigit = true) :
    ofChar? first = none := by
  unfold ofChar?
  split <;> first | rfl | contradiction

end Symbol

/-- No digit begins a word. -/
theorem startsWord_of_isDigit {first : Char} (digit : first.isDigit = true) :
    startsWord first = false := by
  have range : 48 ≤ first.toNat ∧ first.toNat ≤ 57 := by
    simpa [Char.isDigit, UInt32.le_iff_toNat_le] using digit
  have noLetter : first.isAlpha = false := by
    refine Bool.eq_false_iff.2 fun letter => ?_
    have letters : 65 ≤ first.toNat ∧ first.toNat ≤ 90 ∨ 97 ≤ first.toNat ∧ first.toNat ≤ 122 := by
      change (decide (first.val ≥ 'A'.val ∧ first.val ≤ 'Z'.val) ||
        (decide (first.val ≥ 'a'.val) && decide (first.val ≤ 'z'.val))) = true at letter
      simpa [UInt32.le_iff_toNat_le] using letter
    omega
  have noLine : first ≠ '_' := by
    rintro rfl
    contradiction
  rw [startsWord_of_ascii (by omega), noLetter, beq_false_of_ne noLine, Bool.false_or]

/-! ## Segments -/

namespace Segment

variable {first : Char} {passed rest : List Char}

/-- Only one segment begins with given characters. -/
theorem Begins.unique
    {otherPassed otherRest : List Char}
    {segment other : Segment}
    (left : Begins first passed segment rest)
    (right : Begins first otherPassed other otherRest)
    (same : passed ++ rest = otherPassed ++ otherRest) :
    passed = otherPassed ∧ segment = other ∧ rest = otherRest := by
  have read := (left (.bare (passed ++ rest)) rfl).symm.trans (right (.bare (passed ++ rest)) same)
  obtain ⟨segments, stops⟩ := Prod.mk.inj read
  have rests : rest = otherRest := congrArg Cursor.rest stops
  subst rests
  exact ⟨List.append_cancel_right same, segments, rfl⟩

theorem begins_blank
    {character : Char}
    (blank : character ∈ [' ', '\r', '\t', '\n'])
    (rest : List Char) :
    Begins character [] .blank rest := by
  intro inside left
  obtain rfl : inside.rest = rest := left
  simp only [List.mem_cons, List.not_mem_nil, or_false] at blank
  rcases blank with rfl | rfl | rfl | rfl <;> rfl

theorem begins_string {content : List Char} (noQuote : '"' ∉ content) (rest : List Char) :
    Begins '"' (content ++ ['"']) .string rest := by
  intro inside left
  rw [List.append_assoc, List.singleton_append] at left
  have run : inside.consumeWhile (· ≠ '"') = inside.after content ('"' :: rest) := by
    refine Cursor.consumeWhile_eq left (fun character member => ?_) (fun next found => ?_)
    · simpa using ne_of_mem_of_not_mem member noQuote
    · cases found
      rfl
  rw [read, if_pos rfl, readString, run, Cursor.consumeIf_eq_true rfl, Cursor.after_after]

theorem begins_openString {content : List Char} (noQuote : '"' ∉ content) :
    Begins '"' content .openString [] := by
  intro inside left
  have run : inside.consumeWhile (· ≠ '"') = inside.after content [] := by
    refine Cursor.consumeWhile_eq left (fun character member => ?_) (fun next found => ?_)
    · simpa using ne_of_mem_of_not_mem member noQuote
    · cases found
  have ended : (inside.after content []).rest.head? ≠ some '"' := by
    simp [Cursor.after]
  rw [read, if_pos rfl, readString, run, Cursor.consumeIf_eq_false ended]

theorem begins_comment
    {content : List Char}
    (oneLine : '\n' ∉ content)
    (ends : ∀ next ∈ rest.head?, next = '\n') :
    Begins '/' ('/' :: content) .comment rest := by
  intro inside left
  rw [List.cons_append] at left
  have run : (inside.after ['/'] (content ++ rest)).consumeWhile (· ≠ '\n') =
      (inside.after ['/'] (content ++ rest)).after content rest := by
    refine Cursor.consumeWhile_eq rfl (fun character member => ?_) (fun next found => ?_)
    · simpa using ne_of_mem_of_not_mem member oneLine
    · simp [ends next found]
  rw [read, if_neg (by decide), if_pos rfl, readSlash, Cursor.consumeIf_eq_true left]
  dsimp only
  rw [run, Cursor.after_after, List.singleton_append]

theorem begins_slash (single : rest.head? ≠ some '/') :
    Begins '/' [] (.symbol .slash) rest := by
  intro inside left
  obtain rfl : inside.rest = rest := left
  rw [read, if_neg (by decide), if_pos rfl, readSlash, Cursor.consumeIf_eq_false single]
  rfl

/-- What is read after the first character of a symbol other than the slash. -/
private theorem read_of_ofChar?
    {mark : Symbol}
    (found : Symbol.ofChar? first = some mark)
    (noSlash : first ≠ '/')
    (inside : Cursor) :
    read first inside = readSymbol mark inside := by
  have noQuote : first ≠ '"' := by
    rintro rfl
    cases found
  rw [read, if_neg noQuote, if_neg noSlash, found]

theorem begins_symbol
    {mark : Symbol}
    (found : Symbol.ofChar? first = some mark)
    (noSlash : first ≠ '/')
    (single : mark.withEqual? = none ∨ rest.head? ≠ some '=') :
    Begins first [] (.symbol mark) rest := by
  intro inside left
  obtain rfl : inside.rest = rest := left
  rw [read_of_ofChar? found noSlash, readSymbol]
  cases longer : mark.withEqual? with
  | none => rfl
  | some other =>
    rcases single with none | differs
    · rw [longer] at none
      cases none
    · rw [Cursor.consumeIf_eq_false differs]
      rfl

theorem begins_longerSymbol
    {shorter mark : Symbol}
    (found : Symbol.ofChar? first = some shorter)
    (longer : shorter.withEqual? = some mark)
    (rest : List Char) :
    Begins first ['='] (.symbol mark) rest := by
  intro inside left
  change inside.rest = '=' :: rest at left
  have noSlash : first ≠ '/' := by
    rintro rfl
    cases found
    cases longer
  rw [read_of_ofChar? found noSlash, readSymbol, longer]
  dsimp only
  rw [Cursor.consumeIf_eq_true left]

private theorem read_of_isDigit (digit : first.isDigit = true) (inside : Cursor) :
    read first inside = (.number, readNumber inside) := by
  have noQuote : first ≠ '"' := by
    rintro rfl
    contradiction
  have noSlash : first ≠ '/' := by
    rintro rfl
    contradiction
  rw [read, if_neg noQuote, if_neg noSlash, Symbol.ofChar?_of_isDigit digit]
  simp only [if_pos digit]

theorem begins_wholeNumber
    (firstDigit : first.isDigit = true)
    (digits : ∀ digit ∈ passed, digit.isDigit = true)
    (stops : ∀ next ∈ rest.head?, next.isDigit = false)
    (noPoint : ∀ next tail, rest = '.' :: next :: tail → next.isDigit = false) :
    Begins first passed .number rest := by
  intro inside left
  rw [read_of_isDigit firstDigit, readNumber, Cursor.consumeWhile_eq left digits stops]
  have ended : ¬ ((inside.after passed rest).peek = some '.' ∧
      (inside.after passed rest).peekNext.any Char.isDigit = true) := by
    rintro ⟨point, digit⟩
    change rest.head? = some '.' at point
    change rest.tail.head?.any Char.isDigit = true at digit
    rcases rest with _ | ⟨point', _ | ⟨next, tail⟩⟩
    · cases point
    · cases digit
    · cases point
      simp [noPoint next tail rfl] at digit
  rw [if_neg ended]

theorem begins_pointNumber
    {whole fraction : List Char}
    (firstDigit : first.isDigit = true)
    (wholeDigits : ∀ digit ∈ whole, digit.isDigit = true)
    (fractionNonempty : fraction ≠ [])
    (fractionDigits : ∀ digit ∈ fraction, digit.isDigit = true)
    (stops : ∀ next ∈ rest.head?, next.isDigit = false) :
    Begins first (whole ++ '.' :: fraction) .number rest := by
  intro inside left
  rw [List.append_assoc, List.cons_append] at left
  have wholeRun : inside.consumeWhile Char.isDigit =
      inside.after whole ('.' :: (fraction ++ rest)) := by
    refine Cursor.consumeWhile_eq left wholeDigits (fun next found => ?_)
    cases found
    rfl
  have pointed : (inside.after whole ('.' :: (fraction ++ rest))).peek = some '.' ∧
      (inside.after whole ('.' :: (fraction ++ rest))).peekNext.any Char.isDigit = true := by
    refine ⟨rfl, ?_⟩
    cases fraction with
    | nil => contradiction
    | cons digit others => exact fractionDigits digit List.mem_cons_self
  have fractionRun : ((inside.after whole ('.' :: (fraction ++ rest))).after ['.']
      (fraction ++ rest)).consumeWhile Char.isDigit =
        ((inside.after whole ('.' :: (fraction ++ rest))).after ['.']
          (fraction ++ rest)).after fraction rest :=
    Cursor.consumeWhile_eq rfl fractionDigits stops
  rw [read_of_isDigit firstDigit, readNumber, wholeRun, if_pos pointed, Cursor.next_eq rfl,
    fractionRun, Cursor.after_after, Cursor.after_after, List.singleton_append]

theorem begins_word
    (starts : startsWord first = true)
    (continues : ∀ character ∈ passed, continuesWord character = true)
    (stops : ∀ next ∈ rest.head?, continuesWord next = false) :
    Begins first passed .word rest := by
  intro inside left
  have noQuote : first ≠ '"' := by
    rintro rfl
    rw [startsWord_of_ascii (by decide)] at starts
    contradiction
  have noSlash : first ≠ '/' := by
    rintro rfl
    rw [startsWord_of_ascii (by decide)] at starts
    contradiction
  have noDigit : first.isDigit = false := by
    refine Bool.eq_false_iff.2 fun digit => ?_
    rw [startsWord_of_isDigit digit] at starts
    contradiction
  rw [read, if_neg noQuote, if_neg noSlash, Symbol.ofChar?_of_startsWord starts]
  simp only [noDigit, if_pos starts, Cursor.consumeWhile_eq left continues stops,
    Bool.false_eq_true, if_false]

/-- A character stands alone if it is none that segments begin with. -/
theorem begins_stray
    (noQuote : first ≠ '"')
    (noSymbol : Symbol.ofChar? first = none)
    (noDigit : first.isDigit = false)
    (noWord : startsWord first = false)
    (noBlank : first ∉ [' ', '\r', '\t', '\n'])
    (rest : List Char) :
    Begins first [] (.stray first) rest := by
  intro inside left
  obtain rfl : inside.rest = rest := left
  have noSlash : first ≠ '/' := by
    rintro rfl
    cases noSymbol
  have notBlank : isBlank first = false := by
    simpa [isBlank, and_assoc] using noBlank
  rw [read, if_neg noQuote, if_neg noSlash, noSymbol]
  simp only [noDigit, noWord, notBlank, Bool.false_eq_true, if_false]
  rfl

end Segment

end Lox
