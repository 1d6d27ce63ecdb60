import Lox.Proofs.Token.Beginning

/-!
Contract: the lexical grammar.

Owns:
- the texts that are segments of a source, and what they mean;
- sources as sequences of segments, each as long as possible where it begins;
- the segment that is read where a text of the grammar stands;
- that a source has exactly one such sequence, and that `lex` gives its tokens and errors.

Does not own: what sequences of tokens mean.

The grammar mentions no reader.  It shares with them only the classes of characters, the spellings
of symbols and keywords, and the double nearest to a decimal number.
-/

namespace Lox

/-! ## The grammar -/

/-- What a segment of a source stands for. -/
inductive Meaning where
  | separator
  | token (kind : TokenKind)
  | fault (fault : LexicalFault)
deriving DecidableEq

/-- The text is digits, or digits, a point and digits, and writes the decimal number. -/
inductive Numeral : (text : List Char) → Number.Decimal → Prop where
  | whole
    {digits : List Char}
    (nonempty : digits ≠ [])
    (areDigits : ∀ digit ∈ digits, digit.isDigit = true) :
    Numeral digits ⟨Nat.ofDigitChars 10 digits 0, 0⟩
  | point
    {whole fraction : List Char}
    (wholeNonempty : whole ≠ [])
    (wholeDigits : ∀ digit ∈ whole, digit.isDigit = true)
    (fractionNonempty : fraction ≠ [])
    (fractionDigits : ∀ digit ∈ fraction, digit.isDigit = true) :
    Numeral (whole ++ '.' :: fraction)
      ⟨Nat.ofDigitChars 10 (whole ++ fraction) 0, fraction.length⟩

/-- The text is a segment with the meaning in front of the rest of a source. -/
inductive Spells : (text rest : List Char) → Meaning → Prop where
  | blank
    {character : Char}
    {rest : List Char}
    (isBlank : character ∈ [' ', '\r', '\t', '\n']) :
    Spells [character] rest .separator
  | comment
    {content rest : List Char}
    (oneLine : '\n' ∉ content) :
    Spells ('/' :: '/' :: content) rest .separator
  | string
    {content rest : List Char}
    (noQuote : '"' ∉ content) :
    Spells ('"' :: (content ++ ['"'])) rest (.token (.string (String.ofList content)))
  /-- A string without an end takes everything that is left. -/
  | openString
    {content : List Char}
    (noQuote : '"' ∉ content) :
    Spells ('"' :: content) [] (.fault .unterminatedString)
  | number
    {text rest : List Char}
    {decimal : Number.Decimal}
    (numeral : Numeral text decimal) :
    Spells text rest (.token (.number decimal.nearestDouble))
  | keyword
    {rest : List Char}
    (word : Keyword) :
    Spells word.spelling.toList rest (.token (.keyword word))
  | identifier
    {first : Char}
    {others rest : List Char}
    (starts : startsWord first = true)
    (continues : ∀ character ∈ others, continuesWord character = true)
    (noKeyword : ∀ word : Keyword, word.spelling.toList ≠ first :: others) :
    Spells (first :: others) rest (.token .identifier)
  | symbol
    {rest : List Char}
    (mark : Symbol) :
    Spells mark.spelling.toList rest (.token (.symbol mark))

/-- The text is a segment, and no longer text is one in its place. -/
structure Longest (text rest : List Char) (meaning : Meaning) : Prop where
  spells : Spells text rest meaning
  noLonger {other otherRest : List Char} {otherMeaning : Meaning} :
    Spells other otherRest otherMeaning → other ++ otherRest = text ++ rest →
      other.length ≤ text.length

/-- A segment of a source, with everything before it. -/
structure Passage where
  before : List Char
  text : List Char
  meaning : Meaning

namespace Passage

/-- The token that the segment is, on the line that it begins on. -/
def token? (passage : Passage) : Option Token :=
  match passage.meaning with
  | .token kind => some ⟨kind, String.ofList passage.text, 1 + passage.before.count '\n'⟩
  | _ => none

/-- The error that the segment is, on the line that it ends on. -/
def error? (passage : Passage) : Option LexicalError :=
  match passage.meaning with
  | .fault fault => some ⟨fault, 1 + (passage.before ++ passage.text).count '\n'⟩
  | _ => none

end Passage

/-- The characters, with others before them, are the segments one after another.  Each is as long
as possible, and a character that no segment begins with stands alone as an error. -/
inductive Segmentation : (before characters : List Char) → List Passage → Prop where
  | done {before : List Char} : Segmentation before [] []
  | segment
    {before text rest : List Char}
    {meaning : Meaning}
    {others : List Passage}
    (longest : Longest text rest meaning)
    (next : Segmentation (before ++ text) rest others) :
    Segmentation before (text ++ rest) (⟨before, text, meaning⟩ :: others)
  | unexpected
    {before rest : List Char}
    {character : Char}
    {others : List Passage}
    (noSegment : ∀ (text back : List Char) (meaning : Meaning),
      Spells text back meaning → text ++ back ≠ character :: rest)
    (next : Segmentation (before ++ [character]) rest others) :
    Segmentation before (character :: rest)
      (⟨before, [character], .fault (.unexpectedCharacter character)⟩ :: others)

/-! ## Segments that are read -/

namespace Cut

/-- What the segment stands for. -/
def meaning (cut : Cut) : Meaning :=
  match cut.segment.fault? with
  | some fault => .fault fault
  | none =>
    match cut.segment.kind? (String.ofList cut.text) with
    | .ok (some kind) => .token kind
    | _ => .separator

theorem meaning_of_kind?
    {segment : Segment}
    {text : List Char}
    {kind : TokenKind}
    (noFault : segment.fault? = none)
    (found : segment.kind? (String.ofList text) = .ok (some kind)) :
    meaning ⟨segment, text⟩ = .token kind := by
  rw [meaning, noFault, found]

/-- The segment is read from the characters, and the rest is left. -/
structure ReadFrom (characters rest : List Char) (cut : Cut) : Prop where
  begins : ∃ first passed, cut.text = first :: passed ∧ cut.segment.Begins first passed rest
  characters_eq : characters = cut.text ++ rest

/-- Only one segment can be read from the characters. -/
theorem ReadFrom.unique
    {characters rest otherRest : List Char}
    {cut other : Cut}
    (left : cut.ReadFrom characters rest)
    (right : other.ReadFrom characters otherRest) :
    cut = other ∧ rest = otherRest := by
  obtain ⟨segment, text⟩ := cut
  obtain ⟨otherSegment, otherText⟩ := other
  obtain ⟨⟨first, passed, rfl, begins⟩, rfl⟩ := left
  obtain ⟨⟨otherFirst, otherPassed, rfl, otherBegins⟩, same⟩ := right
  obtain ⟨rfl, others⟩ := List.cons.inj same
  obtain ⟨rfl, rfl, rfl⟩ := begins.unique otherBegins others
  exact ⟨rfl, rfl⟩

end Cut

/-! ## Numbers -/

/-- A run of digits in front of something else is what is taken of the characters. -/
private theorem takeWhile_digits
    {digits : List Char}
    (rest : List Char)
    (areDigits : ∀ digit ∈ digits, digit.isDigit = true)
    (stops : ∀ next ∈ rest.head?, next.isDigit = false) :
    (digits ++ rest).takeWhile Char.isDigit = digits ∧
      (digits ++ rest).dropWhile Char.isDigit = rest := by
  rw [List.takeWhile_append_of_pos areDigits, List.dropWhile_append_of_pos areDigits]
  cases rest with
  | nil => simp
  | cons next tail => simp [stops next rfl]

/-- A numeral is read as the number that it writes. -/
theorem Numeral.read?_eq
    {text : List Char}
    {decimal : Number.Decimal}
    (numeral : Numeral text decimal) :
    Number.Decimal.read? text = some decimal := by
  cases numeral with
  | whole nonempty areDigits =>
    obtain ⟨taken, dropped⟩ :=
      takeWhile_digits [] areDigits fun next found => nomatch found
    rw [List.append_nil] at taken dropped
    simp only [Number.Decimal.read?, taken, dropped, List.isEmpty_eq_false_iff.2 nonempty]
    rfl
  | @point whole fraction wholeNonempty wholeDigits fractionNonempty fractionDigits =>
    obtain ⟨taken, dropped⟩ := takeWhile_digits ('.' :: fraction) wholeDigits
      fun next found => by cases found; rfl
    have allDigits : fraction.all Char.isDigit = true := List.all_eq_true.2 fractionDigits
    simp only [Number.Decimal.read?, taken, dropped, List.isEmpty_eq_false_iff.2 wholeNonempty,
      List.isEmpty_eq_false_iff.2 fractionNonempty, allDigits]
    rw [Nat.ofDigitChars, List.foldl_append]
    rfl

/-- Nothing but digits and the point stands in a numeral. -/
theorem Numeral.isDigit_or_eq_of_mem
    {text : List Char}
    {decimal : Number.Decimal}
    (numeral : Numeral text decimal) :
    ∀ character ∈ text, character.isDigit = true ∨ character = '.' := by
  intro character member
  cases numeral with
  | whole _ areDigits => exact .inl (areDigits character member)
  | point _ wholeDigits _ fractionDigits =>
    rcases List.mem_append.1 member with inWhole | behind
    · exact .inl (wholeDigits character inWhole)
    · rcases List.mem_cons.1 behind with point | inFraction
      · exact .inr point
      · exact .inl (fractionDigits character inFraction)

theorem Numeral.meaning_eq
    {text : List Char}
    {decimal : Number.Decimal}
    (numeral : Numeral text decimal) :
    Cut.meaning ⟨.number, text⟩ = .token (.number decimal.nearestDouble) := by
  apply Cut.meaning_of_kind? rfl
  rw [Segment.kind?, String.toList_ofList, numeral.read?_eq]

/-! ## The segment where a text stands -/

/-- A segment of the grammar is read where the text stands.  It goes on at least as far as the
text, and if it is the text, it has the same meaning. -/
structure ReadAs (text rest : List Char) (meaning : Meaning) (cut : Cut) (back : List Char) :
    Prop where
  read : cut.ReadFrom (text ++ rest) back
  spells : Spells cut.text back cut.meaning
  goesOn : text <+: cut.text
  meaning_eq : cut.text = text → cut.meaning = meaning

section Classes

variable {first : Char} {passed rest : List Char}

/-- The segment that the text is by itself is read, and nothing after it. -/
private theorem readAs_exact
    {segment : Segment}
    {meaning : Meaning}
    (begins : segment.Begins first passed rest)
    (spells : Spells (first :: passed) rest meaning)
    (sameMeaning : Cut.meaning ⟨segment, first :: passed⟩ = meaning) :
    ReadAs (first :: passed) rest meaning ⟨segment, first :: passed⟩ rest where
  read := ⟨⟨first, passed, rfl, begins⟩, rfl⟩
  spells := sameMeaning ▸ spells
  goesOn := List.prefix_refl _
  meaning_eq := fun _ => sameMeaning

/-- The segment goes on after the text. -/
private theorem readAs_longer
    {segment : Segment}
    {more back : List Char}
    {meaning longerMeaning : Meaning}
    (left : rest = more ++ back)
    (begins : segment.Begins first (passed ++ more) back)
    (spells : Spells (first :: (passed ++ more)) back longerMeaning)
    (longer : Cut.meaning ⟨segment, first :: (passed ++ more)⟩ = longerMeaning)
    (same : more = [] → longerMeaning = meaning) :
    ReadAs (first :: passed) rest meaning ⟨segment, first :: (passed ++ more)⟩ back where
  read := by
    refine ⟨⟨first, passed ++ more, rfl, begins⟩, ?_⟩
    rw [left, List.cons_append, List.cons_append, List.append_assoc]
  spells := longer ▸ spells
  goesOn := ⟨more, rfl⟩
  meaning_eq := by
    intro equal
    have nothing : more = [] := by
      have lengths := congrArg List.length equal
      simpa using lengths
    exact longer.trans (same nothing)

/-- The rest behind a run of accepted characters begins with none of them. -/
private theorem refused_of_head?_dropWhile (accepts : Char → Bool) (characters : List Char) :
    ∀ next ∈ (characters.dropWhile accepts).head?, accepts next = false := by
  intro next found
  have stopped := List.head?_dropWhile_not accepts characters
  rw [Option.mem_def.1 found] at stopped
  simpa using stopped

private theorem accepted_of_mem_takeWhile (accepts : Char → Bool) (characters : List Char) :
    ∀ character ∈ characters.takeWhile accepts, accepts character = true :=
  fun character member => List.all_eq_true.1 List.all_takeWhile character member

private theorem forall_mem_append_takeWhile
    {accepts : Char → Bool}
    (rest : List Char)
    (accepted : ∀ character ∈ passed, accepts character = true) :
    ∀ character ∈ passed ++ rest.takeWhile accepts, accepts character = true := by
  intro character member
  rcases List.mem_append.1 member with inPassed | inRun
  · exact accepted character inPassed
  · exact accepted_of_mem_takeWhile _ _ character inRun

/-- Digits go on with the digits behind them, and with a point that has digits behind it. -/
private theorem exists_readAs_digits
    (areDigits : ∀ digit ∈ first :: passed, digit.isDigit = true) :
    ∃ cut back, ReadAs (first :: passed) rest (.token (.number
      (Number.Decimal.nearestDouble ⟨Nat.ofDigitChars 10 (first :: passed) 0, 0⟩))) cut back := by
  have left := (List.takeWhile_append_dropWhile (p := Char.isDigit) (l := rest)).symm
  have firstDigit := areDigits first List.mem_cons_self
  have allDigits : ∀ digit ∈ first :: (passed ++ rest.takeWhile Char.isDigit),
      digit.isDigit = true :=
    forall_mem_append_takeWhile rest areDigits
  have passedDigits : ∀ digit ∈ passed ++ rest.takeWhile Char.isDigit, digit.isDigit = true :=
    fun digit member => allDigits digit (List.mem_cons_of_mem first member)
  by_cases pointed : ∃ next tail,
      rest.dropWhile Char.isDigit = '.' :: next :: tail ∧ next.isDigit = true
  · obtain ⟨next, tail, shape, nextDigit⟩ := pointed
    have fractionNonempty : (next :: tail).takeWhile Char.isDigit ≠ [] := by
      rw [List.takeWhile_cons_of_pos nextDigit]
      exact List.cons_ne_nil _ _
    have begins := Segment.begins_pointNumber firstDigit passedDigits fractionNonempty
      (accepted_of_mem_takeWhile _ _) (refused_of_head?_dropWhile _ (next :: tail))
    have numeral := Numeral.point (List.cons_ne_nil _ _) allDigits fractionNonempty
      (accepted_of_mem_takeWhile _ _)
    rw [List.append_assoc] at begins
    rw [List.cons_append, List.append_assoc] at numeral
    rw [shape, ← List.takeWhile_append_dropWhile (p := Char.isDigit) (l := next :: tail),
      ← List.cons_append, ← List.append_assoc] at left
    exact ⟨_, _, readAs_longer left begins (.number numeral) numeral.meaning_eq
      fun nothing => by simp at nothing⟩
  · have numeral := Numeral.whole (List.cons_ne_nil _ _) allDigits
    have begins : Segment.number.Begins first (passed ++ rest.takeWhile Char.isDigit)
        (rest.dropWhile Char.isDigit) := by
      refine Segment.begins_wholeNumber firstDigit passedDigits (refused_of_head?_dropWhile _ _) ?_
      intro next tail shape
      exact Bool.eq_false_iff.2 fun digit => pointed ⟨next, tail, shape, digit⟩
    exact ⟨_, _, readAs_longer left begins (.number numeral) numeral.meaning_eq
      fun nothing => by rw [nothing, List.append_nil]⟩

/-- A numeral with a point goes on with the digits behind it. -/
private theorem exists_readAs_point
    {fraction : List Char}
    (wholeDigits : ∀ digit ∈ first :: passed, digit.isDigit = true)
    (fractionNonempty : fraction ≠ [])
    (fractionDigits : ∀ digit ∈ fraction, digit.isDigit = true) :
    ∃ cut back, ReadAs (first :: (passed ++ '.' :: fraction)) rest (.token (.number
      (Number.Decimal.nearestDouble
        ⟨Nat.ofDigitChars 10 (first :: passed ++ fraction) 0, fraction.length⟩))) cut back := by
  have left := (List.takeWhile_append_dropWhile (p := Char.isDigit) (l := rest)).symm
  have allDigits := forall_mem_append_takeWhile rest fractionDigits
  have longerNonempty : fraction ++ rest.takeWhile Char.isDigit ≠ [] := by
    simp [fractionNonempty]
  have numeral := Numeral.point (List.cons_ne_nil _ _) wholeDigits longerNonempty allDigits
  have begins := Segment.begins_pointNumber (wholeDigits first List.mem_cons_self)
    (fun digit member => wholeDigits digit (List.mem_cons_of_mem first member))
    longerNonempty allDigits (refused_of_head?_dropWhile _ rest)
  rw [← List.cons_append, ← List.append_assoc] at begins numeral
  exact ⟨_, _, readAs_longer left begins (.number numeral) numeral.meaning_eq
    fun nothing => by rw [nothing, List.append_nil]⟩

private theorem exists_readAs_comment (passed rest : List Char) (oneLine : '\n' ∉ passed) :
    ∃ cut back, ReadAs ('/' :: '/' :: passed) rest .separator cut back := by
  have longerOneLine : '\n' ∉ passed ++ rest.takeWhile (· ≠ '\n') := by
    intro member
    rcases List.mem_append.1 member with inPassed | inRun
    · exact oneLine inPassed
    · have differs := accepted_of_mem_takeWhile (· ≠ '\n') rest '\n' inRun
      simp at differs
  have begins : Segment.comment.Begins '/' ('/' :: passed ++ rest.takeWhile (· ≠ '\n'))
      (rest.dropWhile (· ≠ '\n')) := by
    refine Segment.begins_comment longerOneLine fun next found => ?_
    have refused := refused_of_head?_dropWhile (· ≠ '\n') rest next found
    simpa using refused
  exact ⟨_, _, readAs_longer
    (List.takeWhile_append_dropWhile (p := (· ≠ '\n')) (l := rest)).symm
    begins (.comment longerOneLine) rfl fun _ => rfl⟩

private theorem spells_word
    (starts : startsWord first = true)
    (continues : ∀ character ∈ passed, continuesWord character = true) :
    Spells (first :: passed) rest (Cut.meaning ⟨.word, first :: passed⟩) := by
  cases known : Keyword.ofSpelling? (String.ofList (first :: passed)) with
  | some word =>
    have spelled := Keyword.ofSpelling?_eq_some_iff.1 known
    have text : first :: passed = word.spelling.toList := by rw [← spelled, String.toList_ofList]
    have meaning : Cut.meaning ⟨.word, first :: passed⟩ = .token (.keyword word) :=
      Cut.meaning_of_kind? rfl (by rw [Segment.kind?, known])
    rw [meaning, text]
    exact .keyword word
  | none =>
    have meaning : Cut.meaning ⟨.word, first :: passed⟩ = .token .identifier :=
      Cut.meaning_of_kind? rfl (by rw [Segment.kind?, known])
    rw [meaning]
    refine .identifier starts continues fun word text => ?_
    have spelled : String.ofList (first :: passed) = word.spelling := by
      rw [← text, String.ofList_toList]
    rw [Keyword.ofSpelling?_eq_some_iff.2 spelled] at known
    cases known

/-- A keyword has the form of an identifier. -/
theorem Keyword.spelling_isWord (word : Keyword) :
    ∃ first others, word.spelling.toList = first :: others ∧ startsWord first = true ∧
      ∀ character ∈ others, continuesWord character = true := by
  have nonempty : word.spelling.toList ≠ [] := by
    cases word <;> decide
  have letters : word.spelling.toList.all
      (fun character => character.toNat < 128 && character.isAlpha) = true := by
    cases word <;> decide
  have starts : ∀ character ∈ word.spelling.toList, startsWord character = true := by
    intro character member
    have letter := List.all_eq_true.1 letters character member
    rw [Bool.and_eq_true, decide_eq_true_eq] at letter
    rw [startsWord_of_ascii letter.1, letter.2, Bool.true_or]
  obtain ⟨first, others, spelling⟩ := List.exists_cons_of_ne_nil nonempty
  rw [spelling] at starts
  refine ⟨first, others, spelling, starts first List.mem_cons_self, fun character member => ?_⟩
  rw [continuesWord, starts character (List.mem_cons_of_mem first member), Bool.true_or]

private theorem exists_readAs_word
    (starts : startsWord first = true)
    (continues : ∀ character ∈ passed, continuesWord character = true) :
    ∃ cut back, ReadAs (first :: passed) rest (Cut.meaning ⟨.word, first :: passed⟩) cut back := by
  have allContinue := forall_mem_append_takeWhile rest continues
  exact ⟨_, _, readAs_longer
    (List.takeWhile_append_dropWhile (p := continuesWord) (l := rest)).symm
    (Segment.begins_word starts allContinue (refused_of_head?_dropWhile _ _))
    (spells_word starts allContinue) rfl
    fun nothing => by rw [nothing, List.append_nil]⟩

/-- A slash goes on as a comment if another one is behind it, and any other symbol goes on with an
equals sign if that makes a symbol. -/
private theorem exists_readAs_symbol
    {mark : Symbol}
    (found : Symbol.ofChar? first = some mark) :
    ∃ cut back, ReadAs [first] rest (.token (.symbol mark)) cut back := by
  have spelled : Spells [first] rest (.token (.symbol mark)) := by
    rw [← Symbol.spelling_of_ofChar? found]
    exact .symbol mark
  by_cases slash : first = '/'
  · subst slash
    cases found
    by_cases goesOn : rest.head? = some '/'
    · obtain ⟨others, rfl⟩ := List.head?_eq_some_iff.1 goesOn
      obtain ⟨cut, back, read, spells, ⟨more, text⟩, _⟩ :=
        exists_readAs_comment [] others List.not_mem_nil
      refine ⟨cut, back, read, spells, ⟨'/' :: more, text⟩, fun same => ?_⟩
      rw [same] at text
      cases text
    · exact ⟨_, _, readAs_exact (Segment.begins_slash goesOn) spelled rfl⟩
  · cases longer : mark.withEqual? with
    | none => exact ⟨_, _, readAs_exact (Segment.begins_symbol found slash (.inl longer)) spelled rfl⟩
    | some other =>
      by_cases goesOn : rest.head? = some '='
      · obtain ⟨others, rfl⟩ := List.head?_eq_some_iff.1 goesOn
        have longerSpelled : Spells (first :: ([] ++ ['='])) others (.token (.symbol other)) := by
          rw [List.nil_append, ← Symbol.spelling_of_withEqual? found longer]
          exact .symbol other
        exact ⟨_, _, readAs_longer (List.singleton_append).symm
          (Segment.begins_longerSymbol found longer others) longerSpelled rfl
          fun nothing => by cases nothing⟩
      · exact ⟨_, _, readAs_exact (Segment.begins_symbol found slash (.inr goesOn)) spelled rfl⟩

end Classes

/-- Where a text of the grammar stands, a segment of the grammar is read that is as long or
longer. -/
theorem Spells.exists_readAs
    {text rest : List Char}
    {meaning : Meaning}
    (spells : Spells text rest meaning) :
    ∃ cut back, ReadAs text rest meaning cut back := by
  cases spells with
  | blank isBlank =>
    exact ⟨_, _, readAs_exact (Segment.begins_blank isBlank rest) (.blank isBlank) rfl⟩
  | comment oneLine => exact exists_readAs_comment _ _ oneLine
  | string noQuote =>
    refine ⟨_, _, readAs_exact (Segment.begins_string noQuote rest) (.string noQuote) ?_⟩
    apply Cut.meaning_of_kind? rfl
    rw [Segment.kind?, String.toList_ofList]
    simp [Segment.unquoted?]
  | openString noQuote =>
    exact ⟨_, _, readAs_exact (Segment.begins_openString noQuote) (.openString noQuote) rfl⟩
  | number numeral =>
    cases numeral with
    | whole nonempty areDigits =>
      obtain ⟨first, passed, rfl⟩ := List.exists_cons_of_ne_nil nonempty
      exact exists_readAs_digits areDigits
    | point wholeNonempty wholeDigits fractionNonempty fractionDigits =>
      obtain ⟨first, passed, rfl⟩ := List.exists_cons_of_ne_nil wholeNonempty
      exact exists_readAs_point wholeDigits fractionNonempty fractionDigits
  | keyword word =>
    have meaning : Cut.meaning ⟨.word, word.spelling.toList⟩ = .token (.keyword word) := by
      have known : Keyword.ofSpelling? word.spelling = some word :=
        Keyword.ofSpelling?_eq_some_iff.2 rfl
      exact Cut.meaning_of_kind? rfl (by rw [String.ofList_toList, Segment.kind?, known])
    obtain ⟨first, others, spelling, starts, continues⟩ := word.spelling_isWord
    rw [← meaning, spelling]
    exact exists_readAs_word starts continues
  | @identifier first others rest starts continues noKeyword =>
    have meaning : Cut.meaning ⟨.word, first :: others⟩ = .token .identifier := by
      cases known : Keyword.ofSpelling? (String.ofList (first :: others)) with
      | some word =>
        refine absurd ?_ (noKeyword word)
        rw [← Keyword.ofSpelling?_eq_some_iff.1 known, String.toList_ofList]
      | none => exact Cut.meaning_of_kind? rfl (by rw [Segment.kind?, known])
    rw [← meaning]
    exact exists_readAs_word starts continues
  | symbol mark =>
    rcases mark.spelling_cases with ⟨first, spelling, found⟩ |
      ⟨first, shorter, spelling, found, longer⟩
    · rw [spelling]
      exact exists_readAs_symbol found
    · have spelled : Spells mark.spelling.toList rest (.token (.symbol mark)) := .symbol mark
      rw [spelling] at spelled ⊢
      exact ⟨_, _, readAs_exact (Segment.begins_longerSymbol found longer rest) spelled rfl⟩

/-- A quotation mark begins a string, with or without an end. -/
theorem ne_quote_of_noSegment
    {character : Char}
    {rest : List Char}
    (noSegment : ∀ (text back : List Char) (meaning : Meaning),
      Spells text back meaning → text ++ back ≠ character :: rest) :
    character ≠ '"' := by
  rintro rfl
  by_cases closed : '"' ∈ rest
  · obtain ⟨content, back, rfl, noQuote⟩ := List.eq_append_cons_of_mem closed
    refine noSegment _ back _ (.string noQuote) ?_
    rw [List.cons_append, List.append_assoc, List.singleton_append]
  · exact noSegment _ [] _ (.openString closed) (List.append_nil _)

/-- A character that no text of the grammar begins with is read as a stray one. -/
theorem readFrom_stray
    {character : Char}
    {rest : List Char}
    (noSegment : ∀ (text back : List Char) (meaning : Meaning),
      Spells text back meaning → text ++ back ≠ character :: rest) :
    Cut.ReadFrom (character :: rest) rest ⟨.stray character, [character]⟩ := by
  have noQuote := ne_quote_of_noSegment noSegment
  have noSymbol : Symbol.ofChar? character = none := by
    cases found : Symbol.ofChar? character with
    | none => rfl
    | some mark =>
      have spells : Spells mark.spelling.toList rest _ := .symbol mark
      rw [Symbol.spelling_of_ofChar? found] at spells
      exact absurd rfl (noSegment _ _ _ spells)
  have noDigit : character.isDigit = false := by
    refine Bool.eq_false_iff.2 fun digit => ?_
    have numeral : Numeral [character] _ := .whole (List.cons_ne_nil _ _) fun other member => by
      rwa [List.mem_singleton.1 member]
    exact noSegment _ _ _ (.number numeral) rfl
  have noWord : startsWord character = false := by
    refine Bool.eq_false_iff.2 fun starts => ?_
    have spells : Spells [character] rest _ :=
      spells_word starts fun other member => nomatch member
    exact noSegment _ _ _ spells rfl
  have noBlank : character ∉ [' ', '\r', '\t', '\n'] :=
    fun isBlank => noSegment _ _ _ (.blank isBlank) rfl
  exact ⟨⟨character, [], rfl,
    Segment.begins_stray noQuote noSymbol noDigit noWord noBlank rest⟩, rfl⟩

/-- The text of the segment that is read is one of the grammar, unless none of the grammar begins
there. -/
theorem Cut.ReadFrom.spells_or_noSegment
    {characters rest : List Char}
    {cut : Cut}
    (read : cut.ReadFrom characters rest) :
    Spells cut.text rest cut.meaning ∨
      ∀ (text back : List Char) (meaning : Meaning),
        Spells text back meaning → text ++ back ≠ characters := by
  by_cases found : ∃ text back meaning, Spells text back meaning ∧ text ++ back = characters
  · obtain ⟨text, back, meaning, spells, rfl⟩ := found
    obtain ⟨other, left, otherRead, otherSpells, _, _⟩ := spells.exists_readAs
    obtain ⟨rfl, rfl⟩ := otherRead.unique read
    exact .inl otherSpells
  · exact .inr fun text back meaning spells whole => found ⟨text, back, meaning, spells, whole⟩

/-- The longest segments of the grammar are the segments that are read. -/
theorem longest_iff {text rest : List Char} {meaning : Meaning} :
    Longest text rest meaning ↔
      ∃ cut : Cut, cut.ReadFrom (text ++ rest) rest ∧ cut.text = text ∧ cut.meaning = meaning ∧
        Spells text rest meaning := by
  constructor
  · rintro ⟨spells, noLonger⟩
    obtain ⟨cut, back, read, cutSpells, goesOn, sameMeaning⟩ := spells.exists_readAs
    have sameText : cut.text = text :=
      (goesOn.eq_of_length_le (noLonger cutSpells read.characters_eq.symm)).symm
    have sameRest : back = rest := by
      have whole := read.characters_eq
      rw [sameText] at whole
      exact (List.append_cancel_left whole).symm
    subst sameRest
    exact ⟨cut, read, sameText, sameMeaning sameText, spells⟩
  · rintro ⟨cut, read, rfl, rfl, spells⟩
    refine ⟨spells, fun other same => ?_⟩
    obtain ⟨longest, back, longestRead, _, goesOn, _⟩ := other.exists_readAs
    rw [same] at longestRead
    obtain ⟨rfl, rfl⟩ := longestRead.unique read
    exact goesOn.length_le

/-! ## Segmentations -/

/-- The segments that are read one after another, with the characters before them. -/
def Cut.passages : (before : List Char) → List Cut → List Passage
  | _, [] => []
  | before, cut :: rest =>
    ⟨before, cut.text, cut.meaning⟩ :: passages (before ++ cut.text) rest

theorem Cutting.unique
    {characters : List Char}
    {cuts others : List Cut}
    (left : Cutting characters cuts)
    (right : Cutting characters others) :
    cuts = others := by
  induction left generalizing others with
  | done =>
    cases right
    rfl
  | @step first passed rest segment cuts begins _ inductionHypothesis =>
    generalize whole : first :: (passed ++ rest) = characters at right
    cases right with
    | done => cases whole
    | @step otherFirst otherPassed otherRest otherSegment otherCuts otherBegins otherStep =>
      obtain ⟨rfl, same⟩ := List.cons.inj whole
      obtain ⟨rfl, rfl, rfl⟩ := begins.unique otherBegins same
      rw [inductionHypothesis otherStep]

/-- A source is segmented by the grammar as it is cut by the reader. -/
theorem segmentation_iff
    {before characters : List Char}
    {passages : List Passage} :
    Segmentation before characters passages ↔
      ∃ cuts, Cutting characters cuts ∧ passages = Cut.passages before cuts := by
  constructor
  · intro segmentation
    induction segmentation with
    | done => exact ⟨[], .done, rfl⟩
    | segment longest _ inductionHypothesis =>
      obtain ⟨⟨segment, text⟩, ⟨⟨first, passed, rfl, begins⟩, _⟩, rfl, rfl, _⟩ :=
        longest_iff.1 longest
      obtain ⟨cuts, cutting, rfl⟩ := inductionHypothesis
      exact ⟨_, .step begins cutting, rfl⟩
    | unexpected noSegment _ inductionHypothesis =>
      obtain ⟨⟨first, passed, shape, begins⟩, _⟩ := readFrom_stray noSegment
      obtain ⟨rfl, rfl⟩ := List.cons.inj shape
      obtain ⟨cuts, cutting, rfl⟩ := inductionHypothesis
      exact ⟨_, .step begins cutting, rfl⟩
  · rintro ⟨cuts, cutting, rfl⟩
    induction cutting generalizing before with
    | done => exact .done
    | @step first passed rest segment cuts begins _ inductionHypothesis =>
      have read : Cut.ReadFrom (first :: (passed ++ rest)) rest ⟨segment, first :: passed⟩ :=
        ⟨⟨first, passed, rfl, begins⟩, rfl⟩
      rcases read.spells_or_noSegment with spells | noSegment
      · exact .segment (longest_iff.2 ⟨_, read, rfl, rfl, spells⟩) inductionHypothesis
      · obtain ⟨same, rests⟩ := (readFrom_stray noSegment).unique read
        cases same
        exact .unexpected noSegment inductionHypothesis

/-! ## Tokens and errors -/

/-- A segment that is an error is no token. -/
theorem Segment.kind?_of_fault?_eq_some
    {segment : Segment}
    {fault : LexicalFault}
    (found : segment.fault? = some fault)
    (lexeme : String) :
    segment.kind? lexeme = .ok none := by
  cases segment with
  | openString => rfl
  | stray character => rfl
  | _ => cases found

namespace Cut

theorem token?_passage (before : List Char) (cut : Cut) :
    Passage.token? ⟨before, cut.text, cut.meaning⟩ = cut.token? (1 + before.count '\n') := by
  unfold Passage.token? meaning token?
  cases found : cut.segment.fault? with
  | some fault => rw [Segment.kind?_of_fault?_eq_some found]
  | none =>
    rcases cut.segment.kind? (String.ofList cut.text) with _ | _ | kind
    · rfl
    · rfl
    · rfl

theorem error?_passage (before : List Char) (cut : Cut) :
    Passage.error? ⟨before, cut.text, cut.meaning⟩ = cut.error? (1 + before.count '\n') := by
  unfold Passage.error? meaning error?
  cases cut.segment.fault? with
  | some fault =>
    simp only [Option.map_some, lineFeeds, List.count_append, Nat.add_assoc]
  | none =>
    rcases cut.segment.kind? (String.ofList cut.text) with _ | _ | kind
    · rfl
    · rfl
    · rfl

/-- The line after a segment is the one that the characters before and in it lead to. -/
private theorem line_append (before : List Char) (cut : Cut) :
    1 + (before ++ cut.text).count '\n' = 1 + before.count '\n' + cut.lineFeeds := by
  rw [List.count_append, lineFeeds, Nat.add_assoc]

theorem filterMap_token?_passages (before : List Char) (cuts : List Cut) :
    (passages before cuts).filterMap Passage.token? = tokensOf (1 + before.count '\n') cuts := by
  induction cuts generalizing before with
  | nil => rfl
  | cons cut rest inductionHypothesis =>
    rw [passages, List.filterMap_cons, token?_passage, inductionHypothesis, line_append, tokensOf]
    cases cut.token? (1 + before.count '\n') <;> rfl

theorem filterMap_error?_passages (before : List Char) (cuts : List Cut) :
    (passages before cuts).filterMap Passage.error? = errorsOf (1 + before.count '\n') cuts := by
  induction cuts generalizing before with
  | nil => rfl
  | cons cut rest inductionHypothesis =>
    rw [passages, List.filterMap_cons, error?_passage, inductionHypothesis, line_append, errorsOf]
    cases cut.error? (1 + before.count '\n') <;> rfl

end Cut

end Lox
