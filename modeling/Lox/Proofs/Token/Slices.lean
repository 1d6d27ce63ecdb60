import Lox.Proofs.Token.LexicalGrammar

/-!
Contract: the texts between byte offsets that are cut out of a source.

Owns:
- the text between two byte offsets, which have to be between characters and in order;
- cutting a source with every text taken between byte offsets, and a check before each of them;
- that no check ever fails, so that this is the cutting of the source.

Does not own: which segments there are.
-/

namespace Lox

/-! ## Texts between offsets -/

theorem fromUTF8?_toUTF8 (text : String) : String.fromUTF8? text.toUTF8 = some text := by
  rw [String.fromUTF8?, String.toUTF8_eq_toByteArray, dif_pos text.isValidUTF8]
  rfl

/-- The text between two byte offsets.  There is none if the second is before the first, if one of
them is beyond the end, or if one of them is inside a character. -/
def sliceBetween? (text : String) (start stop : Nat) : Option String :=
  if start ≤ stop ∧ String.Pos.Raw.IsValid text ⟨start⟩ ∧ String.Pos.Raw.IsValid text ⟨stop⟩ then
    String.fromUTF8? (text.toUTF8.extract start stop)
  else none

theorem utf8ByteSize_ofList (characters : List Char) :
    (String.ofList characters).utf8ByteSize = utf8Length characters := by
  induction characters with
  | nil => rfl
  | cons first rest inductionHypothesis =>
    rw [← List.singleton_append, String.ofList_append, String.utf8ByteSize_append,
      inductionHypothesis]
    simp

theorem isValid_utf8Length (before after : List Char) :
    String.Pos.Raw.IsValid (String.ofList (before ++ after)) ⟨utf8Length before⟩ :=
  String.Pos.Raw.isValid_iff_exists_append.2
    ⟨String.ofList before, String.ofList after, String.ofList_append,
      String.Pos.Raw.ext (utf8ByteSize_ofList before).symm⟩

/-- What stands between two offsets is the text between them. -/
theorem sliceBetween?_eq (before middle after : List Char) :
    sliceBetween? (String.ofList (before ++ middle ++ after)) (utf8Length before)
        (utf8Length before + utf8Length middle) =
      some (String.ofList middle) := by
  have startValid := isValid_utf8Length before (middle ++ after)
  have stopValid := isValid_utf8Length (before ++ middle) after
  rw [← List.append_assoc] at startValid
  rw [utf8Length_append] at stopValid
  rw [sliceBetween?, if_pos ⟨Nat.le_add_right _ _, startValid, stopValid⟩]
  have size (characters : List Char) :
      utf8Length characters = (String.ofList characters).toByteArray.size := by
    rw [String.size_toByteArray, utf8ByteSize_ofList]
  have bytes : (String.ofList (before ++ middle ++ after)).toUTF8.extract (utf8Length before)
      (utf8Length before + utf8Length middle) = (String.ofList middle).toUTF8 := by
    rw [String.toUTF8_eq_toByteArray, List.append_assoc, String.ofList_append,
      String.toByteArray_append]
    calc
      _ = (String.ofList (middle ++ after)).toByteArray.extract 0 (utf8Length middle) :=
        ByteArray.extract_append_size_add' (size before)
      _ = (String.ofList middle).toByteArray := by
        rw [String.ofList_append, String.toByteArray_append]
        exact ByteArray.extract_append_eq_left (size middle)
  rw [bytes, fromUTF8?_toUTF8]

-- The second letter has two bytes, and there is no text that ends between them.
example : sliceBetween? "aé" 1 3 = some "é" ∧ sliceBetween? "aé" 1 2 = none := by decide

/-! ## Cutting with checks -/

namespace Segment

/-- The kind of the token that the segment with that text is.  The quotation marks are cut off a
string by offsets. -/
def checkedKind? (segment : Segment) (lexeme : String) : Option (Option TokenKind) :=
  match segment with
  | .string =>
    (sliceBetween? lexeme 1 (lexeme.utf8ByteSize - 1)).map fun content => some (.string content)
  | _ => (segment.kind? lexeme).toOption

end Segment

namespace Lexed

/-- The text from one cursor to another, which has to be on the same source. -/
def checkedSlice? (start stop : Cursor) : Option String :=
  if start.source = stop.source then
    sliceBetween? start.source.text start.offset stop.offset
  else none

/-- The token of the segment between two cursors, if it is one. -/
def checkedToken? (segment : Segment) (start stop : Cursor) : Option (Option Token) :=
  (checkedSlice? start stop).bind fun lexeme =>
    (segment.checkedKind? lexeme).map fun kind => kind.map fun kind => ⟨kind, lexeme, start.line⟩

/-- Cuts what is left of a source as `cutFrom` does.  There is no result if a check fails. -/
def checkedFrom (start : Cursor) (tokens : List Token) (errors : List LexicalError) :
    Option Lexed :=
  match _ : start.next with
  | (none, _) => some ⟨(Token.endAt start.line :: tokens).reverse, errors.reverse⟩
  | (some first, inside) =>
    match _ : Segment.read first inside with
    | (segment, stop) =>
      match checkedToken? segment start stop with
      | none => none
      | some token =>
        checkedFrom stop (token.toList ++ tokens)
          ((segment.fault?.map fun fault => ⟨fault, stop.line⟩).toList ++ errors)
termination_by start.rest.length
decreasing_by exact length_rest_lt ‹_› ‹_›

/-- The whole of a source text, with checks. -/
def checkedCut (text : String) : Option Lexed :=
  checkedFrom (.start ⟨0, text⟩) [] []

/-! ## No check fails -/

/-- The cursor is in the text, at the offset of the first character that it has not read. -/
structure InText (text : String) (cursor : Cursor) : Prop where
  source_eq : cursor.source = ⟨0, text⟩
  split : ∃ before, text.toList = before ++ cursor.rest ∧ cursor.offset = utf8Length before

namespace InText

theorem start (text : String) : InText text (.start ⟨0, text⟩) :=
  ⟨rfl, [], rfl, rfl⟩

/-- A cursor that is reached is in the text, and what was read is between the offsets. -/
theorem reached
    {text : String}
    {start stop : Cursor}
    {passed : List Char}
    (inText : InText text start)
    (reaches : start.Reaches passed stop) :
    InText text stop ∧ checkedSlice? start stop = some (String.ofList passed) := by
  obtain ⟨source, before, whole, offset⟩ := inText
  obtain ⟨restEq, stopEq⟩ := reaches
  have sameSource : stop.source = start.source := by rw [stopEq]; rfl
  have stopOffset : stop.offset = utf8Length before + utf8Length passed := by
    rw [stopEq, ← offset]
    rfl
  have split : text.toList = before ++ passed ++ stop.rest := by
    rw [whole, restEq, List.append_assoc]
  refine ⟨⟨sameSource.trans source, before ++ passed, split, ?_⟩, ?_⟩
  · rw [stopOffset, utf8Length_append]
  · have between := sliceBetween?_eq before passed stop.rest
    rw [← split, String.ofList_toList] at between
    rw [checkedSlice?, if_pos sameSource.symm, source, offset, stopOffset]
    exact between

end InText

end Lexed

/-- The quotation marks are at the ends of a string, and a segment of any other class has a kind. -/
theorem Segment.checkedKind?_eq
    {first : Char}
    {passed : List Char}
    (segment : Segment)
    (form : Form first passed segment) :
    segment.checkedKind? (String.ofList (first :: passed)) =
      (segment.kind? (String.ofList (first :: passed))).toOption := by
  cases segment with
  | string =>
    obtain ⟨rfl, content, rfl, _⟩ := form
    have between := sliceBetween?_eq ['"'] content ['"']
    have quote : utf8Length ['"'] = 1 := by decide
    have size : (String.ofList ('"' :: (content ++ ['"']))).utf8ByteSize - 1 =
        1 + utf8Length content := by
      rw [utf8ByteSize_ofList, utf8Length_cons, utf8Length_append, quote]
      exact Nat.add_sub_cancel _ 1
    rw [quote] at between
    rw [checkedKind?, size]
    rw [List.append_assoc, List.singleton_append] at between
    rw [between]
    simp [kind?, unquoted?, Except.toOption]
  | _ => rfl

namespace Lexed

theorem checkedToken?_eq
    {text : String}
    {start inside : Cursor}
    {first : Char}
    (inText : InText text start)
    (read : start.next = (some first, inside)) :
    checkedToken? (Segment.read first inside).1 start (Segment.read first inside).2 =
      (tokenBetween? (Segment.read first inside).1 start
        (Segment.read first inside).2).toOption := by
  obtain ⟨passed, reaches, form⟩ := Segment.read_form first inside
  have whole := (Cursor.reaches_next read).trans reaches
  rw [checkedToken?, (inText.reached whole).2, tokenBetween?, whole.slice_eq]
  rw [List.singleton_append, Option.bind_some, Segment.checkedKind?_eq _ form]
  dsimp only
  cases (Segment.read first inside).1.kind? (String.ofList (first :: passed)) <;> rfl

theorem checkedFrom_eq
    {text : String}
    {start : Cursor}
    (inText : InText text start)
    (tokens : List Token)
    (errors : List LexicalError) :
    checkedFrom start tokens errors = (cutFrom start tokens errors).toOption := by
  fun_induction cutFrom start tokens errors with
  | case1 start tokens errors cursor ended =>
    rw [checkedFrom]
    split
    · rfl
    · rename_i read
      rw [ended] at read
      cases read
  | case2 start tokens errors first inside read segment stop cut fault broken =>
    obtain ⟨token, found⟩ := exists_tokenBetween read
    rw [cut, broken] at found
    cases found
  | case3 start tokens errors first inside read segment stop cut token found inductionHypothesis =>
    have passed := checkedToken?_eq inText read
    rw [cut, found] at passed
    obtain ⟨characters, reaches, _⟩ := Segment.read_form first inside
    rw [cut] at reaches
    have next := (inText.reached ((Cursor.reaches_next read).trans reaches)).1
    rw [checkedFrom]
    split
    · rename_i ended
      rw [read] at ended
      cases ended
    · rename_i again
      rw [read] at again
      cases again
      split
      rename_i cutAgain
      rw [cut] at cutAgain
      cases cutAgain
      rw [passed]
      exact inductionHypothesis next

/-- Cutting with checks is cutting, and no check fails. -/
theorem checkedCut_eq (text : String) : checkedCut text = some (lex text) := by
  have cut := cut_eq_ok_lex text
  rw [Lexed.cut] at cut
  rw [checkedCut, checkedFrom_eq (.start text), cut]
  rfl

end Lexed

end Lox
