import Lox.Proofs.Token.LexicalGrammar
import Mathlib.Data.List.Forall2

/-!
Contract: blanks in place of unexpected characters.

Owns:
- texts of which one is the other with blanks in place of some characters;
- that the segments of such texts are the same where the characters begin no segment;
- a source with a blank for every character that is reported as unexpected: its tokens are those of
  the source, and of the errors only that of an open string is left.

Does not own: which characters are unexpected.
-/

namespace Lox

/-! ## Texts with blanks -/

/-- The character stays, or a blank stands in its place.  Line feeds and quotation marks stay. -/
inductive Blanked : Char → Char → Prop where
  | kept (character : Char) : Blanked character character
  | replaced {character : Char} :
    character ≠ '\n' → character ≠ '"' → Blanked character ' '

section Texts

variable {text other : List Char}

theorem Blanked.eq_of_ne_blank
    {character stays : Char}
    (blanked : Blanked character stays)
    (noBlank : stays ≠ ' ') :
    character = stays := by
  cases blanked with
  | kept => rfl
  | replaced => contradiction

theorem forall₂_blanked_refl (text : List Char) : List.Forall₂ Blanked text text :=
  List.forall₂_same.2 fun character _ => .kept character

/-- A text without blanks is one in which nothing was replaced. -/
theorem eq_of_forall₂_blanked
    (blanked : List.Forall₂ Blanked text other)
    (noBlank : ' ' ∉ other) :
    text = other := by
  induction blanked with
  | nil => rfl
  | cons first _ inductionHypothesis =>
    have firstDiffers := List.ne_of_not_mem_cons noBlank
    have othersDiffer := List.not_mem_of_not_mem_cons noBlank
    rw [first.eq_of_ne_blank (Ne.symm firstDiffers), inductionHypothesis othersDiffer]

/-- No line feed and no quotation mark is replaced. -/
theorem not_mem_of_forall₂_blanked
    {kept : Char}
    (blanked : List.Forall₂ Blanked text other)
    (isKept : kept = '\n' ∨ kept = '"')
    (absent : kept ∉ other) :
    kept ∉ text := by
  induction blanked with
  | nil => exact List.not_mem_nil
  | cons first _ inductionHypothesis =>
    have othersDiffer := List.not_mem_of_not_mem_cons absent
    refine List.not_mem_cons_of_ne_of_not_mem ?_ (inductionHypothesis othersDiffer)
    cases first with
    | kept => exact List.ne_of_not_mem_cons absent
    | replaced noLineFeed noQuote =>
      rcases isKept with rfl | rfl
      · exact Ne.symm noLineFeed
      · exact Ne.symm noQuote

theorem count_lineFeed_of_forall₂_blanked (blanked : List.Forall₂ Blanked text other) :
    other.count '\n' = text.count '\n' := by
  induction blanked with
  | nil => rfl
  | cons first _ inductionHypothesis =>
    cases first with
    | kept => rw [List.count_cons, List.count_cons, inductionHypothesis]
    | replaced noLineFeed _ =>
      rw [List.count_cons_of_ne (by decide), List.count_cons_of_ne noLineFeed,
        inductionHypothesis]

end Texts

/-! ## Segments of texts with blanks -/

theorem Numeral.not_mem_blank
    {text : List Char}
    {decimal : Number.Decimal}
    (numeral : Numeral text decimal) :
    ' ' ∉ text := by
  intro member
  rcases numeral.isDigit_or_eq_of_mem ' ' member with digit | point
  · contradiction
  · contradiction

/-- Where a text with blanks is a segment, the text without them is one too, if they have the same
first character. -/
theorem Spells.of_blanked
    {first : Char}
    {text other rest otherRest : List Char}
    {meaning : Meaning}
    (spells : Spells (first :: other) otherRest meaning)
    (blanked : List.Forall₂ Blanked text other)
    (sameEnd : otherRest = [] → rest = []) :
    ∃ original, Spells (first :: text) rest original := by
  -- Only comments and strings have blanks behind their first character.
  have unchanged (noBlank : ' ' ∉ first :: other) : first :: text = first :: other := by
    rw [eq_of_forall₂_blanked blanked (mt (List.mem_cons_of_mem first) noBlank)]
  generalize whole : first :: other = segment at spells
  cases spells with
  | blank isBlank =>
    obtain ⟨rfl, rfl⟩ := List.cons.inj whole
    cases blanked
    exact ⟨_, .blank isBlank⟩
  | @comment content _ oneLine =>
    obtain ⟨rfl, rfl⟩ := List.cons.inj whole
    cases blanked with
    | cons slash contents =>
      cases slash.eq_of_ne_blank (by decide)
      exact ⟨_, .comment (not_mem_of_forall₂_blanked contents (.inl rfl) oneLine)⟩
  | @string content _ noQuote =>
    obtain ⟨rfl, rfl⟩ := List.cons.inj whole
    have contents := List.forall₂_take_append _ _ _ blanked
    have quotes := List.forall₂_drop_append _ _ _ blanked
    rw [← List.take_append_drop content.length text]
    rw [eq_of_forall₂_blanked quotes (by decide)]
    exact ⟨_, .string (not_mem_of_forall₂_blanked contents (.inr rfl) noQuote)⟩
  | openString noQuote =>
    obtain ⟨rfl, rfl⟩ := List.cons.inj whole
    rw [sameEnd rfl]
    exact ⟨_, .openString (not_mem_of_forall₂_blanked blanked (.inr rfl) noQuote)⟩
  | number numeral =>
    rw [← whole] at numeral
    rw [unchanged numeral.not_mem_blank]
    exact ⟨_, .number numeral⟩
  | keyword word =>
    have noBlank : ' ' ∉ word.spelling.toList := by
      cases word <;> decide
    rw [unchanged (whole ▸ noBlank), whole]
    exact ⟨_, .keyword word⟩
  | @identifier start others _ starts continues noKeyword =>
    obtain ⟨rfl, rfl⟩ := List.cons.inj whole
    have noBlank : ' ' ∉ first :: other := by
      intro member
      rcases List.mem_cons.1 member with rfl | later
      · rw [startsWord_of_ascii (by decide)] at starts
        contradiction
      · have isBlank : isBlank ' ' = true := rfl
        have refused := (not_goesOn_of_isBlank isBlank).2.2.2.2.2
        rw [continues ' ' later] at refused
        contradiction
    rw [unchanged noBlank]
    exact ⟨_, .identifier starts continues noKeyword⟩
  | symbol mark =>
    have noBlank : ' ' ∉ mark.spelling.toList := by
      cases mark <;> decide
    rw [unchanged (whole ▸ noBlank), whole]
    exact ⟨_, .symbol mark⟩

/-- What a text spells depends on the rest only where the source ends. -/
theorem Spells.of_sameEnd
    {text rest otherRest : List Char}
    {meaning : Meaning}
    (spells : Spells text rest meaning)
    (sameEnd : rest = [] → otherRest = []) :
    Spells text otherRest meaning := by
  cases spells with
  | blank isBlank => exact .blank isBlank
  | comment oneLine => exact .comment oneLine
  | string noQuote => exact .string noQuote
  | openString noQuote =>
    rw [sameEnd rfl]
    exact .openString noQuote
  | number numeral => exact .number numeral
  | keyword word => exact .keyword word
  | identifier starts continues noKeyword => exact .identifier starts continues noKeyword
  | symbol mark => exact .symbol mark

/-- A segment is the longest one also in front of the rest with blanks. -/
theorem Longest.blanked
    {text rest otherRest : List Char}
    {meaning : Meaning}
    (longest : Longest text rest meaning)
    (blanked : List.Forall₂ Blanked rest otherRest) :
    Longest text otherRest meaning where
  spells := by
    refine longest.spells.of_sameEnd ?_
    rintro rfl
    exact List.forall₂_nil_left_iff.1 blanked
  noLonger := by
    intro found foundRest foundMeaning spells same
    obtain ⟨_, ⟨⟨first, passed, shape, _⟩, _⟩, sameText, _⟩ := longest_iff.1 longest
    obtain rfl : text = first :: passed := sameText.symm.trans shape
    cases found with
    | nil => exact Nat.zero_le _
    | cons foundFirst found =>
      obtain ⟨rfl, behind⟩ : foundFirst = first ∧ found ++ foundRest = passed ++ otherRest :=
        List.cons.inj same
      -- The text that was found stands for a text of the source, which is no longer.
      have whole : List.Forall₂ Blanked (passed ++ rest) (found ++ foundRest) := by
        have aligned := List.rel_append (forall₂_blanked_refl passed) blanked
        rwa [behind]
      have original := List.forall₂_take_append _ _ _ whole
      have originalRest := List.forall₂_drop_append _ _ _ whole
      have sameEnd : foundRest = [] → (passed ++ rest).drop found.length = [] := by
        rintro rfl
        exact List.forall₂_nil_right_iff.1 originalRest
      obtain ⟨_, originalSpells⟩ := spells.of_blanked original sameEnd
      have bounded := longest.noLonger originalSpells (by
        rw [List.cons_append, List.take_append_drop, List.cons_append])
      rwa [List.length_cons, original.length_eq] at bounded

/-! ## Segmentations of texts with blanks -/

/-- The text of the segment, or a blank if the segment is a character that is reported as
unexpected. -/
def Passage.blanked (passage : Passage) : List Char :=
  match passage.error? with
  | some ⟨.unexpectedCharacter _, _⟩ => [' ']
  | _ => passage.text

namespace Passage

variable {meaning : Meaning} {text before otherBefore : List Char}

theorem token?_of_sameLines (sameLines : otherBefore.count '\n' = before.count '\n') :
    token? ⟨otherBefore, text, meaning⟩ = token? ⟨before, text, meaning⟩ := by
  cases meaning <;> simp only [token?, sameLines]

theorem error?_of_sameLines (sameLines : otherBefore.count '\n' = before.count '\n') :
    error? ⟨otherBefore, text, meaning⟩ = error? ⟨before, text, meaning⟩ := by
  cases meaning <;> simp only [error?, List.count_append, sameLines]

theorem error?_unexpected (before : List Char) (character : Char) :
    error? ⟨before, [character], .fault (.unexpectedCharacter character)⟩ =
      some ⟨.unexpectedCharacter character, 1 + (before ++ [character]).count '\n'⟩ :=
  rfl

/-- The only error that a text of the grammar can be is a string without an end, which is the last
segment. -/
theorem error?_of_spells
    {rest : List Char}
    (before : List Char)
    (spells : Spells text rest meaning) :
    error? ⟨before, text, meaning⟩ = none ∨
      rest = [] ∧ ∃ line, error? ⟨before, text, meaning⟩ = some ⟨.unterminatedString, line⟩ := by
  cases spells with
  | openString noQuote => exact .inr ⟨rfl, _, rfl⟩
  | _ => exact .inl rfl

theorem blanked_of_spells
    {rest : List Char}
    (spells : Spells text rest meaning) :
    blanked ⟨before, text, meaning⟩ = text := by
  rcases error?_of_spells before spells with noError | ⟨_, line, isOpen⟩
  · rw [blanked, noError]
  · rw [blanked, isOpen]

end Passage

theorem ne_lineFeed_of_noSegment
    {character : Char}
    {rest : List Char}
    (noSegment : ∀ (text back : List Char) (meaning : Meaning),
      Spells text back meaning → text ++ back ≠ character :: rest) :
    character ≠ '\n' := by
  rintro rfl
  exact noSegment ['\n'] rest _ (.blank (by decide)) rfl

namespace Segmentation

variable {before characters : List Char} {passages : List Passage}

/-- Every source is a sequence of segments. -/
theorem exists_of_source (characters : List Char) :
    ∃ passages, Segmentation [] characters passages := by
  obtain ⟨cuts, cutting⟩ := exists_cutting characters
  exact ⟨_, segmentation_iff.2 ⟨cuts, cutting, rfl⟩⟩

/-- A source is only one sequence of segments. -/
theorem unique
    {others : List Passage}
    (left : Segmentation before characters passages)
    (right : Segmentation before characters others) :
    passages = others := by
  obtain ⟨cuts, cutting, rfl⟩ := segmentation_iff.1 left
  obtain ⟨otherCuts, otherCutting, rfl⟩ := segmentation_iff.1 right
  rw [cutting.unique otherCutting]

theorem lex_eq
    {source : String}
    (segmentation : Segmentation [] source.toList passages) :
    lex source =
      ⟨passages.filterMap Passage.token? ++ [Token.endAt (1 + source.toList.count '\n')],
        passages.filterMap Passage.error?⟩ := by
  obtain ⟨cuts, cutting, rfl⟩ := segmentation_iff.1 segmentation
  rw [cutting.lex_eq, Cut.filterMap_token?_passages, Cut.filterMap_error?_passages]
  rfl

/-- The segments with blanks are the source with blanks in place of some characters. -/
theorem forall₂_blanked (segmentation : Segmentation before characters passages) :
    List.Forall₂ Blanked characters (passages.flatMap Passage.blanked) := by
  induction segmentation with
  | done => exact .nil
  | segment longest _ inductionHypothesis =>
    rw [List.flatMap_cons, Passage.blanked_of_spells longest.spells]
    exact List.rel_append (forall₂_blanked_refl _) inductionHypothesis
  | unexpected noSegment _ inductionHypothesis =>
    exact .cons (.replaced (ne_lineFeed_of_noSegment noSegment)
      (ne_quote_of_noSegment noSegment)) inductionHypothesis

/-- The errors are about unexpected characters, and at most the last one is about a string without
an end. -/
theorem exists_errors_eq (segmentation : Segmentation before characters passages) :
    ∃ unexpected remaining : List LexicalError,
      passages.filterMap Passage.error? = unexpected ++ remaining ∧
        (∀ error ∈ unexpected, ∃ character, error.fault = .unexpectedCharacter character) ∧
        (∀ error ∈ remaining, error.fault = .unterminatedString) ∧ remaining.length ≤ 1 := by
  induction segmentation with
  | done => exact ⟨[], [], rfl, by simp, by simp, Nat.zero_le 1⟩
  | @segment before text rest meaning others longest next inductionHypothesis =>
    rcases Passage.error?_of_spells before longest.spells with noError | ⟨rfl, line, isOpen⟩
    · rw [List.filterMap_cons_none noError]
      exact inductionHypothesis
    · obtain rfl : others = [] := next.unique .done
      exact ⟨[], [⟨.unterminatedString, line⟩], List.filterMap_cons_some isOpen, by simp, by simp,
        Nat.le_refl 1⟩
  | @unexpected before rest character others noSegment _ inductionHypothesis =>
    obtain ⟨unexpected, remaining, errors, areUnexpected, areOpen, atMostOne⟩ :=
      inductionHypothesis
    rw [List.filterMap_cons_some (Passage.error?_unexpected before character), errors]
    exact ⟨_ :: unexpected, remaining, rfl,
      List.forall_mem_cons.2 ⟨⟨character, rfl⟩, areUnexpected⟩, areOpen, atMostOne⟩

/-- With blanks in place of the unexpected characters, a source has the same tokens, and only the
errors about strings without an end. -/
theorem exists_blanked
    (segmentation : Segmentation before characters passages)
    {otherBefore : List Char}
    (sameLines : otherBefore.count '\n' = before.count '\n') :
    ∃ others, Segmentation otherBefore (passages.flatMap Passage.blanked) others ∧
      others.filterMap Passage.token? = passages.filterMap Passage.token? ∧
      others.filterMap Passage.error? =
        (passages.filterMap Passage.error?).filter (·.fault = .unterminatedString) := by
  induction segmentation generalizing otherBefore with
  | done => exact ⟨[], .done, rfl, rfl⟩
  | @segment before text rest meaning others longest next inductionHypothesis =>
    have sameLinesBehind : (otherBefore ++ text).count '\n' = (before ++ text).count '\n' := by
      rw [List.count_append, List.count_append, sameLines]
    obtain ⟨blankedOthers, segmentation, tokens, errors⟩ := inductionHypothesis sameLinesBehind
    refine ⟨⟨otherBefore, text, meaning⟩ :: blankedOthers, ?_, ?_, ?_⟩
    · rw [List.flatMap_cons, Passage.blanked_of_spells longest.spells]
      exact .segment (longest.blanked next.forall₂_blanked) segmentation
    · rw [List.filterMap_cons, List.filterMap_cons, Passage.token?_of_sameLines sameLines, tokens]
    · have sameError : Passage.error? ⟨otherBefore, text, meaning⟩ =
          Passage.error? ⟨before, text, meaning⟩ := Passage.error?_of_sameLines sameLines
      rcases Passage.error?_of_spells before longest.spells with noError | ⟨_, line, isOpen⟩
      · rw [List.filterMap_cons_none (sameError.trans noError),
          List.filterMap_cons_none noError, errors]
      · rw [List.filterMap_cons_some (sameError.trans isOpen),
          List.filterMap_cons_some isOpen, errors]
        rfl
  | @unexpected before rest character others noSegment next inductionHypothesis =>
    have sameLinesBehind :
        (otherBefore ++ [' ']).count '\n' = (before ++ [character]).count '\n' := by
      rw [List.count_append, List.count_append, sameLines]
      simp [ne_lineFeed_of_noSegment noSegment]
    obtain ⟨blankedOthers, segmentation, tokens, errors⟩ := inductionHypothesis sameLinesBehind
    refine ⟨⟨otherBefore, [' '], .separator⟩ :: blankedOthers, ?_, ?_, ?_⟩
    · have blank : Longest [' '] (others.flatMap Passage.blanked) .separator :=
        longest_iff.2 ⟨⟨.blank, [' ']⟩, ⟨⟨' ', [], rfl, Segment.begins_blank (by decide) _⟩, rfl⟩,
          rfl, rfl, .blank (by decide)⟩
      exact .segment blank segmentation
    · rw [List.filterMap_cons_none rfl, List.filterMap_cons_none rfl, tokens]
    · rw [List.filterMap_cons_none rfl,
        List.filterMap_cons_some (Passage.error?_unexpected before character), errors]
      rfl

end Segmentation

/-! ## Sources with blanks -/

/-- A source is a sequence of segments, and of only one; its errors are those of the segments.  They
are about unexpected characters, and at most the last one is about a string without an end.  With a
blank in place of each character that is reported as unexpected, and nothing else changed, the
source has the same tokens on the same lines, and only that last error is left. -/
theorem lex_strays_blanked (source : String) :
    ∃ passages : List Passage,
      (∀ others, Segmentation [] source.toList others ↔ others = passages) ∧
        (lex source).errors = passages.filterMap Passage.error? ∧
        ∃ unexpected remaining : List LexicalError,
          (lex source).errors = unexpected ++ remaining ∧
            (∀ error ∈ unexpected, ∃ character, error.fault = .unexpectedCharacter character) ∧
            (∀ error ∈ remaining, error.fault = .unterminatedString) ∧
            remaining.length ≤ 1 ∧
            lex (String.ofList (passages.flatMap Passage.blanked)) =
              ⟨(lex source).tokens, remaining⟩ := by
  obtain ⟨passages, segmentation⟩ := Segmentation.exists_of_source source.toList
  obtain ⟨unexpected, remaining, errors, areUnexpected, areOpen, atMostOne⟩ :=
    segmentation.exists_errors_eq
  obtain ⟨others, blanked, sameTokens, openErrors⟩ := segmentation.exists_blanked rfl
  rw [← String.toList_ofList (l := passages.flatMap Passage.blanked)] at blanked
  have kept : (unexpected ++ remaining).filter (·.fault = .unterminatedString) = remaining := by
    have noneKept : unexpected.filter (·.fault = .unterminatedString) = [] := by
      refine List.filter_eq_nil_iff.2 fun error member => ?_
      obtain ⟨character, fault⟩ := areUnexpected error member
      simp [fault]
    have allKept : remaining.filter (·.fault = .unterminatedString) = remaining :=
      List.filter_eq_self.2 fun error member => decide_eq_true (areOpen error member)
    rw [List.filter_append, noneKept, allKept, List.nil_append]
  have sameLines := count_lineFeed_of_forall₂_blanked segmentation.forall₂_blanked
  have reported : (lex source).errors = passages.filterMap Passage.error? := by
    rw [segmentation.lex_eq]
  refine ⟨passages, fun others => ⟨fun other => other.unique segmentation, ?_⟩, reported,
    unexpected, remaining, reported.trans errors, areUnexpected, areOpen, atMostOne, ?_⟩
  · rintro rfl
    exact segmentation
  · rw [blanked.lex_eq, segmentation.lex_eq, String.toList_ofList, sameTokens, openErrors, errors,
      kept, sameLines]

end Lox
