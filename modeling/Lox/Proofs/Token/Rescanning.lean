import Lox.Proofs.Token.LexicalGrammar

/-!
Contract: texts of tokens that are scanned again.

Owns:
- that the text of a token is read as that token before a blank and at the end of a source, and
  stands for only one kind of token, also across sources;
- separators, and tokens of any sources written one after another with separators between them;
- that scanning what is written so gives the tokens back, each on its line.

Does not own: texts that stand next to each other without a separator.
-/

namespace Lox

/-! ## The text of a token -/

/-- What spells a token does so whatever follows. -/
private theorem Spells.before
    {text rest : List Char}
    {kind : TokenKind}
    (spells : Spells text rest (.token kind))
    (tail : List Char) :
    Spells text tail (.token kind) := by
  cases spells with
  | string noQuote => exact .string noQuote
  | number numeral => exact .number numeral
  | keyword word => exact .keyword word
  | identifier starts continues noKeyword => exact .identifier starts continues noKeyword
  | symbol mark => exact .symbol mark

/-- In front of a blank, and at the end, no token goes on after its text. -/
private theorem Spells.exists_readFrom
    {text rest tail : List Char}
    {kind : TokenKind}
    (spells : Spells text rest (.token kind))
    (blank : ∀ next ∈ tail.head?, isBlank next = true) :
    ∃ segment, Cut.ReadFrom (text ++ tail) tail ⟨segment, text⟩ := by
  have noDigit : ∀ next ∈ tail.head?, next.isDigit = false := fun next found =>
    (not_goesOn_of_isBlank (blank next found)).2.2.2.2.1
  have noWord : ∀ next ∈ tail.head?, continuesWord next = false := fun next found =>
    (not_goesOn_of_isBlank (blank next found)).2.2.2.2.2
  have noSlash : tail.head? ≠ some '/' := fun found =>
    (not_goesOn_of_isBlank (blank '/' found)).2.1 rfl
  have noEqual : tail.head? ≠ some '=' := fun found =>
    (not_goesOn_of_isBlank (blank '=' found)).2.2.1 rfl
  cases spells with
  | string noQuote =>
    exact ⟨.string, ⟨_, _, rfl, Segment.begins_string noQuote tail⟩, rfl⟩
  | number numeral =>
    cases numeral with
    | whole nonempty areDigits =>
      obtain ⟨first, passed, rfl⟩ := List.exists_cons_of_ne_nil nonempty
      have noPoint : ∀ next others, tail = '.' :: next :: others → next.isDigit = false := by
        rintro next others rfl
        exact absurd rfl (not_goesOn_of_isBlank (blank '.' rfl)).2.2.2.1
      exact ⟨.number, ⟨_, _, rfl, Segment.begins_wholeNumber (areDigits first List.mem_cons_self)
        (fun digit member => areDigits digit (List.mem_cons_of_mem first member))
        noDigit noPoint⟩, rfl⟩
    | point wholeNonempty wholeDigits fractionNonempty fractionDigits =>
      obtain ⟨first, passed, rfl⟩ := List.exists_cons_of_ne_nil wholeNonempty
      exact ⟨.number, ⟨_, _, rfl, Segment.begins_pointNumber
        (wholeDigits first List.mem_cons_self)
        (fun digit member => wholeDigits digit (List.mem_cons_of_mem first member))
        fractionNonempty fractionDigits noDigit⟩, rfl⟩
  | keyword word =>
    obtain ⟨first, others, spelling, starts, continues⟩ := word.spelling_isWord
    rw [spelling]
    exact ⟨.word, ⟨_, _, rfl, Segment.begins_word starts continues noWord⟩, rfl⟩
  | identifier starts continues noKeyword =>
    exact ⟨.word, ⟨_, _, rfl, Segment.begins_word starts continues noWord⟩, rfl⟩
  | symbol mark =>
    rcases mark.spelling_cases with ⟨first, spelling, found⟩ |
      ⟨first, shorter, spelling, found, longer⟩
    · rw [spelling]
      by_cases slash : first = '/'
      · subst slash
        exact ⟨.symbol .slash, ⟨_, _, rfl, Segment.begins_slash noSlash⟩, rfl⟩
      · exact ⟨.symbol mark, ⟨_, _, rfl, Segment.begins_symbol found slash (.inr noEqual)⟩, rfl⟩
    · rw [spelling]
      exact ⟨.symbol mark, ⟨_, _, rfl, Segment.begins_longerSymbol found longer tail⟩, rfl⟩

/-- The text of a token is read as that token in front of a blank and at the end. -/
theorem Spells.exists_read_token
    {text rest tail : List Char}
    {kind : TokenKind}
    (spells : Spells text rest (.token kind))
    (blank : ∀ next ∈ tail.head?, isBlank next = true) :
    ∃ segment, Cut.ReadFrom (text ++ tail) tail ⟨segment, text⟩ ∧
      Cut.meaning ⟨segment, text⟩ = .token kind := by
  obtain ⟨segment, read⟩ := spells.exists_readFrom blank
  obtain ⟨longest, back, longestRead, _, _, sameMeaning⟩ := (spells.before tail).exists_readAs
  obtain ⟨rfl, rfl⟩ := longestRead.unique read
  exact ⟨segment, read, sameMeaning rfl⟩

private theorem blank_atEnd : ∀ next ∈ ([] : List Char).head?, isBlank next = true :=
  fun _ found => nomatch found

/-- A text is that of only one kind of token, with only one payload. -/
theorem Spells.kind_unique
    {text rest otherRest : List Char}
    {kind other : TokenKind}
    (spells : Spells text rest (.token kind))
    (otherSpells : Spells text otherRest (.token other)) :
    kind = other := by
  obtain ⟨segment, read, meaning⟩ := spells.exists_read_token blank_atEnd
  obtain ⟨otherSegment, otherRead, otherMeaning⟩ := otherSpells.exists_read_token blank_atEnd
  obtain ⟨same, _⟩ := read.unique otherRead
  rw [same, otherMeaning] at meaning
  exact (Meaning.token.inj meaning).symm

/-! ## Tokens of sources -/

theorem Cut.meaning_of_token?
    {cut : Cut}
    {line : Nat}
    {token : Token}
    (found : cut.token? line = some token) :
    cut.meaning = .token token.kind ∧ token.lexeme = String.ofList cut.text ∧
      token.line = line := by
  unfold token? at found
  split at found
  · rename_i kind known
    cases found
    have noFault : cut.segment.fault? = none := by
      refine Option.eq_none_iff_forall_ne_some.2 fun fault isFault => ?_
      rw [Segment.kind?_of_fault?_eq_some isFault] at known
      cases known
    exact ⟨meaning_of_kind? noFault known, rfl, rfl⟩
  · cases found

theorem Cut.token?_of_meaning
    {cut : Cut}
    {kind : TokenKind}
    (meaning : cut.meaning = .token kind)
    (line : Nat) :
    cut.token? line = some ⟨kind, String.ofList cut.text, line⟩ ∧ cut.segment.fault? = none := by
  unfold Cut.meaning at meaning
  split at meaning
  · cases meaning
  · rename_i noFault
    split at meaning
    · rename_i known
      cases meaning
      exact ⟨by rw [token?, known], noFault⟩
    · cases meaning

theorem exists_cut_of_mem_tokensOf
    {line : Nat}
    {cuts : List Cut}
    {token : Token}
    (member : token ∈ tokensOf line cuts) :
    ∃ cut ∈ cuts, ∃ begun, cut.token? begun = some token := by
  induction cuts generalizing line with
  | nil => cases member
  | cons cut rest inductionHypothesis =>
    rcases List.mem_append.1 member with here | later
    · exact ⟨cut, List.mem_cons_self, line, Option.mem_toList.1 here⟩
    · obtain ⟨found, inRest, begun⟩ := inductionHypothesis later
      exact ⟨found, List.mem_cons_of_mem cut inRest, begun⟩

theorem Cutting.exists_readFrom
    {characters : List Char}
    {cuts : List Cut}
    {cut : Cut}
    (cutting : Cutting characters cuts)
    (member : cut ∈ cuts) :
    ∃ rest, cut.ReadFrom (cut.text ++ rest) rest := by
  induction cutting with
  | done => cases member
  | @step first passed rest segment cuts begins _ inductionHypothesis =>
    rcases List.mem_cons.1 member with rfl | later
    · exact ⟨rest, ⟨first, passed, rfl, begins⟩, rfl⟩
    · exact inductionHypothesis later

/-- The token is one of a source, and not the end of it. -/
def Token.Scanned (token : Token) : Prop :=
  token.isEnd = false ∧ ∃ source, token ∈ (lex source).tokens

/-- A token of a source is spelled by its text. -/
theorem Token.Scanned.spells {token : Token} (scanned : token.Scanned) :
    ∃ rest, Spells token.lexeme.toList rest (.token token.kind) := by
  obtain ⟨noEnd, source, member⟩ := scanned
  obtain ⟨cuts, cutting⟩ := exists_cutting source.toList
  rw [cutting.lex_eq] at member
  rcases List.mem_append.1 member with inside | atEnd
  · obtain ⟨cut, inCuts, line, found⟩ := exists_cut_of_mem_tokensOf inside
    obtain ⟨meaning, lexeme, _⟩ := Cut.meaning_of_token? found
    obtain ⟨rest, read⟩ := cutting.exists_readFrom inCuts
    rcases read.spells_or_noSegment with spells | noSegment
    · refine ⟨rest, ?_⟩
      rwa [lexeme, String.toList_ofList, ← meaning]
    · -- A stray character is no token.
      obtain ⟨first, passed, text, _⟩ := read.begins
      rw [text, List.cons_append] at noSegment read
      obtain ⟨rfl, _⟩ := (readFrom_stray noSegment).unique read
      cases meaning
  · rw [List.mem_singleton.1 atEnd] at noEnd
    cases noEnd

theorem lexeme_of_isEnd
    {source : String}
    {token : Token}
    (member : token ∈ (lex source).tokens)
    (isEnd : token.isEnd = true) :
    token.lexeme = "" := by
  obtain ⟨cuts, cutting⟩ := exists_cutting source.toList
  rw [cutting.lex_eq] at member
  rcases List.mem_append.1 member with inside | atEnd
  · rw [isEnd_eq_false_of_mem_tokensOf inside] at isEnd
    cases isEnd
  · rw [List.mem_singleton.1 atEnd]
    rfl

theorem Token.Scanned.lexeme_ne_empty {token : Token} (scanned : token.Scanned) :
    token.lexeme ≠ "" := by
  obtain ⟨rest, spells⟩ := scanned.spells
  obtain ⟨segment, ⟨⟨first, passed, text, _⟩, _⟩⟩ := spells.exists_readFrom blank_atEnd
  intro isEmpty
  rw [isEmpty] at text
  cases text

/-- Tokens of sources with the same text are of the same kind, with the same payload. -/
theorem kind_eq_of_lexeme_eq
    {source otherSource : String}
    {token other : Token}
    (member : token ∈ (lex source).tokens)
    (otherMember : other ∈ (lex otherSource).tokens)
    (same : token.lexeme = other.lexeme) :
    token.kind = other.kind := by
  cases ended : token.isEnd with
  | true =>
    cases otherEnded : other.isEnd with
    | true => exact (of_decide_eq_true ended).trans (of_decide_eq_true otherEnded).symm
    | false =>
      have scanned : other.Scanned := ⟨otherEnded, otherSource, otherMember⟩
      exact absurd (same.symm.trans (lexeme_of_isEnd member ended)) scanned.lexeme_ne_empty
  | false =>
    have scanned : token.Scanned := ⟨ended, source, member⟩
    cases otherEnded : other.isEnd with
    | true =>
      exact absurd (same.trans (lexeme_of_isEnd otherMember otherEnded)) scanned.lexeme_ne_empty
    | false =>
      have otherScanned : other.Scanned := ⟨otherEnded, otherSource, otherMember⟩
      obtain ⟨_, spells⟩ := scanned.spells
      obtain ⟨_, otherSpells⟩ := otherScanned.spells
      rw [← same] at otherSpells
      exact spells.kind_unique otherSpells

/-! ## Separators -/

/-- Blanks, and comments with the line feeds that end them, in any number and order. -/
inductive Spacing : List Char → Prop where
  | done : Spacing []
  | blank
    {character : Char}
    {rest : List Char}
    (isBlank : character ∈ [' ', '\r', '\t', '\n'])
    (others : Spacing rest) :
    Spacing (character :: rest)
  | comment
    {content rest : List Char}
    (oneLine : '\n' ∉ content)
    (others : Spacing rest) :
    Spacing ('/' :: '/' :: (content ++ '\n' :: rest))

/-- Spacing that begins with a blank. -/
structure Separator (text : List Char) : Prop where
  spacing : Spacing text
  beginsBlank : ∃ first ∈ text.head?, isBlank first = true

/-- Spacing is cut into blanks and comments. -/
theorem Spacing.exists_cutting
    {text rest : List Char}
    {restCuts : List Cut}
    (spacing : Spacing text)
    (restCutting : Cutting rest restCuts) :
    ∃ cuts : List Cut, Cutting (text ++ rest) (cuts ++ restCuts) ∧ cuts.flatMap Cut.text = text ∧
      ∀ cut ∈ cuts, cut.segment = .blank ∨ cut.segment = .comment := by
  induction spacing with
  | done => exact ⟨[], restCutting, rfl, fun cut member => nomatch member⟩
  | @blank character others isBlank _ inductionHypothesis =>
    obtain ⟨cuts, cutting, texts, areSpacing⟩ := inductionHypothesis
    refine ⟨⟨.blank, [character]⟩ :: cuts, .step (Segment.begins_blank isBlank _) cutting, ?_, ?_⟩
    · rw [List.flatMap_cons, texts]
      rfl
    · exact List.forall_mem_cons.2 ⟨.inl rfl, areSpacing⟩
  | @comment content others oneLine _ inductionHypothesis =>
    obtain ⟨cuts, cutting, texts, areSpacing⟩ := inductionHypothesis
    have ended : Cutting ('\n' :: (others ++ rest)) (⟨.blank, ['\n']⟩ :: (cuts ++ restCuts)) :=
      .step (Segment.begins_lineFeed _) cutting
    have commented : Segment.comment.Begins '/' ('/' :: content) ('\n' :: (others ++ rest)) := by
      refine Segment.begins_comment oneLine fun next found => ?_
      cases found
      rfl
    have whole := Cutting.step commented ended
    refine ⟨⟨.comment, '/' :: '/' :: content⟩ :: ⟨.blank, ['\n']⟩ :: cuts, ?_, ?_, ?_⟩
    · simpa using whole
    · simp [texts]
    · exact List.forall_mem_cons.2 ⟨.inr rfl, List.forall_mem_cons.2 ⟨.inl rfl, areSpacing⟩⟩

theorem tokensOf_eq_nil_of_spacing
    {cuts : List Cut}
    (areSpacing : ∀ cut ∈ cuts, cut.segment = .blank ∨ cut.segment = .comment)
    (line : Nat) :
    tokensOf line cuts = [] := by
  induction cuts generalizing line with
  | nil => rfl
  | cons cut rest inductionHypothesis =>
    obtain ⟨here, later⟩ := List.forall_mem_cons.1 areSpacing
    have noToken : cut.token? line = none := by
      rcases here with isBlank | isComment
      · simp [Cut.token?, isBlank, Segment.kind?]
      · simp [Cut.token?, isComment, Segment.kind?]
    rw [tokensOf, noToken, inductionHypothesis later]
    rfl

/-! ## Joined tokens -/

/-- The texts of the tokens, each with the next separator behind it as long as there are
separators. -/
def joined : List Token → List (List Char) → List Char
  | [], _ => []
  | token :: _, [] => token.lexeme.toList
  | token :: rest, separator :: others => token.lexeme.toList ++ separator ++ joined rest others

/-- The tokens on the lines where their texts begin if the first of them begins on the line. -/
def placed (line : Nat) (tokens : List Token) (separators : List (List Char)) : List Token :=
  tokens.mapIdx fun index token =>
    { token with
      line := line + (joined (tokens.take index) (separators.take index)).count '\n' }

private theorem placed_cons
    (line : Nat)
    (token : Token)
    (tokens : List Token)
    (separator : List Char)
    (separators : List (List Char)) :
    placed line (token :: tokens) (separator :: separators) =
      { token with line := line } ::
        placed (line + token.lexeme.toList.count '\n' + separator.count '\n') tokens
          separators := by
  simp only [placed, List.mapIdx_cons, List.take_zero, List.take_succ_cons, joined,
    List.count_nil, List.count_append, Nat.add_zero, Nat.add_assoc]

/-- Joined tokens are cut into the tokens and the spacing between them. -/
theorem exists_cutting_joined
    {tokens : List Token}
    {separators : List (List Char)}
    (scanned : ∀ token ∈ tokens, token.Scanned)
    (separate : ∀ separator ∈ separators, Separator separator)
    (between : separators.length = tokens.length - 1) :
    ∃ cuts, Cutting (joined tokens separators) cuts ∧
      (∀ cut ∈ cuts, cut.segment.fault? = none) ∧
      ∀ line, tokensOf line cuts = placed line tokens separators := by
  induction tokens generalizing separators with
  | nil => exact ⟨[], .done, fun cut member => (nomatch member), fun line => rfl⟩
  | cons token rest inductionHypothesis =>
    obtain ⟨tokenScanned, restScanned⟩ := List.forall_mem_cons.1 scanned
    obtain ⟨_, spells⟩ := tokenScanned.spells
    cases separators with
    | nil =>
      have last : rest = [] := List.eq_nil_of_length_eq_zero (by simpa using between.symm)
      subst last
      obtain ⟨segment, ⟨⟨first, passed, text, begins⟩, _⟩, meaning⟩ :=
        spells.exists_read_token blank_atEnd
      have cutting : Cutting (first :: (passed ++ [])) [⟨segment, first :: passed⟩] :=
        .step begins .done
      dsimp only at text
      rw [← List.cons_append, ← text, List.append_nil] at cutting
      refine ⟨_, cutting, fun cut member => ?_, fun line => ?_⟩
      · rw [List.mem_singleton.1 member]
        exact (Cut.token?_of_meaning meaning 0).2
      · simp [tokensOf, placed, joined, (Cut.token?_of_meaning meaning line).1]
    | cons separator others =>
      obtain ⟨⟨spacing, blank, isFirst, isBlank⟩, othersSeparate⟩ :=
        List.forall_mem_cons.1 separate
      obtain ⟨restCuts, restCutting, restSound, restTokens⟩ :=
        inductionHypothesis restScanned othersSeparate (by simp at between; omega)
      obtain ⟨spacingCuts, spacingCutting, spacingTexts, areSpacing⟩ :=
        spacing.exists_cutting restCutting
      have separated : ∀ next ∈ (separator ++ joined rest others).head?, Lox.isBlank next = true := by
        intro next found
        rw [List.head?_append, Option.mem_def.1 isFirst] at found
        cases found
        exact isBlank
      obtain ⟨segment, ⟨⟨first, passed, text, begins⟩, _⟩, meaning⟩ :=
        spells.exists_read_token separated
      have cutting := Cutting.step begins spacingCutting
      dsimp only at text
      rw [← List.cons_append, ← text, ← List.append_assoc] at cutting
      refine ⟨_, cutting, ?_, fun line => ?_⟩
      · refine List.forall_mem_cons.2 ⟨(Cut.token?_of_meaning meaning 0).2, fun cut member => ?_⟩
        rcases List.mem_append.1 member with inSpacing | inRest
        · rcases areSpacing cut inSpacing with isBlank | isComment
          · rw [isBlank]
            rfl
          · rw [isComment]
            rfl
        · exact restSound cut inRest
      · rw [tokensOf, (Cut.token?_of_meaning meaning line).1, tokensOf_append,
          tokensOf_eq_nil_of_spacing areSpacing, spacingTexts, restTokens, placed_cons]
        simp [Cut.lineFeeds]

/-- Tokens of any sources are scanned again, without an error, from their texts with separators
between them.  Each is on the line that the texts and separators before it lead to. -/
theorem lex_joined
    {tokens : List Token}
    {separators : List (List Char)}
    (scanned : ∀ token ∈ tokens, token.Scanned)
    (separate : ∀ separator ∈ separators, Separator separator)
    (between : separators.length = tokens.length - 1) :
    lex (String.ofList (joined tokens separators)) =
      ⟨placed 1 tokens separators ++
        [Token.endAt (1 + (joined tokens separators).count '\n')], []⟩ := by
  obtain ⟨cuts, cutting, sound, placedTokens⟩ := exists_cutting_joined scanned separate between
  rw [← String.toList_ofList (l := joined tokens separators)] at cutting
  rw [cutting.lex_eq, placedTokens, errorsOf_eq_nil_iff.2 sound, String.toList_ofList]

/-- Equals signs, a slash in front of a comment, and a string with a line feed in it. -/
def rescannedTokens : List Token :=
  [⟨.symbol .equal, "=", 3⟩, ⟨.symbol .equal, "=", 3⟩, ⟨.symbol .slash, "/", 3⟩,
    ⟨.string "a\n//", "\"a\n//\"", 3⟩]

theorem lex_joined_sample :
    (∀ token ∈ rescannedTokens, token.Scanned) ∧
      lex (String.ofList (joined rescannedTokens
        [[' '], ['\t', '/', '/', '"', '\n'], ['\n', '/', '/', '\n', ' ']])) =
      ⟨[⟨.symbol .equal, "=", 1⟩, ⟨.symbol .equal, "=", 1⟩, ⟨.symbol .slash, "/", 2⟩,
        ⟨.string "a\n//", "\"a\n//\"", 4⟩, Token.endAt 5], []⟩ := by
  have scanned : ∀ token ∈ rescannedTokens, token.Scanned := by
    have first : (lex "\n\n=/\"a\n//\"").tokens =
        [⟨.symbol .equal, "=", 3⟩, ⟨.symbol .slash, "/", 3⟩,
          ⟨.string "a\n//", "\"a\n//\"", 3⟩, Token.endAt 4] := by
      with_unfolding_all rfl
    intro token member
    refine ⟨?_, "\n\n=/\"a\n//\"", ?_⟩
    · revert token
      decide
    · rw [first]
      revert token
      decide
  refine ⟨scanned, lex_joined scanned ?_ rfl⟩
  refine List.forall_mem_cons.2 ⟨?_, List.forall_mem_cons.2 ⟨?_, List.forall_mem_singleton.2 ?_⟩⟩
  · exact ⟨.blank (by decide) .done, ' ', rfl, rfl⟩
  · exact ⟨.blank (by decide) (@Spacing.comment ['"'] [] (by decide) .done), '\t', rfl, rfl⟩
  · exact ⟨.blank (by decide) (@Spacing.comment [] [' '] (by decide) (.blank (by decide) .done)),
      '\n', rfl, rfl⟩

end Lox
