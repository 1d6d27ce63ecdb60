import Lox.Proofs.Token.Locality
import Lox.Token.Lexed

/-!
Contract: sources as sequences of segments.

Owns:
- segments with their texts, and the sequences of them that characters are cut into;
- the tokens and the lexical errors of such a sequence, each on its line;
- that `lex` gives the tokens and errors of the sequence that a source is cut into;
- sequences that follow one another after a line feed.

Does not own: the lexical grammar, and what sequences of tokens mean.
-/

namespace Lox

/-! ## The beginning of a segment -/

namespace Cursor

/-- A cursor on nothing but the characters, with all counts at zero. -/
def bare (characters : List Char) : Cursor :=
  ⟨⟨0, ""⟩, characters, 0, 0⟩

/-- A cursor is one on the first part of what it has left, before the other part. -/
theorem eq_bare_within
    {cursor : Cursor}
    {front tail : List Char}
    (left : cursor.rest = front ++ tail) :
    cursor = (bare front).within ⟨cursor.source, cursor.offset, cursor.line, tail⟩ := by
  obtain ⟨source, rest, offset, line⟩ := cursor
  cases left
  simp [bare, within]

end Cursor

namespace Segment

/-- After the first character, the passed ones belong to the segment and the rest does not,
wherever these characters are read. -/
def Begins (first : Char) (passed : List Char) (segment : Segment) (rest : List Char) : Prop :=
  ∀ inside : Cursor, inside.rest = passed ++ rest →
    read first inside = (segment, inside.after passed rest)

/-- What begins where the characters are by themselves begins wherever they are read, also before
further characters that the segment can stand before. -/
private theorem begins_of_read_bare
    {first : Char}
    {passed rest tail : List Char}
    {segment : Segment}
    (alone : read first (.bare (passed ++ rest)) =
      (segment, (Cursor.bare (passed ++ rest)).after passed rest))
    (ends : segment.EndsBefore tail) :
    Begins first passed segment (rest ++ tail) := by
  intro inside left
  rw [← List.append_assoc] at left
  have seen := Cursor.eq_bare_within left
  have moved := read_within ⟨inside.source, inside.offset, inside.line, tail⟩ first
    (.bare (passed ++ rest)) (by rwa [alone])
  rw [← seen, alone] at moved
  rw [moved, ← Cursor.after_within, ← seen]

/-- Some segment begins with every character, whatever follows. -/
theorem exists_begins (first : Char) (characters : List Char) :
    ∃ passed segment rest, characters = passed ++ rest ∧ Begins first passed segment rest := by
  obtain ⟨passed, reaches, _⟩ := read_form first (.bare characters)
  cases found : read first (.bare characters) with
  | mk segment stop =>
    rw [found] at reaches
    obtain ⟨left, stopEq⟩ := reaches
    change characters = passed ++ stop.rest at left
    refine ⟨passed, segment, stop.rest, left, ?_⟩
    have noTail : segment.EndsBefore [] := fun next member => nomatch member
    rw [← List.append_nil stop.rest]
    refine begins_of_read_bare ?_ noTail
    rw [← left, found, ← stopEq]

/-- A segment is the same before further characters that it can stand before. -/
theorem Begins.append
    {first : Char}
    {passed rest tail : List Char}
    {segment : Segment}
    (begins : Begins first passed segment rest)
    (ends : segment.EndsBefore tail) :
    Begins first passed segment (rest ++ tail) :=
  begins_of_read_bare (begins (.bare (passed ++ rest)) rfl) ends

theorem begins_lineFeed (rest : List Char) : Begins '\n' [] .blank rest := by
  intro inside left
  have stays : inside.after [] rest = inside := by
    rw [List.nil_append] at left
    rw [← left]
    rfl
  rw [stays]
  rfl

end Segment

/-! ## Cuttings -/

/-- A segment with its text. -/
structure Cut where
  segment : Segment
  text : List Char

/-- The segments that the characters are cut into, from the first character to the last. -/
inductive Cutting : List Char → List Cut → Prop where
  | done : Cutting [] []
  | step
    {first : Char}
    {passed rest : List Char}
    {segment : Segment}
    {cuts : List Cut}
    (begins : segment.Begins first passed rest)
    (others : Cutting rest cuts) :
    Cutting (first :: (passed ++ rest)) (⟨segment, first :: passed⟩ :: cuts)

/-- Every source is cut into segments. -/
theorem exists_cutting (characters : List Char) : ∃ cuts, Cutting characters cuts := by
  cases characters with
  | nil => exact ⟨[], .done⟩
  | cons first characters =>
    obtain ⟨passed, segment, rest, rfl, begins⟩ := Segment.exists_begins first characters
    have : rest.length < (first :: (passed ++ rest)).length := by
      rw [List.length_cons, List.length_append]
      omega
    obtain ⟨cuts, others⟩ := exists_cutting rest
    exact ⟨_, .step begins others⟩
termination_by characters.length

/-- Nothing is lost by cutting. -/
theorem Cutting.flatMap_text
    {characters : List Char}
    {cuts : List Cut}
    (cutting : Cutting characters cuts) :
    cuts.flatMap Cut.text = characters := by
  induction cutting with
  | done => rfl
  | step _ _ inductionHypothesis =>
    rw [List.flatMap_cons, inductionHypothesis, List.cons_append]

/-- Characters are cut in front of a line feed as they are by themselves, unless a string is open
at their end, and what follows it is cut as it is by itself. -/
theorem Cutting.append_lineFeed
    {front back : List Char}
    {frontCuts backCuts : List Cut}
    (frontCutting : Cutting front frontCuts)
    (noneOpen : ∀ cut ∈ frontCuts, cut.segment ≠ .openString)
    (backCutting : Cutting back backCuts) :
    Cutting (front ++ '\n' :: back) (frontCuts ++ ⟨.blank, ['\n']⟩ :: backCuts) := by
  induction frontCutting with
  | done => exact .step (Segment.begins_lineFeed back) backCutting
  | @step first passed rest segment cuts begins _ inductionHypothesis =>
    have ends : segment.EndsBefore ('\n' :: back) := by
      intro next member
      cases member
      exact ⟨rfl, noneOpen _ List.mem_cons_self, fun _ => rfl⟩
    have others := inductionHypothesis fun cut member =>
      noneOpen cut (List.mem_cons_of_mem _ member)
    -- Each segment ends where it did, since it can stand before a line feed.
    have whole := Cutting.step (begins.append ends) others
    rwa [← List.append_assoc] at whole

/-! ## Tokens and errors -/

theorem Segment.kind?_ne_endOfInput (segment : Segment) (lexeme : String) :
    segment.kind? lexeme ≠ .ok (some .endOfInput) := by
  intro known
  cases segment with
  | string =>
    simp only [kind?] at known
    split at known <;> cases known
  | number =>
    simp only [kind?] at known
    split at known <;> cases known
  | word =>
    simp only [kind?] at known
    split at known <;> cases known
  | _ => cases known

namespace Cut

/-- How many lines the text goes down. -/
def lineFeeds (cut : Cut) : Nat :=
  cut.text.count '\n'

/-- The token that the segment is where it begins on the line, if it is one. -/
def token? (line : Nat) (cut : Cut) : Option Token :=
  match cut.segment.kind? (String.ofList cut.text) with
  | .ok (some kind) => some ⟨kind, String.ofList cut.text, line⟩
  | _ => none

theorem isEnd_eq_false_of_token?
    {line : Nat}
    {cut : Cut}
    {token : Token}
    (found : cut.token? line = some token) :
    token.isEnd = false := by
  unfold token? at found
  split at found
  · rename_i kind known
    cases found
    have noEnd : kind ≠ .endOfInput := by
      rintro rfl
      exact Segment.kind?_ne_endOfInput _ _ known
    simpa [Token.isEnd] using noEnd
  · cases found

/-- The error that the segment is where it begins on the line, if it is one.  It is reported on
the line that the segment ends on. -/
def error? (line : Nat) (cut : Cut) : Option LexicalError :=
  cut.segment.fault?.map fun fault => ⟨fault, line + cut.lineFeeds⟩

end Cut

/-- The tokens of segments that begin on the line. -/
def tokensOf : Nat → List Cut → List Token
  | _, [] => []
  | line, cut :: rest => (cut.token? line).toList ++ tokensOf (line + cut.lineFeeds) rest

/-- The lexical errors of segments that begin on the line. -/
def errorsOf : Nat → List Cut → List LexicalError
  | _, [] => []
  | line, cut :: rest => (cut.error? line).toList ++ errorsOf (line + cut.lineFeeds) rest

/-- The segments of a part and those after it begin on lines that follow one another. -/
theorem tokensOf_append (line : Nat) (front back : List Cut) :
    tokensOf line (front ++ back) =
      tokensOf line front ++ tokensOf (line + (front.flatMap Cut.text).count '\n') back := by
  induction front generalizing line with
  | nil => rfl
  | cons cut rest inductionHypothesis =>
    rw [List.cons_append, tokensOf, inductionHypothesis, tokensOf, List.append_assoc,
      List.flatMap_cons, List.count_append, ← Nat.add_assoc]
    rfl

theorem errorsOf_eq_nil_iff {line : Nat} {cuts : List Cut} :
    errorsOf line cuts = [] ↔ ∀ cut ∈ cuts, cut.segment.fault? = none := by
  induction cuts generalizing line with
  | nil => simp [errorsOf]
  | cons cut rest inductionHypothesis =>
    simp [errorsOf, Cut.error?, inductionHypothesis]

theorem isEnd_eq_false_of_mem_tokensOf
    {line : Nat}
    {cuts : List Cut}
    {token : Token}
    (member : token ∈ tokensOf line cuts) :
    token.isEnd = false := by
  induction cuts generalizing line with
  | nil => cases member
  | cons cut rest inductionHypothesis =>
    rcases List.mem_append.1 member with here | later
    · exact Cut.isEnd_eq_false_of_token? (Option.mem_toList.1 here)
    · exact inductionHypothesis later

/-- The token with its line changed. -/
def Token.relocate (place : Nat → Nat) (token : Token) : Token :=
  { token with line := place token.line }

/-- Segments that begin further down have the same tokens further down. -/
theorem tokensOf_add (line distance : Nat) (cuts : List Cut) :
    tokensOf (line + distance) cuts =
      (tokensOf line cuts).map (Token.relocate (· + distance)) := by
  induction cuts generalizing line with
  | nil => rfl
  | cons cut rest inductionHypothesis =>
    have next : line + distance + cut.lineFeeds = line + cut.lineFeeds + distance := by
      omega
    have here : (cut.token? (line + distance)).toList =
        (cut.token? line).toList.map (Token.relocate (· + distance)) := by
      unfold Cut.token?
      split <;> rfl
    rw [tokensOf, tokensOf, List.map_append, here, next, inductionHypothesis]

/-! ## Reading a source -/

private theorem Cursor.rest_of_next_eq_none
    {cursor stop : Cursor}
    (ended : cursor.next = (none, stop)) :
    cursor.rest = [] := by
  unfold next at ended
  split at ended
  · assumption
  · cases ended

private theorem tokenBetween?_eq_token?
    {segment : Segment}
    {text : List Char}
    {start stop : Cursor}
    {token : Option Token}
    (reaches : start.Reaches text stop)
    (found : Lexed.tokenBetween? segment start stop = .ok token) :
    Cut.token? start.line ⟨segment, text⟩ = token := by
  unfold Lexed.tokenBetween? at found
  rw [reaches.slice_eq] at found
  unfold Cut.token?
  cases kind : segment.kind? (String.ofList text) with
  | error fault => simp [kind] at found
  | ok kind? =>
    simp only [kind, Except.ok.injEq] at found
    rw [← found]
    cases kind? <;> rfl

/-- Reading from a cursor gives the tokens and errors of the segments that the unread characters
are cut into. -/
theorem Cutting.cutFrom_eq
    {characters : List Char}
    {cuts : List Cut}
    (cutting : Cutting characters cuts)
    {start : Cursor}
    (left : start.rest = characters)
    (tokens : List Token)
    (errors : List LexicalError) :
    Lexed.cutFrom start tokens errors =
      .ok ⟨tokens.reverse ++ tokensOf start.line cuts ++
        [Token.endAt (start.line + characters.count '\n')],
        errors.reverse ++ errorsOf start.line cuts⟩ := by
  fun_induction Lexed.cutFrom start tokens errors generalizing characters cuts with
  | case1 start tokens errors stop ended =>
    have empty : start.rest = [] := Cursor.rest_of_next_eq_none ended
    rw [empty] at left
    subst left
    cases cutting
    simp [tokensOf, errorsOf]
  | case2 start tokens errors first inside read segment stop cut fault broken =>
    obtain ⟨token, found⟩ := Lexed.exists_tokenBetween read
    rw [cut] at found
    rw [found] at broken
    contradiction
  | case3 start tokens errors first inside read segment stop cut token found inductionHypothesis =>
    have passes := Cursor.reaches_next read
    rw [passes.rest_eq, List.singleton_append] at left
    cases cutting with
    | done => cases left
    | @step _ passed rest begun cuts begins others =>
      -- The first segment of the cutting is the one that was read, wherever it is read.
      obtain ⟨rfl, insideLeft⟩ := List.cons.inj left
      obtain ⟨rfl, rfl⟩ := Prod.mk.inj (cut.symm.trans (begins inside insideLeft))
      have reaches : start.Reaches (first :: passed) (inside.after passed rest) :=
        passes.trans (.after insideLeft)
      have tokenEq := tokenBetween?_eq_token? reaches found
      have lineEq : (inside.after passed rest).line =
          start.line + Cut.lineFeeds ⟨segment, first :: passed⟩ := by
        rw [reaches.stop_eq]
        rfl
      have errorEq : Cut.error? start.line ⟨segment, first :: passed⟩ =
          segment.fault?.map fun fault => ⟨fault, (inside.after passed rest).line⟩ := by
        rw [lineEq]
        rfl
      have lines : start.line + (first :: (passed ++ rest)).count '\n' =
          (inside.after passed rest).line + rest.count '\n' := by
        rw [lineEq, ← List.cons_append, List.count_append, ← Nat.add_assoc]
        rfl
      rw [inductionHypothesis others rfl, tokensOf, errorsOf, tokenEq, errorEq, lines, ← lineEq]
      cases token <;> cases segment.fault? <;> simp

/-- A source gives the tokens and the errors of the segments that it is cut into. -/
theorem Cutting.lex_eq
    {text : String}
    {cuts : List Cut}
    (cutting : Cutting text.toList cuts) :
    lex text =
      ⟨tokensOf 1 cuts ++ [Token.endAt (1 + text.toList.count '\n')], errorsOf 1 cuts⟩ := by
  have found := cut_eq_ok_lex text
  rw [Lexed.cut, cutting.cutFrom_eq rfl] at found
  exact (Except.ok.inj found).symm

end Lox
