import Lox.Proofs.Syntax.Draft
import Lox.Proofs.Syntax.Steadiness
import Mathlib.Data.List.TakeWhile

/-!
Contract: the place of a syntax error.

Owns:
- token lists that agree up to the offending token of an error, that token included;
- that no list which agrees so is accepted;
- that the tokens before the offending one can be completed, if assignments may have any target
  and nesting is not the fault.

Does not own: which fault is reported.
-/

namespace Lox

/-- The other list agrees with the tokens before the offending one, and has that one next.  If the
end of the input is the offender, the other list ends there, with or without an end marker. -/
structure SyntaxError.AgreesWith (error : SyntaxError) (tokens others : List Token) : Prop where
  before : others.take error.index = tokens.take error.index
  offender : others[error.index]? = some error.token ∨
    error.token.isEnd = true ∧ ∀ marker ∈ others[error.index]?, marker.isEnd = true

namespace TokenInput

variable {tokens front rest : List Token}

/-- A list with the front before some place has it in its input too, and next what stands at that
place if that is no end marker. -/
theorem exists_tail
    (noEnd : ∀ token ∈ front, token.isEnd = false)
    (before : tokens.take front.length = front) :
    ∃ tail, (ofTokens tokens).tokens = front ++ tail ∧
      tail.head? = tokens[front.length]?.filter (!·.isEnd) := by
  refine ⟨(tokens.drop front.length).takeWhile (!·.isEnd), ?_, ?_⟩
  · change tokens.takeWhile (!·.isEnd) = _
    conv_lhs => rw [← List.take_append_drop front.length tokens, before]
    exact List.takeWhile_append_of_pos (by simpa using noEnd)
  · rw [List.head?_takeWhile, List.head?_drop]

section Refused

variable (whole : (ofTokens tokens).tokens = front ++ rest)

include whole

theorem isEnd_eq_false_of_mem_front {token : Token} (member : token ∈ front) :
    token.isEnd = false :=
  isEnd_eq_false (whole ▸ List.mem_append_left rest member)

theorem take_length_front : tokens.take front.length = front := by
  have same : tokens = front ++ (rest ++ tokens.dropWhile (!·.isEnd)) := by
    rw [← List.append_assoc, ← whole]
    exact List.takeWhile_append_dropWhile.symm
  rw [same]
  exact List.take_left

/-- After the front comes the offender, or an end marker, or nothing. -/
theorem head?_rest : rest.head? = tokens[front.length]?.filter (!·.isEnd) := by
  obtain ⟨tail, same, next⟩ := exists_tail (fun _ => isEnd_eq_false_of_mem_front whole)
    (take_length_front whole)
  rw [whole] at same
  rw [List.append_cancel_left same, next]

theorem index_errorOf (fault : SyntaxFault) :
    ((ofTokens tokens).errorOf ⟨fault, rest⟩).index = front.length := by
  simp [errorOf, whole]

/-- The tokens agree with themselves up to the error that a refusal is reported as. -/
theorem agreesWith_errorOf (fault : SyntaxFault) :
    ((ofTokens tokens).errorOf ⟨fault, rest⟩).AgreesWith tokens tokens := by
  refine ⟨rfl, ?_⟩
  have next := head?_rest whole
  rw [index_errorOf whole]
  dsimp only [errorOf]
  cases offender : rest.head? with
  | some token =>
    rw [offender] at next
    exact .inl (Option.eq_some_of_filter_eq_some next.symm)
  | none =>
    rw [offender] at next
    refine .inr ⟨isEnd_marker tokens, fun marker found => ?_⟩
    simpa using Option.filter_eq_none_iff.1 next.symm marker found

/-- A list that agrees with the tokens up to the error has the front and the same token next. -/
theorem exists_of_agreesWith
    {others : List Token}
    {fault : SyntaxFault}
    (agrees : ((ofTokens tokens).errorOf ⟨fault, rest⟩).AgreesWith tokens others) :
    ∃ tail, (ofTokens others).tokens = front ++ tail ∧ tail.head? = rest.head? := by
  obtain ⟨before, offender⟩ := agrees
  rw [index_errorOf whole, take_length_front whole] at before
  rw [index_errorOf whole] at offender
  obtain ⟨tail, same, next⟩ := exists_tail (fun _ => isEnd_eq_false_of_mem_front whole) before
  refine ⟨tail, same, next.trans ?_⟩
  dsimp only [errorOf] at offender
  cases first : rest.head? with
  | some token =>
    have noEnd : token.isEnd = false :=
      isEnd_eq_false (whole ▸ List.mem_append_right front (List.mem_of_head? first))
    rw [first, Option.getD_some] at offender
    rcases offender with here | ⟨isEnd, _⟩
    · simp [here, noEnd]
    · rw [noEnd] at isEnd
      cases isEnd
  | none =>
    rw [first, Option.getD_none] at offender
    rcases offender with here | ⟨_, ended⟩
    · simp [here, isEnd_marker]
    · exact Option.filter_eq_none_iff.2 (by simpa using ended)

end Refused

end TokenInput

namespace Grammar

variable {Tree : Type} {builder : Builder Tree} {builds : Prop}

/-- What is known of the place where a program is refused. -/
theorem readProgram_refused
    (regular : builder.Regular builds)
    {tokens : List Token}
    {error : SyntaxError}
    (failed : readProgram builder tokens = .error error) :
    error.index ≤ tokens.length ∧
      error.AgreesWith tokens tokens ∧
      (∀ others, error.AgreesWith tokens others →
        ∀ program, readProgram builder others ≠ .ok program) ∧
      (builds → error.fault ≠ .tooMuchNesting →
        ∃ closing program, (∀ token ∈ closing, token.isEnd = false) ∧
          readProgram builder (tokens.take error.index ++ closing) = .ok program) := by
  have foreseen := steady_program regular (TokenInput.ofTokens tokens).tokens trivial
  generalize whole : (TokenInput.ofTokens tokens).tokens = unread at foreseen
  cases foreseen with
  | @accepted front rest program ends reads =>
    rw [readProgram, TokenInput.read, whole, (reads rest ends).2] at failed
    cases failed
  | @refused front rest fault found refuses completes =>
    rw [readProgram, TokenInput.read, whole, found] at failed
    cases failed
    have index := TokenInput.index_errorOf whole fault
    have before := TokenInput.take_length_front whole
    refine ⟨?_, TokenInput.agreesWith_errorOf whole fault, fun others agrees program read => ?_,
      fun builds noNesting => ?_⟩
    · rw [index, ← before, List.length_take]
      exact Nat.min_le_right _ _
    · obtain ⟨tail, same, next⟩ := TokenInput.exists_of_agreesWith whole agrees
      obtain ⟨_, refusal, refused⟩ := refuses tail next
      rw [readProgram, TokenInput.read, same, refused] at read
      cases read
    · obtain ⟨closing, program, noEnd, reads⟩ := completes builds noNesting
      refine ⟨closing, program, noEnd, ?_⟩
      have input : (TokenInput.ofTokens (front ++ closing)).tokens = front ++ closing := by
        refine List.takeWhile_eq_self_iff.2 fun token member => ?_
        rcases List.mem_append.1 member with inFront | inClosing
        · simpa using TokenInput.isEnd_eq_false_of_mem_front whole inFront
        · simpa using noEnd token inClosing
      have read := (reads [] (by simp [Lookahead.stopping])).2
      rw [List.append_nil] at read
      rw [index, before, readProgram, TokenInput.read, input, read]

end Grammar

theorem Expr.regular_builder : Expr.builder.Regular False where
  assign_eq _ _ _ _ := rfl
  assign_eq_none := by
    intro target unread value other none
    cases target with
    | reference name => cases none
    | _ => rfl
  assign_ne_none _ _ _ impossible := impossible.elim

theorem Draft.regular_builder : Draft.builder.Regular True where
  assign_eq _ _ _ _ := rfl
  assign_eq_none _ _ _ _ none := nomatch none
  assign_ne_none _ _ _ _ none := nomatch none

/-- The offending token of a syntax error is the first at which the tokens are no beginning of a
program. -/
theorem Program.first_impossible
    {tokens : List Token}
    {error : SyntaxError}
    (failed : Program.ofTokens tokens = .error error) :
    error.index ≤ tokens.length ∧
      error.AgreesWith tokens tokens ∧
      (∀ others, error.AgreesWith tokens others →
        ∀ program, Program.ofTokens others ≠ .ok program) ∧
      (error.fault ≠ .invalidAssignmentTarget →
        ∀ others, error.AgreesWith tokens others →
          ∀ drafts, Draft.programOfTokens others ≠ .ok drafts) ∧
      (error.fault ≠ .invalidAssignmentTarget → error.fault ≠ .tooMuchNesting →
        ∃ closing drafts, (∀ token ∈ closing, token.isEnd = false) ∧
          Draft.programOfTokens (tokens.take error.index ++ closing) = .ok drafts) := by
  obtain ⟨within, agrees, refused, _⟩ := Grammar.readProgram_refused Expr.regular_builder failed
  refine ⟨within, agrees, refused, fun noTarget => ?_, fun noTarget noNesting => ?_⟩
  · have draftFailed := Draft.programOfTokens_eq_error failed noTarget
    exact (Grammar.readProgram_refused Draft.regular_builder draftFailed).2.2.1
  · have draftFailed := Draft.programOfTokens_eq_error failed noTarget
    exact (Grammar.readProgram_refused Draft.regular_builder draftFailed).2.2.2 trivial noNesting

/-- A parenthesis in a block, which a semicolon does not close. -/
def unclosedTokens : List Token :=
  [⟨.symbol .leftBrace, "\x7b", 1⟩, ⟨.symbol .leftParen, "(", 1⟩, ⟨.identifier, "a", 1⟩,
    ⟨.symbol .semicolon, ";", 1⟩]

theorem Program.first_impossible_unclosed :
    Program.ofTokens unclosedTokens =
        .error ⟨.missingRightParen, 3, ⟨.symbol .semicolon, ";", 1⟩⟩ ∧
      (∀ others, SyntaxError.AgreesWith ⟨.missingRightParen, 3, ⟨.symbol .semicolon, ";", 1⟩⟩
          unclosedTokens others →
        ∀ drafts, Draft.programOfTokens others ≠ .ok drafts) ∧
      ∃ closing drafts, (∀ token ∈ closing, token.isEnd = false) ∧
        Draft.programOfTokens (unclosedTokens.take 3 ++ closing) = .ok drafts := by
  have failed : Program.ofTokens unclosedTokens =
      .error ⟨.missingRightParen, 3, ⟨.symbol .semicolon, ";", 1⟩⟩ := by
    with_unfolding_all rfl
  obtain ⟨_, _, _, refused, completed⟩ := Program.first_impossible failed
  exact ⟨failed, refused (by decide), completed (by decide) (by decide)⟩

end Lox
