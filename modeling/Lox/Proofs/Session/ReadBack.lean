import Lox.Proofs.Number.Hundredths
import Lox.Proofs.Session.Layout
import Lox.Proofs.Token.Numerals

/-!
Contract: displayed numbers as sources.

Owns:
- the evaluation of a source that is the writing of an expression, of a numeral and of a numeral
  behind a minus sign;
- that a displayed finite number is evaluated to a number with the same display.

Does not own: which number that is.
-/

namespace Lox

namespace Session

/-- A source whose tokens write an expression is evaluated as that expression. -/
theorem evaluate_eq_evaluateTree
    {source : String}
    (tokens : List Token)
    (tree : Expr)
    {line : Nat}
    (scanned : lex source = ⟨tokens ++ [Token.endAt line], []⟩)
    (respects : tree.RespectsPrecedence)
    (written : tokens.map Token.piece = tree.pieces)
    (within : tree.nesting ≤ Grammar.maxNesting)
    (session : Session) :
    session.evaluate source = session.evaluateTree tree := by
  have ends : EndsAt 0 [Token.endAt line] :=
    endsAt_zero_iff.2 fun token member => by
      cases member
      exact ⟨nofun, rfl⟩
  have read : Expr.ofTokens (tokens ++ [Token.endAt line]) = .ok tree :=
    Expr.ofTokens_eq_ok_iff.2 ⟨Expr.writtenBy_append respects written ends, within⟩
  have scans : (lex source).errors = [] := by rw [scanned]
  rw [evaluate_eq_evaluationOf scans, scanned, read]
  rfl

section Numerals

variable {text : List Char} {decimal : Number.Decimal}

theorem evaluate_numeral (numeral : Numeral text decimal) (session : Session) :
    session.evaluate (String.ofList text) =
      (.ok (.number decimal.nearestDouble), session) :=
  evaluate_eq_evaluateTree [⟨.number decimal.nearestDouble, String.ofList text, 1⟩]
    (.literal (.number decimal.nearestDouble)) numeral.lex_eq trivial rfl (Nat.zero_le _) session

theorem evaluate_minus (numeral : Numeral text decimal) (session : Session) :
    session.evaluate (String.ofList ('-' :: text)) =
      (.ok (.number (-decimal.nearestDouble)), session) :=
  evaluate_eq_evaluateTree
    [⟨.symbol .minus, "-", 1⟩, ⟨.number decimal.nearestDouble, String.ofList text, 1⟩]
    (.unary .negate (.literal (.number decimal.nearestDouble))) numeral.lex_minus
    ⟨Nat.le_succ _, trivial⟩ rfl (by decide : 1 ≤ Grammar.maxNesting) session

end Numerals

open Number

/-- A displayed number, as a source, is evaluated to a number with the same display. -/
theorem evaluate_text_number
    {number : Float}
    (finite : number.isFinite = true)
    (session : Session) :
    ∃ readBack : Float,
      session.evaluate (Value.number number).text = (.ok (.number readBack), session) ∧
        (Value.number readBack).text = (Value.number number).text := by
  obtain ⟨negative, magnitude, exact⟩ := Exact.isFinite_iff.1 finite
  obtain ⟨readMagnitude, readExact, sameRounded⟩ := Exact.exists_rounded_eq exact
  rw [Value.text_number_of_ofDouble exact, ← sameRounded]
  rw [← sameRounded] at readExact
  have numeral := (readMagnitude.rounded 2).trimmed.numeral_chars
  cases negative with
  | false =>
    refine ⟨_, ?_, Value.text_number_of_ofDouble readExact⟩
    rw [Format.sign, if_neg Bool.false_ne_true, String.empty_append]
    exact evaluate_numeral numeral session
  | true =>
    refine ⟨_, ?_, Value.text_number_of_ofDouble (Exact.ofDouble_neg readExact)⟩
    rw [Format.sign, if_pos rfl, show "-" = String.ofList ['-'] from rfl, Decimal.text,
      ← String.ofList_append]
    exact evaluate_minus numeral session

/-- Minus zero keeps its sign. -/
theorem evaluate_text_number_sample :
    (-Decimal.nearestDouble ⟨0, 0⟩).isFinite = true ∧
      ∃ readBack : Float,
        evaluate (Value.number (-Decimal.nearestDouble ⟨0, 0⟩)).text {} =
            (.ok (.number readBack), {}) ∧
          (Value.number readBack).text = (Value.number (-Decimal.nearestDouble ⟨0, 0⟩)).text := by
  have finite : (-Decimal.nearestDouble ⟨0, 0⟩).isFinite = true := by
    with_unfolding_all rfl
  exact ⟨finite, evaluate_text_number finite {}⟩

end Session

end Lox
