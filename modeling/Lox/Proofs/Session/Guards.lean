import Lox.Proofs.Evaluation.Leaving
import Lox.Proofs.Syntax.InBounds
import Lox.Proofs.Token.Slices

/-!
Contract: the checks on the way from a source to its run.

Owns:
- that none of them ever fails: on the offsets of texts in a source, on the form of numerals, on
  the index of a token, and on the scope that is left.

Does not own: what is made of a source.
-/

namespace Lox

/-- No check fails.  Every text that is cut out of a source lies between two of its characters, the
beginning before the end, and so does what is between the quotation marks of a string.  Digits, or
digits, a point and digits are always a number.  The walks that read tokens end without a look
beyond the list.  No execution leaves the global scope, whatever it writes to and however it
ends. -/
theorem guards_hold :
    (∀ text : String, Lexed.checkedCut text = some (lex text)) ∧
    (∀ (text : List Char) (decimal : Number.Decimal),
      Numeral text decimal → Number.Decimal.read? text = some decimal) ∧
    (∀ tokens : List Token,
      ((Walk.program Expr.builder).along tokens).map Prod.fst =
        some ((Program.ofTokens tokens).mapError .refused)) ∧
    (∀ tokens : List Token,
      ((Walk.assignment Expr.builder).along tokens).map Prod.fst =
        some ((Expr.ofTokens tokens).mapError .refused)) ∧
    (∀ (writer : Writer) (program : Program) (world : writer.World),
      checkedAllOn writer program world = some (executeAllOn writer program world)) ∧
    ∀ (program : Program) (start : Sink.writer.World),
      (checkedAllOn Sink.writer program start).map Sink.outcome =
        some (executeAll program (Sink.world start)) := by
  refine ⟨Lexed.checkedCut_eq, fun _ _ numeral => numeral.read?_eq,
    Walk.along_program Expr.builder, Walk.along_assignment Expr.builder,
    fun _ => checkedAllOn_eq, fun program start => ?_⟩
  rw [checkedAllOn_eq, executeAll_world]
  rfl

end Lox
