import Lox.Syntax.Fault

/-!
Contract: readers of tokens.

Owns:
- readers, which take tokens from the front of the input or refuse it;
- reading one token of a given kind, and one step after another;
- the property that a reader takes at least one token.

Does not own: what is read.
-/

namespace Lox.Grammar

/-- A refusal: the fault, and the unread tokens from the offending one on.  If none is left, the
end of the input is the offender. -/
structure Refusal where
  fault : SyntaxFault
  unread : List Token
deriving DecidableEq

/-- A reader takes tokens from the front of the unread ones and gives what they stand for, with
the tokens that are left. -/
abbrev Reader (Result : Type) := List Token → Except Refusal (Result × List Token)

/-- The reader that finds the fault at whatever comes next. -/
def refuse {Result : Type} (fault : SyntaxFault) : Reader Result :=
  fun unread => .error ⟨fault, unread⟩

/-- Takes a token of the kind; another token, or none, is the fault. -/
def expect (kind : TokenKind) (fault : SyntaxFault) (unread : List Token) :
    Except Refusal (List Token) :=
  match unread with
  | [] => .error ⟨fault, []⟩
  | token :: rest => if token.kind = kind then .ok rest else .error ⟨fault, token :: rest⟩

/-- If one step after another succeeds, the first did, and the other did on its result. -/
theorem exists_of_bind_eq_ok
    {Middle Result : Type}
    {first : Except Refusal Middle}
    {next : Middle → Except Refusal Result}
    {result : Result}
    (read : (first >>= next) = .ok result) :
    ∃ middle, first = .ok middle ∧ next middle = .ok result := by
  cases first with
  | error refusal => cases read
  | ok middle => exact ⟨middle, rfl, read⟩

/-- Taking a token leaves one less. -/
theorem expect_length
    {kind : TokenKind}
    {fault : SyntaxFault}
    {unread rest : List Token}
    (taken : expect kind fault unread = .ok rest) :
    rest.length < unread.length := by
  unfold expect at taken
  split at taken
  · contradiction
  · split at taken
    · cases taken
      simp
    · contradiction

/-- Whether the reader takes at least one token whenever it does not refuse. -/
def Advances {Result : Type} (reader : Reader Result) : Prop :=
  ∀ {unread result rest}, reader unread = .ok (result, rest) → rest.length < unread.length

/-- A reader that always refuses takes nothing, so there is nothing to show. -/
theorem advances_refuse {Result : Type} (fault : SyntaxFault) :
    Advances (refuse fault : Reader Result) := by
  intro unread result rest read
  simp [refuse] at read

end Lox.Grammar
