import Lox.Proofs.Syntax.Writing

/-!
Contract: what a reader knows from the tokens that it has seen.

Owns:
- readers that are steady: what they take does not depend on what follows, but for the next token,
  and where they refuse, nothing that begins with the same tokens, the offending one included, is
  accepted;
- completions: how the tokens before a refusal can go on so that they are accepted;
- that readers made of steady readers are steady.

Does not own: the readers of the grammar.
-/

namespace Lox.Grammar

/-! ## The next token -/

/-- A condition on the next token, or on the end of the input. -/
abbrev Lookahead := Option Token → Prop

namespace Lookahead

/-- Anything may be next. -/
def anything : Lookahead := fun _ => True

/-- An expression of the rank ends here. -/
def ending (rank : Nat) : Lookahead :=
  fun next => ∀ token ∈ next, ∀ found, infixRank? token.kind = some found → found < rank

/-- The end of the input, or a token that stops the statements. -/
def stopping (stops : Token → Bool) : Lookahead :=
  fun next => ∀ token ∈ next, stops token = true

/-- A token that does not stop the statements. -/
def going (stops : Token → Bool) : Lookahead :=
  fun next => ∃ token, next = some token ∧ ¬ stops token = true

end Lookahead

open Lookahead

/-! ## Steady readers -/

section Steady

variable {Result : Type}

/-- Whatever is allowed to follow, the reader takes exactly the front and comes to the result. -/
def Reads
    (begins follows : Lookahead)
    (reader : Reader Result)
    (front : List Token)
    (result : Result) : Prop :=
  ∀ others : List Token, follows others.head? →
    begins (front ++ others).head? ∧ reader (front ++ others) = .ok (result, others)

/-- Whatever follows with the same next token as in the rest, the reader refuses the front. -/
def Refuses
    (begins : Lookahead)
    (reader : Reader Result)
    (front rest : List Token) : Prop :=
  ∀ others : List Token, others.head? = rest.head? →
    begins (front ++ others).head? ∧ ∃ refusal, reader (front ++ others) = .error refusal

/-- Tokens without an end marker can be put behind the front so that the reader takes them. -/
def Completes
    (begins follows : Lookahead)
    (reader : Reader Result)
    (front : List Token) : Prop :=
  ∃ closing result, (∀ token ∈ closing, token.isEnd = false) ∧
    Reads begins follows reader (front ++ closing) result

/-- What the reader does with the tokens was decided by those that it has seen.  If trees are
always built, what it has seen before a refusal can be completed, except where nesting is the
fault. -/
inductive Foreseen
    (builds : Prop)
    (begins follows : Lookahead)
    (reader : Reader Result) :
    List Token → Prop where
  | accepted
    {front rest : List Token}
    {result : Result}
    (ends : follows rest.head?)
    (reads : Reads begins follows reader front result) :
    Foreseen builds begins follows reader (front ++ rest)
  | refused
    {front rest : List Token}
    {fault : SyntaxFault}
    (found : reader (front ++ rest) = .error ⟨fault, rest⟩)
    (refuses : Refuses begins reader front rest)
    (completes : builds → fault ≠ .tooMuchNesting → Completes begins follows reader front) :
    Foreseen builds begins follows reader (front ++ rest)

/-- Where the reader may begin, everything that it does is foreseen. -/
def Steady
    (builds : Prop)
    (begins follows : Lookahead)
    (reader : Reader Result) : Prop :=
  ∀ unread : List Token, begins unread.head? → Foreseen builds begins follows reader unread

variable {builds : Prop} {begins middle follows : Lookahead}

/-- After the front, the outer reader goes on as the inner one, which may begin there. -/
def GoesOn
    (begins middle : Lookahead)
    (outer inner : Reader Result)
    (front : List Token) : Prop :=
  ∀ others : List Token, middle others.head? →
    begins (front ++ others).head? ∧ outer (front ++ others) = inner others

section GoesOn

variable {outer inner : Reader Result} {front : List Token}

theorem GoesOn.reads
    {back : List Token}
    {result : Result}
    (goesOn : GoesOn begins middle outer inner front)
    (reads : Reads middle follows inner back result) :
    Reads begins follows outer (front ++ back) result := by
  intro others allowed
  obtain ⟨allowedBack, innerRead⟩ := reads others allowed
  obtain ⟨allowedFront, same⟩ := goesOn _ allowedBack
  rw [List.append_assoc]
  exact ⟨allowedFront, same.trans innerRead⟩

theorem GoesOn.refuses
    {back rest : List Token}
    (goesOn : GoesOn begins middle outer inner front)
    (refuses : Refuses middle inner back rest) :
    Refuses begins outer (front ++ back) rest := by
  intro others sameNext
  obtain ⟨allowedBack, refusal, innerRefused⟩ := refuses others sameNext
  obtain ⟨allowedFront, same⟩ := goesOn _ allowedBack
  rw [List.append_assoc]
  exact ⟨allowedFront, refusal, same.trans innerRefused⟩

theorem GoesOn.completes
    {back : List Token}
    (goesOn : GoesOn begins middle outer inner front)
    (completes : Completes middle follows inner back) :
    Completes begins follows outer (front ++ back) := by
  obtain ⟨closing, result, noEnd, reads⟩ := completes
  refine ⟨closing, result, noEnd, ?_⟩
  rw [List.append_assoc]
  exact goesOn.reads reads

/-- What is foreseen after the front is foreseen with it. -/
theorem GoesOn.foreseen
    {rest : List Token}
    (goesOn : GoesOn begins middle outer inner front)
    (foreseen : Foreseen builds middle follows inner rest) :
    Foreseen builds begins follows outer (front ++ rest) := by
  cases foreseen with
  | accepted ends reads =>
    rw [← List.append_assoc]
    exact .accepted ends (goesOn.reads reads)
  | @refused back rest fault found refuses completes =>
    have begun := (refuses rest rfl).1
    rw [← List.append_assoc]
    refine .refused ?_ (goesOn.refuses refuses) fun builds noNesting =>
      goesOn.completes (completes builds noNesting)
    rw [List.append_assoc, (goesOn _ begun).2, found]

/-- A reader that begins with a token of its own and goes on as another reader. -/
theorem Foreseen.cons
    {token : Token}
    {rest : List Token}
    (begun : begins (some token))
    (step : ∀ others : List Token, outer (token :: others) = inner others)
    (foreseen : Foreseen builds anything follows inner rest) :
    Foreseen builds begins follows outer (token :: rest) := by
  have goesOn : GoesOn begins anything outer inner [token] :=
    fun others _ => ⟨begun, step others⟩
  exact goesOn.foreseen foreseen

/-- A reader that does what another one does wherever that may begin. -/
theorem Foreseen.congr
    {unread : List Token}
    (weaker : ∀ next, middle next → begins next)
    (same : ∀ others : List Token, middle others.head? → outer others = inner others)
    (foreseen : Foreseen builds middle follows inner unread) :
    Foreseen builds begins follows outer unread := by
  have goesOn : GoesOn begins middle outer inner [] :=
    fun others allowed => ⟨weaker _ allowed, same others allowed⟩
  exact goesOn.foreseen foreseen

end GoesOn

/-! ## One reader after another -/

/-- Tokens without an end marker that the reader takes from scratch. -/
abbrev Finishes (begins follows : Lookahead) (reader : Reader Result) : Prop :=
  Completes begins follows reader []

theorem finishes_of_reads_nil
    {reader : Reader Result}
    {result : Result}
    (reads : Reads begins follows reader [] result) :
    Finishes begins follows reader :=
  ⟨[], result, fun _ member => (nomatch member), reads⟩

section Refusals

variable {reader : Reader Result} {unread : List Token}

/-- What is refused at the next token, whatever comes after it. -/
theorem foreseen_of_refuses
    (fault : SyntaxFault)
    (begun : begins unread.head?)
    (refused : ∀ others : List Token, others.head? = unread.head? →
      reader others = .error ⟨fault, others⟩)
    (finishes : builds → fault ≠ .tooMuchNesting → Finishes begins follows reader) :
    Foreseen builds begins follows reader unread := by
  refine @Foreseen.refused _ _ _ _ _ [] unread fault (refused unread rfl) (fun others same => ?_)
    finishes
  refine ⟨?_, _, refused others same⟩
  rw [List.nil_append, same]
  exact begun

theorem foreseen_at_end
    (fault : SyntaxFault)
    (begun : begins none)
    (refused : reader [] = .error ⟨fault, []⟩)
    (finishes : Finishes begins follows reader) :
    Foreseen builds begins follows reader [] := by
  refine foreseen_of_refuses fault begun (fun others same => ?_) fun _ _ => finishes
  rw [List.head?_eq_none_iff.1 same, refused]

theorem foreseen_at_token
    (fault : SyntaxFault)
    {token : Token}
    {rest : List Token}
    (begun : begins (some token))
    (refused : ∀ others : List Token,
      reader (token :: others) = .error ⟨fault, token :: others⟩)
    (finishes : Finishes begins follows reader) :
    Foreseen builds begins follows reader (token :: rest) := by
  refine foreseen_of_refuses fault begun (fun others same => ?_) fun _ _ => finishes
  obtain ⟨tail, rfl⟩ := List.head?_eq_some_iff.1 same
  exact refused tail

end Refusals

variable {First : Type} {first : Reader First} {next : First → Reader Result}

private theorem goesOn_of_reads
    {front : List Token}
    {result : First}
    (reads : Reads begins middle first front result) :
    GoesOn begins middle
      (fun unread => do
        let (result, rest) ← first unread
        next result rest)
      (next result) front := by
  intro others allowed
  obtain ⟨begun, read⟩ := reads others allowed
  refine ⟨begun, ?_⟩
  simp only [read]
  rfl

/-- The second reader is foreseen where the first one stops, and can always finish. -/
theorem Foreseen.bind
    {unread : List Token}
    (foreseen : Foreseen builds begins middle first unread)
    (next : First → Reader Result)
    (nexts : ∀ result rest, first unread = .ok (result, rest) → middle rest.head? →
      Foreseen builds middle follows (next result) rest)
    (finishes : ∀ result, Finishes middle follows (next result)) :
    Foreseen builds begins follows
      (fun unread => do
        let (result, rest) ← first unread
        next result rest)
      unread := by
  cases foreseen with
  | @accepted front rest result ends reads =>
    exact (goesOn_of_reads reads).foreseen (nexts result rest (reads rest ends).2 ends)
  | @refused front rest fault found refuses completes =>
    refine .refused (by simp only [found]; rfl) (fun others same => ?_)
      fun builds noNesting => ?_
    · obtain ⟨begun, refusal, refused⟩ := refuses others same
      exact ⟨begun, refusal, by simp only [refused]; rfl⟩
    · obtain ⟨closing, result, noEnd, reads⟩ := completes builds noNesting
      obtain ⟨others, whole, othersNoEnd, othersReads⟩ := finishes result
      refine ⟨closing ++ others, whole, fun token member => ?_, ?_⟩
      · rcases List.mem_append.1 member with inClosing | inOthers
        · exact noEnd token inClosing
        · exact othersNoEnd token inOthers
      · rw [← List.append_assoc]
        exact (goesOn_of_reads reads).reads othersReads

theorem Steady.bind
    (steady : Steady builds begins middle first)
    (nexts : ∀ result, Steady builds middle follows (next result))
    (finishes : ∀ result, Finishes middle follows (next result)) :
    Steady builds begins follows
      (fun unread => do
        let (result, rest) ← first unread
        next result rest) :=
  fun unread begun => (steady unread begun).bind next
    (fun result rest _ allowed => nexts result rest allowed) finishes

/-- The result of a reader, put into another one. -/
theorem Steady.map
    (steady : Steady builds begins follows first)
    (build : First → Result) :
    Steady builds begins follows
      (fun unread => do
        let (result, rest) ← first unread
        return (build result, rest)) := by
  have returns (result : First) : Reads follows follows
      (fun rest => (return (build result, rest) : Except Refusal (Result × List Token))) []
      (build result) :=
    fun others allowed => ⟨allowed, rfl⟩
  exact steady.bind
    (fun result rest allowed => .accepted allowed (returns result))
    (fun result => finishes_of_reads_nil (returns result))

/-- A token that is expected where the reader may stop. -/
theorem Steady.closed
    (steady : Steady builds begins middle first)
    (kind : TokenKind)
    (fault : SyntaxFault)
    (noEnd : kind ≠ .endOfInput)
    (allowed : ∀ token : Token, token.kind = kind → middle (some token))
    (build : First → Result) :
    Steady builds begins anything
      (fun unread => do
        let (result, rest) ← first unread
        let rest ← expect kind fault rest
        return (build result, rest)) := by
  have reads (result : First) (token : Token) (same : token.kind = kind) :
      Reads middle anything
        (fun rest => do
          let rest ← expect kind fault rest
          return (build result, rest))
        [token] (build result) := by
    intro others _
    refine ⟨allowed token same, ?_⟩
    simp only [List.singleton_append, expect, if_pos same]
    rfl
  have finishes (result : First) : Finishes middle anything
      (fun rest => do
        let rest ← expect kind fault rest
        return (build result, rest)) := by
    refine ⟨[⟨kind, "", 1⟩], _, ?_, reads result _ rfl⟩
    simpa [Token.isEnd] using noEnd
  refine steady.bind (fun result rest begun => ?_) finishes
  cases rest with
  | nil => exact foreseen_at_end fault begun rfl (finishes result)
  | cons token rest =>
    by_cases same : token.kind = kind
    · exact .accepted trivial (reads result token same)
    · refine foreseen_at_token fault begun (fun others => ?_) (finishes result)
      simp only [expect, if_neg same]
      rfl

end Steady

end Lox.Grammar
