import Lox.Proofs.Syntax.Writing

/-!
Contract: what is read is what the tokens say.

Owns:
- the soundness of a reader: it takes exactly the tokens that its result is written with;
- the soundness of every reader of the grammar, by induction on the room for nesting;
- that accepted programs respect precedence and stay within the nesting that is allowed.

Does not own: which token lists are accepted.
-/

namespace Lox

/-- The expression has at least the rank, respects precedence, and nests less than the bound. -/
structure Expr.Fits (rank bound : Nat) (expression : Expr) : Prop where
  rank_le : rank ≤ expression.rank
  respects : expression.RespectsPrecedence
  nesting_lt : expression.nesting < bound

namespace Grammar

/-- The reader takes exactly the tokens that its result is written with, stops where the result
does not go on, and gives only expressions that fit. -/
def Sound (reader : Reader Expr) (rank bound : Nat) : Prop :=
  ∀ {unread rest : List Token} {tree : Expr}, reader unread = .ok (tree, rest) →
    BeginsWith unread tree.pieces rest ∧ EndsAt rank rest ∧ tree.Fits rank bound

theorem sound_refuse (fault : SyntaxFault) (rank bound : Nat) :
    Sound (refuse fault) rank bound := by
  intro unread rest tree read
  cases read

theorem beginsWith_of_expect
    {kind : TokenKind}
    {fault : SyntaxFault}
    {unread rest : List Token}
    (noName : kind ≠ .identifier)
    (taken : expect kind fault unread = .ok rest) :
    BeginsWith unread [.mark kind] rest := by
  unfold expect at taken
  split at taken
  · cases taken
  · rename_i token others
    split at taken
    · rename_i same
      cases taken
      exact ⟨[token], rfl, by rw [List.map_singleton, Token.piece_of_kind_eq same noName]⟩
    · cases taken

private theorem written_before_expect
    {bound : Nat}
    {reader : Reader Expr}
    (sound : Sound reader 0 bound)
    {kind : TokenKind}
    {fault : SyntaxFault}
    (noName : kind ≠ .identifier)
    {unread unclosed rest : List Token}
    {tree : Expr}
    (inside : reader unread = .ok (tree, unclosed))
    (closed : expect kind fault unclosed = .ok rest) :
    BeginsWith unread (tree.pieces ++ [.mark kind]) rest ∧ tree.Fits 0 bound := by
  obtain ⟨written, _, fits⟩ := sound inside
  have close := beginsWith_of_expect noName closed
  exact ⟨beginsWith_append_iff.2 ⟨unclosed, written, close⟩, fits⟩

private theorem beginsWith_of_kind
    {token : Token}
    {kind : TokenKind}
    {unread rest : List Token}
    {pieces : List Piece}
    (same : token.kind = kind)
    (noName : kind ≠ .identifier)
    (others : BeginsWith unread pieces rest) :
    BeginsWith (token :: unread) (.mark kind :: pieces) rest :=
  beginsWith_cons_iff.2 ⟨token, unread, rfl, Token.piece_of_kind_eq same noName, others⟩

/-! ## Operands -/

/-- The readers one level deeper are sound for what nests less than the bound. -/
structure SoundWithin (bound : Nat) (deeper : Readers Expr) : Prop where
  operand : Sound deeper.operand unaryRank bound
  expression : Sound deeper.expression 0 bound

private theorem sound_literal
    (value : Value)
    {token : Token}
    {bound : Nat}
    {unread rest : List Token}
    {result : Expr}
    (kind : token.kind = value.kind)
    (read : (.ok (.literal value, unread) : Except Refusal (Expr × List Token)) =
      .ok (result, rest)) :
    BeginsWith (token :: unread) result.pieces rest ∧ result.Fits primaryRank (bound + 1) := by
  cases read
  have noName : value.kind ≠ .identifier := by
    unfold Value.kind
    split <;> simp
  exact ⟨beginsWith_of_kind kind noName (beginsWith_nil_iff.2 rfl),
    Nat.le_refl _, trivial, Nat.zero_lt_succ _⟩

private theorem sound_primary
    {bound : Nat}
    {deeper : Readers Expr}
    (sound : SoundWithin bound deeper)
    {unread rest : List Token}
    {result : Expr}
    (read : primary Expr.builder deeper unread = .ok (result, rest)) :
    BeginsWith unread result.pieces rest ∧ result.Fits primaryRank (bound + 1) := by
  unfold primary at read
  split at read
  · cases read
  · rename_i token after
    split at read
    · rename_i kind
      exact sound_literal .nil kind read
    · rename_i kind
      exact sound_literal (.boolean true) kind read
    · rename_i kind
      exact sound_literal (.boolean false) kind read
    · rename_i value kind
      exact sound_literal (.number value) kind read
    · rename_i content kind
      exact sound_literal (.string content) kind read
    · rename_i identifier
      cases read
      have seen : token.piece = .name ⟨token.lexeme, token.line⟩ := if_pos identifier
      exact ⟨⟨[token], rfl, by rw [List.map_singleton, seen]; rfl⟩,
        Nat.le_refl _, trivial, Nat.zero_lt_succ _⟩
    · rename_i paren
      obtain ⟨⟨inner, unclosed⟩, inside, read⟩ := exists_of_bind_eq_ok read
      obtain ⟨last, closed, read⟩ := exists_of_bind_eq_ok read
      cases read
      obtain ⟨written, innerFits⟩ :=
        written_before_expect sound.expression (by simp) inside closed
      exact ⟨beginsWith_of_kind paren (by simp) written,
        Nat.le_refl _, innerFits.respects, Nat.succ_lt_succ innerFits.nesting_lt⟩
    · cases read

private theorem sound_operand
    {bound : Nat}
    {deeper : Readers Expr}
    (sound : SoundWithin bound deeper) :
    Sound (operand Expr.builder deeper) unaryRank (bound + 1) := by
  intro unread rest result read
  have ofPrimary : primary Expr.builder deeper unread = .ok (result, rest) →
      BeginsWith unread result.pieces rest ∧ EndsAt unaryRank rest ∧
        result.Fits unaryRank (bound + 1) := by
    intro read
    obtain ⟨written, fits⟩ := sound_primary sound read
    exact ⟨written, endsAt_unaryRank rest, Nat.le_of_succ_le fits.rank_le, fits.respects,
      fits.nesting_lt⟩
  unfold operand at read
  split at read
  · exact ofPrimary read
  · rename_i token after
    split at read
    · rename_i operator symbol
      obtain ⟨⟨inner, remaining⟩, inside, read⟩ := exists_of_bind_eq_ok read
      cases read
      obtain ⟨innerWritten, ends, innerFits⟩ := sound.operand inside
      exact ⟨beginsWith_of_kind (UnaryOp.ofKind?_eq_some_iff.1 symbol) (by simp) innerWritten,
        ends, Nat.le_refl _, ⟨innerFits.rank_le, innerFits.respects⟩,
        Nat.succ_lt_succ innerFits.nesting_lt⟩
    · exact ofPrimary read

/-! ## Chains of operators -/

theorem operatorAt?_eq_some_iff {level : Level} {kind : TokenKind} {operator : BinaryOp} :
    operatorAt? level kind = some operator ↔
      kind = .symbol operator.symbol ∧ operator.level = level := by
  unfold operatorAt?
  rw [Option.filter_eq_some_iff, BinaryOp.ofKind?_eq_some_iff, decide_eq_true_iff]

/-- Where a tighter expression ends and no operator of the level follows, the level ends. -/
theorem endsAt_of_operatorAt?_eq_none
    {level : Level}
    {token : Token}
    {rest : List Token}
    (ends : EndsAt (level.rank + 1) (token :: rest))
    (none : operatorAt? level token.kind = none) :
    EndsAt level.rank (token :: rest) := by
  rw [endsAt_cons_iff] at ends ⊢
  intro found same
  apply Nat.lt_of_le_of_ne (Nat.le_of_lt_succ (ends found same))
  intro here
  obtain ⟨operator, kind, rank⟩ :=
    exists_operator_of_infixRank?_eq_some same (here ▸ level.rank_pos)
  have known := operatorAt?_eq_some_iff.2 ⟨kind, Level.rank_injective (rank.trans here)⟩
  rw [none] at known
  cases known

/-- Going on with a chain: the tree so far and the room that is left together stay below the
bound, and each operator that is read moves one from the room to the tree. -/
private theorem sound_chainFrom
    {level : Level}
    {bound : Nat}
    {next : Reader Expr}
    (sound : Sound next (level.rank + 1) bound)
    (room : Nat)
    (left : Expr)
    (fits : left.Fits level.rank bound)
    (chain : left.chainLength level + room < bound)
    {unread rest : List Token}
    {result : Expr}
    (ends : EndsAt (level.rank + 1) unread)
    (read : chainFrom Expr.builder level next room left unread = .ok (result, rest)) :
    (∃ others, result.pieces = left.pieces ++ others ∧ BeginsWith unread others rest) ∧
      EndsAt level.rank rest ∧ result.Fits level.rank bound := by
  fun_induction chainFrom Expr.builder level next room left unread with
  | case1 =>
    cases read
    exact ⟨⟨[], by simp, by simp⟩, endsAt_nil _, fits⟩
  | case2 _ left token after none =>
    cases read
    exact ⟨⟨[], by simp, by simp⟩, endsAt_of_operatorAt?_eq_none ends none, fits⟩
  | case3 => cases read
  | case4 left token after operator found room inductionHypothesis =>
    obtain ⟨⟨right, remaining⟩, inside, read⟩ := exists_of_bind_eq_ok read
    obtain ⟨kind, same⟩ := operatorAt?_eq_some_iff.1 found
    obtain ⟨rightWritten, rightEnds, rightFits⟩ := sound inside
    subst same
    have longer : (Expr.builder.binary left operator right).chainLength operator.level =
        left.chainLength operator.level + 1 := if_pos rfl
    have joined : (Expr.binary left operator right).Fits operator.level.rank bound := by
      refine ⟨Nat.le_refl _, ⟨⟨fits.rank_le, fits.respects⟩, rightFits.rank_le,
        rightFits.respects⟩, ?_⟩
      have leftNests := fits.nesting_lt
      have rightNests := rightFits.nesting_lt
      simp only [Expr.nesting]
      omega
    obtain ⟨⟨others, pieces, written⟩, resultEnds, resultFits⟩ :=
      inductionHypothesis right remaining joined (by rw [longer]; omega) rightEnds read
    refine ⟨⟨.mark (.symbol operator.symbol) :: (right.pieces ++ others), ?_, ?_⟩, resultEnds,
      resultFits⟩
    · rw [pieces]
      simp [Expr.builder, Expr.pieces]
    · exact beginsWith_of_kind kind (by simp)
        (beginsWith_append_iff.2 ⟨remaining, rightWritten, written⟩)

private theorem sound_chain
    (level : Level)
    {room : Nat}
    {next : Reader Expr}
    (sound : Sound next (level.rank + 1) (room + 1)) :
    Sound (chain Expr.builder level room next) level.rank (room + 1) := by
  intro unread rest result read
  obtain ⟨⟨left, remaining⟩, inside, read⟩ := exists_of_bind_eq_ok read
  obtain ⟨leftWritten, leftEnds, leftFits⟩ := sound inside
  have noChain : left.chainLength level = 0 :=
    Expr.chainLength_of_rank_ne (Nat.ne_of_gt leftFits.rank_le)
  obtain ⟨⟨others, pieces, written⟩, ends, fits⟩ := sound_chainFrom sound room left
    ⟨Nat.le_of_succ_le leftFits.rank_le, leftFits.respects, leftFits.nesting_lt⟩
    (by omega) leftEnds read
  rw [pieces]
  exact ⟨beginsWith_append_iff.2 ⟨remaining, leftWritten, written⟩, ends, fits⟩

private theorem sound_equality
    {room : Nat}
    {deeper : Readers Expr}
    (sound : SoundWithin room deeper) :
    Sound (equality Expr.builder room deeper) Level.equality.rank (room + 1) :=
  sound_chain .equality <| sound_chain .comparison <| sound_chain .term <|
    sound_chain .factor <| sound_operand sound

/-! ## Assignments -/

/-- Where a chain for equality ends and no equals sign follows, every expression ends. -/
theorem endsAt_zero_of_kind_ne_equal
    {token : Token}
    {rest : List Token}
    (ends : EndsAt Level.equality.rank (token :: rest))
    (noEqual : token.kind ≠ .symbol .equal) :
    EndsAt 0 (token :: rest) := by
  rw [endsAt_cons_iff] at ends ⊢
  intro found same
  have below := ends found same
  rw [infixRank?, if_neg noEqual] at same
  obtain ⟨operator, _, rank⟩ := Option.map_eq_some_iff.1 same
  have positive := operator.level.rank_pos
  simp only [Level.rank] at below
  omega

private theorem sound_assignment
    {room : Nat}
    {deeper : Readers Expr}
    (sound : SoundWithin room deeper) :
    Sound (assignment Expr.builder room deeper) 0 (room + 1) := by
  intro unread rest result read
  obtain ⟨⟨target, after⟩, left, read⟩ := exists_of_bind_eq_ok read
  obtain ⟨targetWritten, targetEnds, targetFits⟩ := sound_equality sound left
  dsimp only at read
  split at read
  · cases read
    exact ⟨targetWritten, endsAt_nil _, Nat.zero_le _, targetFits.respects, targetFits.nesting_lt⟩
  · rename_i token inside
    split at read
    · rename_i equal
      obtain ⟨⟨value, remaining⟩, right, read⟩ := exists_of_bind_eq_ok read
      obtain ⟨valueWritten, valueEnds, valueFits⟩ := sound.expression right
      dsimp only [Expr.builder] at read
      split at read
      · rename_i tree assigned
        split at assigned
        · cases assigned
          cases read
          have written := beginsWith_append_iff.2
            ⟨_, targetWritten, beginsWith_of_kind equal (by simp) valueWritten⟩
          exact ⟨written, valueEnds, Nat.zero_le _, valueFits.respects,
            Nat.succ_lt_succ valueFits.nesting_lt⟩
        · cases assigned
      · cases read
    · rename_i noEqual
      cases read
      exact ⟨targetWritten, endsAt_zero_of_kind_ne_equal targetEnds noEqual, Nat.zero_le _,
        targetFits.respects, targetFits.nesting_lt⟩

/-! ## Nesting -/

private theorem soundWithin_readers (room : Nat) :
    SoundWithin (room + 1) (readers Expr.builder room) := by
  induction room with
  | zero =>
    have sound : SoundWithin 0 ⟨refuse .tooMuchNesting, refuse .tooMuchNesting⟩ :=
      ⟨sound_refuse _ _ _, sound_refuse _ _ _⟩
    exact ⟨sound_operand sound, sound_assignment sound⟩
  | succ room inductionHypothesis =>
    exact ⟨sound_operand inductionHypothesis, sound_assignment inductionHypothesis⟩

/-- The reader of expressions is sound, and uses no more room than there is. -/
theorem sound_expression (room : Nat) :
    Sound (expression Expr.builder room) 0 (room + 1) :=
  (soundWithin_readers room).expression

end Grammar

/-! ## Statements -/

/-- The statement respects precedence and nests less than the bound. -/
structure Statement.Fits (bound : Nat) (statement : Statement Expr) : Prop where
  respects : ∀ tree ∈ statement.trees, tree.RespectsPrecedence
  nesting_lt : statement.nesting < bound

/-- The program respects precedence and nests less than the bound. -/
structure Program.Fits (bound : Nat) (program : Program) : Prop where
  respects : ∀ tree ∈ Program.trees program, tree.RespectsPrecedence
  nesting_lt : Program.nesting program < bound

theorem Program.fits_nil {bound : Nat} (positive : 0 < bound) : Program.Fits bound [] :=
  ⟨by simp [trees], positive⟩

theorem Program.fits_cons_iff
    {bound : Nat}
    {statement : Statement Expr}
    {rest : Program} :
    Program.Fits bound (statement :: rest) ↔ statement.Fits bound ∧ Program.Fits bound rest := by
  constructor
  · rintro ⟨respects, nesting⟩
    simp only [trees, List.mem_append, Program.nesting] at respects nesting
    exact ⟨⟨fun tree member => respects tree (.inl member), by omega⟩,
      fun tree member => respects tree (.inr member), by omega⟩
  · rintro ⟨⟨firstRespects, firstNesting⟩, othersRespect, othersNesting⟩
    refine ⟨fun tree member => ?_, by simp only [Program.nesting]; omega⟩
    rcases List.mem_append.1 member with member | member
    · exact firstRespects tree member
    · exact othersRespect tree member

namespace Grammar

/-- The reader takes exactly the tokens that its result is written with, and gives only
statements that fit. -/
def SoundForStatements (reader : Reader (Statement Expr)) (bound : Nat) : Prop :=
  ∀ {unread rest : List Token} {statement : Statement Expr},
    reader unread = .ok (statement, rest) →
      BeginsWith unread statement.pieces rest ∧ statement.Fits bound

private theorem sound_expressionStatement
    {bound : Nat}
    {reader : Reader Expr}
    (sound : Sound reader 0 bound) :
    SoundForStatements (expressionStatement reader) bound := by
  intro unread rest result read
  obtain ⟨⟨tree, unclosed⟩, inside, read⟩ := exists_of_bind_eq_ok read
  obtain ⟨last, closed, read⟩ := exists_of_bind_eq_ok read
  cases read
  obtain ⟨written, fits⟩ := written_before_expect sound (by simp) inside closed
  exact ⟨written, by simp [Statement.trees, fits.respects], fits.nesting_lt⟩

private theorem sound_printStatement
    {bound : Nat}
    {reader : Reader Expr}
    (sound : Sound reader 0 bound)
    {token : Token}
    (kind : token.kind = .keyword .printWord)
    {unread rest : List Token}
    {result : Statement Expr}
    (read : printStatement reader unread = .ok (result, rest)) :
    BeginsWith (token :: unread) result.pieces rest ∧ result.Fits bound := by
  obtain ⟨⟨tree, unclosed⟩, inside, read⟩ := exists_of_bind_eq_ok read
  obtain ⟨last, closed, read⟩ := exists_of_bind_eq_ok read
  cases read
  obtain ⟨written, fits⟩ := written_before_expect sound (by simp) inside closed
  exact ⟨beginsWith_of_kind kind (by simp) written,
    by simp [Statement.trees, fits.respects], fits.nesting_lt⟩

private theorem sound_varDeclaration
    {bound : Nat}
    (positive : 0 < bound)
    {reader : Reader Expr}
    (sound : Sound reader 0 bound)
    {token : Token}
    (kind : token.kind = .keyword .varWord)
    {unread rest : List Token}
    {result : Statement Expr}
    (read : varDeclaration reader unread = .ok (result, rest)) :
    BeginsWith (token :: unread) result.pieces rest ∧ result.Fits bound := by
  unfold varDeclaration at read
  split at read
  · cases read
  · rename_i nameToken after
    split at read
    · rename_i identifier
      have seen : nameToken.piece = .name ⟨nameToken.lexeme, nameToken.line⟩ := if_pos identifier
      obtain ⟨⟨tree, unclosed⟩, inside, read⟩ := exists_of_bind_eq_ok read
      obtain ⟨last, closed, read⟩ := exists_of_bind_eq_ok read
      cases read
      unfold initializer at inside
      split at inside
      · cases inside
        cases closed
      · rename_i equalToken valueTokens
        split at inside
        · rename_i equal
          obtain ⟨⟨value, remaining⟩, valueRead, inside⟩ := exists_of_bind_eq_ok inside
          cases inside
          obtain ⟨written, fits⟩ := written_before_expect sound (by simp) valueRead closed
          have valueWritten := beginsWith_of_kind equal (by simp) written
          exact ⟨beginsWith_of_kind kind (by simp)
              (beginsWith_cons_iff.2 ⟨nameToken, _, rfl, seen, valueWritten⟩),
            by simp [Statement.trees, fits.respects], fits.nesting_lt⟩
        · cases inside
          have close := beginsWith_of_expect (by simp) closed
          exact ⟨beginsWith_of_kind kind (by simp)
              (beginsWith_cons_iff.2 ⟨nameToken, _, rfl, seen, close⟩),
            by simp [Statement.trees], positive⟩
    · cases read

/-- Statements in a row are written one after another, up to a token that stops them. -/
private theorem sound_statementsFrom
    {stops : Token → Bool}
    {bound : Nat}
    (positive : 0 < bound)
    {declaration : Advancing (Statement Expr)}
    (sound : SoundForStatements declaration.read bound)
    (found : List (Statement Expr))
    {unread rest : List Token}
    {result : Program}
    (read : statementsFrom stops declaration found unread = .ok (result, rest)) :
    ∃ others, result = found.reverse ++ others ∧ BeginsWith unread (Program.pieces others) rest ∧
      Program.Fits bound others ∧ ∀ token ∈ rest.head?, stops token = true := by
  fun_induction statementsFrom stops declaration found unread with
  | case1 =>
    cases read
    exact ⟨[], by simp, by simp [Program.pieces], Program.fits_nil positive, by simp⟩
  | case2 found token after stopped =>
    cases read
    exact ⟨[], by simp, by simp [Program.pieces], Program.fits_nil positive, by simpa⟩
  | case3 => cases read
  | case4 found token after _ statement remaining taken inductionHypothesis =>
    obtain ⟨others, rfl, written, fits, stopped⟩ := inductionHypothesis read
    obtain ⟨firstWritten, firstFits⟩ := sound taken
    exact ⟨statement :: others, by simp, beginsWith_append_iff.2 ⟨remaining, firstWritten, written⟩,
      Program.fits_cons_iff.2 ⟨firstFits, fits⟩, stopped⟩

private theorem sound_declaration
    {bound : Nat}
    (positive : 0 < bound)
    {reader : Reader Expr}
    {inBlock : Reader (Statement Expr)}
    (sound : Sound reader 0 bound)
    (soundInBlock : ∀ {token unread rest result}, token.kind = .symbol .leftBrace →
      inBlock unread = .ok (result, rest) →
        BeginsWith (token :: unread) result.pieces rest ∧ result.Fits bound) :
    SoundForStatements (declaration reader inBlock) bound := by
  intro unread rest result read
  unfold declaration at read
  split at read
  · exact sound_expressionStatement sound read
  · rename_i token after
    split at read
    · rename_i kind
      exact sound_varDeclaration positive sound kind read
    · rename_i kind
      exact sound_printStatement sound kind read
    · rename_i kind
      exact soundInBlock kind read
    · exact sound_expressionStatement sound read

private theorem sound_block
    {bound : Nat}
    (positive : 0 < bound)
    {declaration : Advancing (Statement Expr)}
    (sound : SoundForStatements declaration.read bound)
    {token : Token}
    (kind : token.kind = .symbol .leftBrace)
    {unread rest : List Token}
    {result : Statement Expr}
    (read : block declaration unread = .ok (result, rest)) :
    BeginsWith (token :: unread) result.pieces rest ∧ result.Fits (bound + 1) := by
  obtain ⟨⟨body, unclosed⟩, inside, read⟩ := exists_of_bind_eq_ok read
  obtain ⟨last, closed, read⟩ := exists_of_bind_eq_ok read
  cases read
  obtain ⟨others, rfl, written, fits, _⟩ := sound_statementsFrom positive sound [] inside
  have bodyWritten := beginsWith_append_iff.2
    ⟨unclosed, written, beginsWith_of_expect (by simp) closed⟩
  exact ⟨beginsWith_of_kind kind (by simp) bodyWritten,
    fits.respects, Nat.succ_lt_succ fits.nesting_lt⟩

/-- The reader of declarations is sound, and uses no more room than there is. -/
theorem sound_declarationAt (room : Nat) :
    SoundForStatements (declarationAt Expr.builder room).read (room + 1) := by
  induction room with
  | zero =>
    refine sound_declaration (Nat.zero_lt_succ _) (sound_expression 0) ?_
    intro token unread rest result _ read
    cases read
  | succ room inductionHypothesis =>
    refine sound_declaration (Nat.zero_lt_succ _) (sound_expression (room + 1)) ?_
    intro token unread rest result kind read
    exact sound_block (Nat.zero_lt_succ _) inductionHypothesis kind read

/-- The reader of programs takes all tokens. -/
theorem sound_program
    {tokens rest : List Token}
    {program : Program}
    (read : Grammar.program Expr.builder tokens = .ok (program, rest)) :
    tokens.map Token.piece = Program.pieces program ∧ Program.Fits (maxNesting + 1) program := by
  obtain ⟨others, rfl, ⟨taken, rfl, written⟩, fits, stopped⟩ :=
    sound_statementsFrom (Nat.zero_lt_succ _) (sound_declarationAt maxNesting) [] read
  cases rest with
  | nil => exact ⟨by simpa using written, fits⟩
  | cons token rest => simp at stopped

end Grammar

end Lox
