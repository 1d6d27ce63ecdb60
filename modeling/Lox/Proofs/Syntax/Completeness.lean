import Lox.Proofs.Syntax.Soundness

/-!
Contract: what is written can be read.

Owns:
- the tokens that an expression goes on with, by rank;
- the completeness of a reader: it reads back what is written with its pieces, or finds too much
  nesting if that is the case, and finds no other fault;
- the completeness of every reader of the grammar, by induction on the room for nesting and,
  within a chain, on its left side.

Does not own: token lists that are no writing of a tree.
-/

namespace Lox.Grammar

/-! ## Where expressions end -/

theorem endsAt_cons_of_infixRank?_eq_none
    {token : Token}
    (rank : Nat)
    (noInfix : infixRank? token.kind = none)
    (rest : List Token) :
    EndsAt rank (token :: rest) := by
  rw [endsAt_cons_iff, noInfix]
  intro found impossible
  cases impossible

theorem endsAt_cons_of_operator
    {token : Token}
    {operator : BinaryOp}
    (kind : token.kind = .symbol operator.symbol)
    (rest : List Token) :
    EndsAt (operator.level.rank + 1) (token :: rest) := by
  rw [endsAt_cons_iff, kind, infixRank?_symbol]
  rintro found ⟨⟩
  exact Nat.lt_succ_self _

theorem operatorAt?_eq_none_of_endsAt
    {level : Level}
    {token : Token}
    {rest : List Token}
    (ends : EndsAt level.rank (token :: rest)) :
    operatorAt? level token.kind = none := by
  rw [endsAt_cons_iff] at ends
  cases found : operatorAt? level token.kind with
  | none => rfl
  | some operator =>
    obtain ⟨kind, rfl⟩ := operatorAt?_eq_some_iff.1 found
    rw [kind, infixRank?_symbol] at ends
    exact absurd (ends _ rfl) (Nat.lt_irrefl _)

/-! ## Outcomes within the limit -/

/-- The outcome is the expected one if it fits, and a refusal of too much nesting if it does
not. -/
def Within {Result : Type} (fits : Prop) (outcome expected : Except Refusal Result) : Prop :=
  (fits → outcome = expected) ∧ (¬ fits → ∃ unread, outcome = .error ⟨.tooMuchNesting, unread⟩)

theorem Within.refl {Result : Type} (outcome : Except Refusal Result) :
    Within True outcome outcome :=
  ⟨fun _ => rfl, fun no => absurd trivial no⟩

theorem Within.congr
    {Result : Type}
    {fits others : Prop}
    {outcome expected : Except Refusal Result}
    (within : Within fits outcome expected)
    (same : others ↔ fits) :
    Within others outcome expected :=
  ⟨fun good => within.1 (same.1 good), fun bad => within.2 (fun good => bad (same.2 good))⟩

/-- A step that leads on and one that is reached after it. -/
theorem Within.trans
    {Result : Type}
    {first second : Prop}
    {outcome middle expected : Except Refusal Result}
    (leads : Within first outcome middle)
    (goesOn : first → Within second middle expected) :
    Within (first ∧ second) outcome expected := by
  refine ⟨fun ⟨one, two⟩ => (leads.1 one).trans ((goesOn one).1 two), fun no => ?_⟩
  by_cases one : first
  · obtain ⟨unread, found⟩ := (goesOn one).2 (fun two => no ⟨one, two⟩)
    exact ⟨unread, (leads.1 one).trans found⟩
  · exact leads.2 one

/-- A step within the limit and one after it that is sure to give what is expected. -/
theorem Within.bind
    {Middle Result : Type}
    {fits : Prop}
    {first : Except Refusal Middle}
    {middle : Middle}
    {next : Middle → Except Refusal Result}
    {expected : Except Refusal Result}
    (within : Within fits first (.ok middle))
    (reached : next middle = expected) :
    Within fits (first >>= next) expected := by
  refine ⟨fun good => ?_, fun bad => ?_⟩
  · rw [within.1 good]
    exact reached
  · obtain ⟨unread, found⟩ := within.2 bad
    exact ⟨unread, by rw [found]; rfl⟩

/-- The reader reads back every expression of the rank that is followed by nothing that it goes
on with, if the nesting is below the bound; otherwise it finds too much nesting. -/
def Complete (reader : Reader Expr) (rank bound : Nat) : Prop :=
  ∀ {tree : Expr} {unread rest : List Token}, rank ≤ tree.rank → tree.RespectsPrecedence →
    BeginsWith unread tree.pieces rest → EndsAt rank rest →
      Within (tree.nesting < bound) (reader unread) (.ok (tree, rest))

theorem complete_refuse (rank : Nat) : Complete (refuse .tooMuchNesting) rank 0 := by
  intro tree unread rest _ _ _ _
  exact ⟨fun impossible => absurd impossible (Nat.not_lt_zero _), fun _ => ⟨unread, rfl⟩⟩

theorem ok_bind
    {Middle Result : Type}
    (middle : Middle)
    (next : Middle → Except Refusal Result) :
    (Except.ok middle >>= next) = next middle := rfl

theorem expect_of_beginsWith
    {kind : TokenKind}
    {fault : SyntaxFault}
    {unread rest : List Token}
    (written : BeginsWith unread [.mark kind] rest) :
    expect kind fault unread = .ok rest := by
  obtain ⟨token, others, rfl, seen, last⟩ := beginsWith_cons_iff.1 written
  rw [expect, if_pos (Token.kind_of_piece_eq_mark seen).1, beginsWith_nil_iff.1 last]

/-! ## Operands -/

/-- The readers one level deeper are complete for what nests less than the bound. -/
structure CompleteWithin (bound : Nat) (deeper : Readers Expr) : Prop where
  operand : Complete deeper.operand unaryRank bound
  expression : Complete deeper.expression 0 bound

private theorem primary_literal
    {deeper : Readers Expr}
    {token : Token}
    {value : Value}
    {rest : List Token}
    (kind : token.kind = value.kind) :
    primary Expr.builder deeper (token :: rest) = .ok (.literal value, rest) := by
  unfold primary
  cases value with
  | boolean truth => cases truth <;> simp [kind, Value.kind, Expr.builder]
  | _ => simp [kind, Value.kind, Expr.builder]

private theorem primary_identifier
    {deeper : Readers Expr}
    {name : Name}
    {rest : List Token} :
    primary Expr.builder deeper (name.token :: rest) = .ok (.reference name, rest) :=
  rfl

private theorem operand_eq_primary
    {deeper : Readers Expr}
    {token : Token}
    {rest : List Token}
    (noUnary : UnaryOp.ofKind? token.kind = none) :
    operand Expr.builder deeper (token :: rest) = primary Expr.builder deeper (token :: rest) := by
  simp only [operand, noUnary]

private theorem complete_operand
    {bound : Nat}
    {deeper : Readers Expr}
    (complete : CompleteWithin bound deeper) :
    Complete (operand Expr.builder deeper) unaryRank (bound + 1) := by
  intro tree unread rest rank respects written ends
  cases tree with
  | literal value =>
    obtain ⟨token, others, rfl, seen, last⟩ := beginsWith_cons_iff.1 written
    obtain rfl := beginsWith_nil_iff.1 last
    have kind := (Token.kind_of_piece_eq_mark seen).1
    have noUnary : UnaryOp.ofKind? token.kind = none := by
      rw [kind]
      cases value with
      | boolean truth => cases truth <;> rfl
      | _ => rfl
    rw [operand_eq_primary noUnary, primary_literal kind]
    exact (Within.refl _).congr (by simp [Expr.nesting])
  | reference name =>
    obtain ⟨token, others, rfl, seen, last⟩ := beginsWith_cons_iff.1 written
    obtain rfl := beginsWith_nil_iff.1 last
    obtain rfl := Token.piece_eq_name_iff.1 seen
    rw [operand_eq_primary rfl, primary_identifier]
    exact (Within.refl _).congr (by simp [Expr.nesting])
  | grouping inner =>
    obtain ⟨token, others, rfl, seen, inside⟩ := beginsWith_cons_iff.1 written
    obtain ⟨unclosed, innerWritten, closed⟩ := beginsWith_append_iff.1 inside
    obtain ⟨close, last, rfl, closeSeen, _⟩ := beginsWith_cons_iff.1 closed
    have kind := (Token.kind_of_piece_eq_mark seen).1
    have closeKind := (Token.kind_of_piece_eq_mark closeSeen).1
    rw [operand_eq_primary (by rw [kind]; rfl)]
    simp only [primary, kind]
    have innerRespects : inner.RespectsPrecedence := respects
    have innerRead := complete.expression (Nat.zero_le _) innerRespects innerWritten
      (endsAt_cons_of_infixRank?_eq_none 0 (by rw [closeKind]; rfl) last)
    refine (innerRead.bind ?_).congr (by simp [Expr.nesting])
    simp only [expect_of_beginsWith closed]
    rfl
  | unary operator operandTree =>
    obtain ⟨token, others, rfl, seen, inside⟩ := beginsWith_cons_iff.1 written
    have kind := (Token.kind_of_piece_eq_mark seen).1
    have known := UnaryOp.ofKind?_eq_some_iff.2 kind
    have inner := complete.operand respects.1 respects.2 inside ends
    simp only [operand, known]
    exact (inner.bind rfl).congr (by simp [Expr.nesting])
  | binary left operator right =>
    exact absurd rank (Nat.not_le_of_lt operator.level.rank_lt_unaryRank)
  | assign name value => exact absurd rank (by simp [Expr.rank, unaryRank])

/-! ## Chains of operators -/

/-- What the grammar does with the next operator of a chain when there is room for it. -/
private theorem chainFrom_operator
    {next : Reader Expr}
    {left right : Expr}
    {operator : BinaryOp}
    {token : Token}
    {unread rest : List Token}
    {room bound : Nat}
    (kind : token.kind = .symbol operator.symbol)
    (read : Within (right.nesting < bound) (next unread) (.ok (right, rest))) :
    Within (0 < room ∧ right.nesting < bound)
      (chainFrom Expr.builder operator.level next room left (token :: unread))
      (chainFrom Expr.builder operator.level next (room - 1) (.binary left operator right)
        rest) := by
  have found := operatorAt?_eq_some_iff.2 ⟨kind, rfl⟩
  cases room with
  | zero =>
    refine ⟨fun ⟨impossible, _⟩ => absurd impossible (Nat.lt_irrefl 0), fun _ => ⟨unread, ?_⟩⟩
    simp only [chainFrom, found, refuse]
  | succ room =>
    simp only [chainFrom, found, Nat.add_sub_cancel]
    exact (read.bind rfl).congr (by simp)

/-- Reading a chain of a level comes, after the tokens of a left side of it, to the place where
the chain goes on with that left side and the room that its operators have left. -/
private theorem chain_leads_to
    (level : Level)
    {room : Nat}
    {next : Reader Expr}
    (complete : Complete next (level.rank + 1) (room + 1))
    (tree : Expr)
    (rank : level.rank ≤ tree.rank)
    (respects : tree.RespectsPrecedence)
    {unread rest : List Token}
    (written : BeginsWith unread tree.pieces rest)
    (ends : EndsAt (level.rank + 1) rest) :
    Within (tree.nesting < room + 1) (chain Expr.builder level room next unread)
      (chainFrom Expr.builder level next (room - tree.chainLength level) tree rest) := by
  induction tree generalizing unread rest with
  | binary left operator right leftHypothesis _ =>
    rcases Nat.lt_or_eq_of_le rank with higher | same
    · rw [Expr.chainLength_of_rank_ne (Nat.ne_of_gt higher)]
      exact (complete higher respects written ends).bind rfl
    · obtain rfl := Level.rank_injective same
      obtain ⟨middle, leftWritten, others⟩ := beginsWith_append_iff.1 written
      obtain ⟨token, after, rfl, seen, rightWritten⟩ := beginsWith_cons_iff.1 others
      have kind := (Token.kind_of_piece_eq_mark seen).1
      obtain ⟨⟨leftRank, leftRespects⟩, rightRank, rightRespects⟩ := respects
      have leftRead := leftHypothesis leftRank leftRespects leftWritten
        (endsAt_cons_of_operator kind after)
      have rightRead := complete rightRank rightRespects rightWritten ends
      have leftChain := left.chainLength_le_nesting operator.level
      have longer : (Expr.binary left operator right).chainLength operator.level =
          left.chainLength operator.level + 1 := if_pos rfl
      rw [longer, ← Nat.sub_sub]
      refine (leftRead.trans fun _ => chainFrom_operator kind rightRead).congr ?_
      simp only [Expr.nesting]
      omega
  | _ =>
    have higher : level.rank + 1 ≤ _ := Nat.lt_of_le_of_ne rank fun same => by
      obtain ⟨_, _, _, impossible, _⟩ := Expr.exists_binary_of_rank_eq same.symm
      cases impossible
    rw [Expr.chainLength_of_rank_ne (Nat.ne_of_gt higher)]
    exact (complete higher respects written ends).bind rfl

private theorem complete_chain
    (level : Level)
    {room : Nat}
    {next : Reader Expr}
    (complete : Complete next (level.rank + 1) (room + 1)) :
    Complete (chain Expr.builder level room next) level.rank (room + 1) := by
  intro tree unread rest rank respects written ends
  have leads := chain_leads_to level complete tree rank respects written
    (ends.mono (Nat.le_succ _))
  have stops : chainFrom Expr.builder level next (room - tree.chainLength level) tree rest =
      .ok (tree, rest) := by
    cases rest with
    | nil => simp [chainFrom]
    | cons token rest => simp [chainFrom, operatorAt?_eq_none_of_endsAt ends]
  rwa [stops] at leads

private theorem complete_equality
    {room : Nat}
    {deeper : Readers Expr}
    (complete : CompleteWithin room deeper) :
    Complete (equality Expr.builder room deeper) Level.equality.rank (room + 1) :=
  complete_chain .equality <| complete_chain .comparison <| complete_chain .term <|
    complete_chain .factor <| complete_operand complete

/-! ## Assignments -/

private theorem reads_target
    {room : Nat}
    {deeper : Readers Expr}
    (complete : CompleteWithin room deeper)
    {target equal : Token}
    {name : Name}
    (seen : target.piece = .name name)
    (kind : equal.kind = .symbol .equal)
    (rest : List Token) :
    equality Expr.builder room deeper (target :: equal :: rest) =
      .ok (.reference name, equal :: rest) := by
  have written : BeginsWith (target :: equal :: rest) (Expr.reference name).pieces
      (equal :: rest) :=
    beginsWith_cons_iff.2 ⟨target, _, rfl, seen, beginsWith_nil_iff.2 rfl⟩
  have ends : EndsAt Level.equality.rank (equal :: rest) := by
    rw [endsAt_cons_iff, infixRank?, if_pos kind]
    rintro found ⟨⟩
    exact Level.rank_pos _
  have rank : Level.equality.rank ≤ (Expr.reference name).rank :=
    (by decide : 1 ≤ primaryRank)
  exact (complete_equality complete rank trivial written ends).1 (Nat.zero_lt_succ _)

private theorem complete_assignment
    {room : Nat}
    {deeper : Readers Expr}
    (complete : CompleteWithin room deeper) :
    Complete (assignment Expr.builder room deeper) 0 (room + 1) := by
  intro tree unread rest rank respects written ends
  rcases Nat.eq_zero_or_pos tree.rank with assigned | positive
  · obtain ⟨name, value, rfl⟩ := Expr.exists_assign_of_rank_eq_zero assigned
    obtain ⟨target, others, rfl, targetSeen, inside⟩ := beginsWith_cons_iff.1 written
    obtain ⟨equal, after, rfl, equalSeen, valueWritten⟩ := beginsWith_cons_iff.1 inside
    have kind := (Token.kind_of_piece_eq_mark equalSeen).1
    have valueRespects : value.RespectsPrecedence := respects
    have targetRead := reads_target complete targetSeen kind after
    have valueRead := complete.expression (Nat.zero_le _) valueRespects valueWritten ends
    simp only [assignment, targetRead, ok_bind, if_pos kind]
    exact (valueRead.bind rfl).congr (by simp [Expr.nesting])
  · refine (complete_equality complete positive respects written
      (ends.mono (Nat.zero_le _))).bind ?_
    cases rest with
    | nil => rfl
    | cons token rest =>
      simp only [if_neg (endsAt_zero_iff.1 ends token rfl).1]
      rfl

/-! ## Nesting -/

private theorem completeWithin_readers (room : Nat) :
    CompleteWithin (room + 1) (readers Expr.builder room) := by
  induction room with
  | zero =>
    have complete : CompleteWithin 0 ⟨refuse .tooMuchNesting, refuse .tooMuchNesting⟩ :=
      ⟨complete_refuse _, complete_refuse _⟩
    exact ⟨complete_operand complete, complete_assignment complete⟩
  | succ room inductionHypothesis =>
    exact ⟨complete_operand inductionHypothesis, complete_assignment inductionHypothesis⟩

/-- The reader of expressions is complete for what nests no deeper than there is room. -/
theorem complete_expression (room : Nat) :
    Complete (expression Expr.builder room) 0 (room + 1) :=
  (completeWithin_readers room).expression

/-! ## Statements -/

/-- The reader reads back every statement, if the nesting is below the bound; otherwise it finds
too much nesting. -/
def CompleteForStatements (reader : Reader (Statement Expr)) (bound : Nat) : Prop :=
  ∀ {statement : Statement Expr} {unread rest : List Token},
    (∀ tree ∈ statement.trees, tree.RespectsPrecedence) →
    BeginsWith unread statement.pieces rest →
      Within (statement.nesting < bound) (reader unread) (.ok (statement, rest))

/-- An expression begins with no token that begins another kind of statement or ends a block. -/
theorem exists_first_of_pieces (tree : Expr) :
    ∃ first others, tree.pieces = first :: others ∧ first ≠ .mark (.keyword .varWord) ∧
      first ≠ .mark (.keyword .printWord) ∧ first ≠ .mark (.symbol .leftBrace) ∧
      first ≠ .mark (.symbol .rightBrace) := by
  induction tree with
  | literal value =>
    cases value with
    | boolean truth => cases truth <;> exact ⟨_, _, rfl, by simp [Value.kind]⟩
    | _ => exact ⟨_, _, rfl, by simp [Value.kind]⟩
  | unary operator operand _ =>
    cases operator <;> exact ⟨_, _, rfl, by simp [UnaryOp.symbol]⟩
  | binary left operator right leftHypothesis _ =>
    obtain ⟨first, others, pieces, starts⟩ := leftHypothesis
    exact ⟨first, _, by rw [Expr.pieces, pieces]; rfl, starts⟩
  | _ => exact ⟨_, _, rfl, by simp⟩

theorem exists_first_of_statement_pieces (statement : Statement Expr) :
    ∃ first others, statement.pieces = first :: others ∧
      first ≠ .mark (.symbol .rightBrace) := by
  cases statement with
  | expression tree =>
    obtain ⟨first, others, pieces, _, _, _, noBrace⟩ := exists_first_of_pieces tree
    exact ⟨first, _, by rw [Statement.pieces, pieces]; rfl, noBrace⟩
  | var name initializer => cases initializer <;> exact ⟨_, _, rfl, by simp⟩
  | _ => exact ⟨_, _, rfl, by simp⟩

/-- After an expression and a semicolon, where a semicolon is expected. -/
private theorem reads_until_semicolon
    {Result : Type}
    {bound : Nat}
    {reader : Reader Expr}
    (complete : Complete reader 0 bound)
    {tree : Expr}
    (respects : tree.RespectsPrecedence)
    {unread rest : List Token}
    (written : BeginsWith unread (tree.pieces ++ [.mark (.symbol .semicolon)]) rest)
    (fault : SyntaxFault)
    (build : Expr → Result) :
    Within (tree.nesting < bound)
      (do
        let (tree, rest) ← reader unread
        let rest ← expect (.symbol .semicolon) fault rest
        return (build tree, rest))
      (.ok (build tree, rest)) := by
  obtain ⟨unclosed, treeWritten, closed⟩ := beginsWith_append_iff.1 written
  obtain ⟨close, last, rfl, closeSeen, _⟩ := beginsWith_cons_iff.1 closed
  have closeKind := (Token.kind_of_piece_eq_mark closeSeen).1
  have treeRead := complete (Nat.zero_le _) respects treeWritten
    (endsAt_cons_of_infixRank?_eq_none 0 (by rw [closeKind]; rfl) last)
  refine treeRead.bind ?_
  simp only [expect_of_beginsWith closed]
  rfl

private theorem complete_varDeclaration
    {bound : Nat}
    (positive : 0 < bound)
    {reader : Reader Expr}
    (complete : Complete reader 0 bound)
    {name : Name}
    {value : Option Expr}
    (respects : ∀ tree ∈ value, tree.RespectsPrecedence)
    {token : Token}
    {unread rest : List Token}
    (written : BeginsWith (token :: unread) (Statement.var name value).pieces rest) :
    Within ((Statement.var name value).nesting < bound) (varDeclaration reader unread)
      (.ok (.var name value, rest)) := by
  cases value with
  | none =>
    obtain ⟨_, _, same, _, afterVar⟩ := beginsWith_cons_iff.1 written
    cases same
    obtain ⟨nameToken, afterName, rfl, nameSeen, closed⟩ := beginsWith_cons_iff.1 afterVar
    obtain rfl := Token.piece_eq_name_iff.1 nameSeen
    obtain ⟨close, last, rfl, closeSeen, _⟩ := beginsWith_cons_iff.1 closed
    have closeKind := (Token.kind_of_piece_eq_mark closeSeen).1
    have noEqual : close.kind ≠ .symbol .equal := by
      rw [closeKind]
      simp
    have read : varDeclaration reader (name.token :: close :: last) =
        .ok (.var name none, rest) := by
      simp only [varDeclaration, Name.token, initializer, if_neg noEqual, ok_bind,
        expect_of_beginsWith closed]
      rfl
    rw [read]
    exact (Within.refl _).congr (by simp [Statement.nesting, positive])
  | some tree =>
    obtain ⟨_, _, same, _, afterVar⟩ := beginsWith_cons_iff.1 written
    cases same
    obtain ⟨nameToken, afterName, rfl, nameSeen, assigned⟩ := beginsWith_cons_iff.1 afterVar
    obtain rfl := Token.piece_eq_name_iff.1 nameSeen
    obtain ⟨equal, after, rfl, equalSeen, treeWritten⟩ := beginsWith_cons_iff.1 assigned
    have equalKind := (Token.kind_of_piece_eq_mark equalSeen).1
    have read := reads_until_semicolon complete (respects tree rfl) treeWritten
      .expectedSemicolonAfterVarDeclaration fun tree => Statement.var name (some tree)
    simp only [varDeclaration, Name.token, initializer, if_pos equalKind, bind_assoc, pure_bind]
    exact read

/-- Statements in a row are read one after another, up to a token that stops them. -/
private theorem complete_statementsFrom
    (stops : Token → Bool)
    (stopsAtBrace : ∀ token, stops token = true → token.kind = .symbol .rightBrace)
    {bound : Nat}
    (positive : 0 < bound)
    {declaration : Advancing (Statement Expr)}
    (complete : CompleteForStatements declaration.read bound)
    (body found : List (Statement Expr))
    (respects : ∀ tree ∈ Program.trees body, tree.RespectsPrecedence)
    {unread rest : List Token}
    (written : BeginsWith unread (Program.pieces body) rest)
    (stopped : ∀ token ∈ rest.head?, stops token = true) :
    Within (Program.nesting body < bound) (statementsFrom stops declaration found unread)
      (.ok (found.reverse ++ body, rest)) := by
  induction body generalizing found unread with
  | nil =>
    obtain rfl := beginsWith_nil_iff.1 written
    have read : statementsFrom stops declaration found unread =
        .ok (found.reverse ++ [], unread) := by
      rw [statementsFrom_of_stops stopped, List.append_nil]
    rw [read]
    exact (Within.refl _).congr (by simp [Program.nesting, positive])
  | cons statement others inductionHypothesis =>
    obtain ⟨middle, firstWritten, othersWritten⟩ := beginsWith_append_iff.1 written
    have firstRead := complete (fun tree member => respects tree
      (List.mem_append_left _ member)) firstWritten
    have othersRead := inductionHypothesis (statement :: found) (fun tree member =>
      respects tree (List.mem_append_right _ member)) othersWritten
    obtain ⟨first, pieces, same, noBrace⟩ := exists_first_of_statement_pieces statement
    rw [same] at firstWritten
    obtain ⟨token, after, rfl, seen, _⟩ := beginsWith_cons_iff.1 firstWritten
    have goesOn : ¬ stops token = true := fun stop => noBrace
      (seen ▸ Token.piece_of_kind_eq (stopsAtBrace token stop) (by simp))
    rw [List.reverse_cons, List.append_assoc, List.singleton_append] at othersRead
    rw [statementsFrom_of_goesOn goesOn]
    refine ((firstRead.bind rfl).trans fun _ => othersRead).congr ?_
    simp only [Program.nesting]
    omega

private theorem complete_declaration
    {bound : Nat}
    (positive : 0 < bound)
    {reader : Reader Expr}
    {inBlock : Reader (Statement Expr)}
    (complete : Complete reader 0 bound)
    (completeInBlock : ∀ {body unread rest},
      (∀ tree ∈ Program.trees body, tree.RespectsPrecedence) →
      BeginsWith unread (Program.pieces body ++ [.mark (.symbol .rightBrace)]) rest →
        Within (Program.nesting body + 1 < bound) (inBlock unread) (.ok (.block body, rest))) :
    CompleteForStatements (declaration reader inBlock) bound := by
  intro statement unread rest respects written
  cases statement with
  | expression tree =>
    obtain ⟨first, others, pieces, noVar, noPrint, noBrace, _⟩ := exists_first_of_pieces tree
    have treeRead := reads_until_semicolon complete (respects tree (by simp [Statement.trees]))
      written .expectedSemicolonAfterExpression Statement.expression
    rw [Statement.pieces, pieces] at written
    obtain ⟨token, after, rfl, seen, _⟩ := beginsWith_cons_iff.1 written
    have read : declaration reader inBlock (token :: after) =
        expressionStatement reader (token :: after) := by
      unfold declaration
      dsimp only
      split
      · rename_i kind
        exact absurd (seen ▸ Token.piece_of_kind_eq kind (by simp)) noVar
      · rename_i kind
        exact absurd (seen ▸ Token.piece_of_kind_eq kind (by simp)) noPrint
      · rename_i kind
        exact absurd (seen ▸ Token.piece_of_kind_eq kind (by simp)) noBrace
      · rfl
    rw [read]
    exact treeRead
  | print tree =>
    obtain ⟨token, after, rfl, seen, treeWritten⟩ := beginsWith_cons_iff.1 written
    have kind := (Token.kind_of_piece_eq_mark seen).1
    have treeRead := reads_until_semicolon complete (respects tree (by simp [Statement.trees]))
      treeWritten .expectedSemicolonAfterValue Statement.print
    simp only [declaration, kind]
    exact treeRead
  | var name value =>
    have valueRespects : ∀ tree ∈ value, tree.RespectsPrecedence := by
      rintro tree rfl
      exact respects tree (by simp [Statement.trees])
    have first : ∃ others, (Statement.var name value).pieces =
        .mark (.keyword .varWord) :: others := by
      cases value <;> exact ⟨_, rfl⟩
    obtain ⟨others, pieces⟩ := first
    rw [pieces] at written
    obtain ⟨token, after, rfl, seen, _⟩ := beginsWith_cons_iff.1 written
    have kind := (Token.kind_of_piece_eq_mark seen).1
    rw [← pieces] at written
    simp only [declaration, kind]
    exact complete_varDeclaration positive complete valueRespects written
  | block body =>
    obtain ⟨token, after, rfl, seen, bodyWritten⟩ := beginsWith_cons_iff.1 written
    have kind := (Token.kind_of_piece_eq_mark seen).1
    simp only [declaration, kind]
    exact completeInBlock respects bodyWritten

private theorem complete_block
    {bound : Nat}
    (positive : 0 < bound)
    {declaration : Advancing (Statement Expr)}
    (complete : CompleteForStatements declaration.read bound)
    {body : Program}
    (respects : ∀ tree ∈ Program.trees body, tree.RespectsPrecedence)
    {unread rest : List Token}
    (written : BeginsWith unread (Program.pieces body ++ [.mark (.symbol .rightBrace)]) rest) :
    Within (Program.nesting body + 1 < bound + 1) (block declaration unread)
      (.ok (.block body, rest)) := by
  obtain ⟨unclosed, bodyWritten, closed⟩ := beginsWith_append_iff.1 written
  have stopped : ∀ token ∈ unclosed.head?, endsBlock token = true := by
    obtain ⟨close, last, rfl, closeSeen, _⟩ := beginsWith_cons_iff.1 closed
    intro token member
    cases member
    exact decide_eq_true (Token.kind_of_piece_eq_mark closeSeen).1
  have bodyRead := complete_statementsFrom endsBlock (fun _ => of_decide_eq_true) positive complete
    body [] respects bodyWritten stopped
  refine (bodyRead.bind ?_).congr Nat.succ_lt_succ_iff
  simp only [List.reverse_nil, List.nil_append, expect_of_beginsWith closed]
  rfl

/-- The reader of declarations is complete for what nests no deeper than there is room. -/
theorem complete_declarationAt (room : Nat) :
    CompleteForStatements (declarationAt Expr.builder room).read (room + 1) := by
  induction room with
  | zero =>
    refine complete_declaration (Nat.zero_lt_succ _) (complete_expression 0) ?_
    intro body unread rest _ _
    exact ⟨fun impossible => by omega, fun _ => ⟨unread, rfl⟩⟩
  | succ room inductionHypothesis =>
    refine complete_declaration (Nat.zero_lt_succ _) (complete_expression (room + 1)) ?_
    intro body unread rest respects written
    exact complete_block (Nat.zero_lt_succ _) inductionHypothesis respects written

/-- The reader of programs reads back every program that is within the limit of nesting, and
finds too much nesting in every other. -/
theorem complete_program
    {tokens : List Token}
    {program : Program}
    (respects : ∀ tree ∈ Program.trees program, tree.RespectsPrecedence)
    (written : tokens.map Token.piece = Program.pieces program) :
    Within (Program.nesting program ≤ maxNesting) (Grammar.program Expr.builder tokens)
      (.ok (program, [])) := by
  have read := complete_statementsFrom (fun _ => false) (fun _ impossible => by cases impossible)
    (Nat.zero_lt_succ _) (complete_declarationAt maxNesting) program [] respects
    ⟨tokens, (List.append_nil _).symm, written⟩ (by simp)
  exact read.congr Nat.lt_succ_iff.symm

end Lox.Grammar
