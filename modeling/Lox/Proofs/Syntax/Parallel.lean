import Lox.Syntax.Parsed
import Mathlib.Data.List.Forall2

/-!
Contract: two readers on two token lists.

Owns:
- parallels, which relate tokens, trees and statements of two builders, closed under building;
- that every reader of the grammar keeps a parallel: it comes to related results, or to the same
  fault at the same place;
- what this says of whole inputs.

Does not own: which tokens and trees are related.
-/

namespace Lox.Grammar

/-- A relation between what two builders read and build.  The left side may have excused faults,
after which nothing is said about the right side. -/
structure Parallel
    {Left Right : Type}
    (left : Builder Left)
    (right : Builder Right) where
  tokens : Token → Token → Prop
  trees : Left → Right → Prop
  statements : Statement Left → Statement Right → Prop
  excused : SyntaxFault → Prop
  kind_eq {token other : Token} : tokens token other → token.kind = other.kind
  literal (value : Value) : trees (left.literal value) (right.literal value)
  reference {token other : Token} :
    tokens token other →
      trees (left.reference ⟨token.lexeme, token.line⟩) (right.reference ⟨other.lexeme, other.line⟩)
  grouping {inner : Left} {otherInner : Right} :
    trees inner otherInner → trees (left.grouping inner) (right.grouping otherInner)
  unary (operator : UnaryOp) {operand : Left} {otherOperand : Right} :
    trees operand otherOperand →
      trees (left.unary operator operand) (right.unary operator otherOperand)
  binary (operator : BinaryOp) {first second : Left} {otherFirst otherSecond : Right} :
    trees first otherFirst → trees second otherSecond →
      trees (left.binary first operator second) (right.binary otherFirst operator otherSecond)
  assign {target value : Left} {otherTarget otherValue : Right} {unread others : List Token} :
    trees target otherTarget → trees value otherValue → List.Forall₂ tokens unread others →
      (∃ tree other, left.assign target unread value = some tree ∧
        right.assign otherTarget others otherValue = some other ∧ trees tree other) ∨
      (left.assign target unread value = none ∧
        (excused .invalidAssignmentTarget ∨ right.assign otherTarget others otherValue = none))
  expression {tree : Left} {other : Right} :
    trees tree other → statements (.expression tree) (.expression other)
  print {tree : Left} {other : Right} :
    trees tree other → statements (.print tree) (.print other)
  declared {token other : Token} :
    tokens token other →
      statements (.var ⟨token.lexeme, token.line⟩ none) (.var ⟨other.lexeme, other.line⟩ none)
  initialized {token other : Token} {tree : Left} {otherTree : Right} :
    tokens token other → trees tree otherTree →
      statements (.var ⟨token.lexeme, token.line⟩ (some tree))
        (.var ⟨other.lexeme, other.line⟩ (some otherTree))
  block {body : List (Statement Left)} {otherBody : List (Statement Right)} :
    List.Forall₂ statements body otherBody → statements (.block body) (.block otherBody)

namespace Parallel

variable {Left Right : Type} {left : Builder Left} {right : Builder Right}
variable (parallel : Parallel left right)

/-! ## Outcomes -/

/-- The two outcomes are related results, or refusals with the same fault at related tokens, or
the left one has an excused fault. -/
inductive Outcome {First Second : Type} (results : First → Second → Prop) :
    Except Refusal First → Except Refusal Second → Prop where
  | accepted
    {result : First}
    {other : Second}
    (related : results result other) :
    Outcome results (.ok result) (.ok other)
  | refused
    (fault : SyntaxFault)
    {unread others : List Token}
    (related : List.Forall₂ parallel.tokens unread others) :
    Outcome results (.error ⟨fault, unread⟩) (.error ⟨fault, others⟩)
  | excused
    {refusal : Refusal}
    (isExcused : parallel.excused refusal.fault)
    (other : Except Refusal Second) :
    Outcome results (.error refusal) other

variable {parallel}

theorem Outcome.bind
    {First Second FirstResult SecondResult : Type}
    {middles : First → Second → Prop}
    {results : FirstResult → SecondResult → Prop}
    {outcome : Except Refusal First}
    {other : Except Refusal Second}
    {next : First → Except Refusal FirstResult}
    {otherNext : Second → Except Refusal SecondResult}
    (outcomes : parallel.Outcome middles outcome other)
    (nexts : ∀ middle otherMiddle, middles middle otherMiddle →
      parallel.Outcome results (next middle) (otherNext otherMiddle)) :
    parallel.Outcome results (outcome >>= next) (other >>= otherNext) := by
  cases outcomes with
  | accepted related => exact nexts _ _ related
  | refused fault related => exact .refused fault related
  | excused isExcused other => exact .excused isExcused _

variable (parallel)

/-- Results before related tokens. -/
def Found
    {First Second : Type}
    (results : First → Second → Prop)
    (found : First × List Token)
    (other : Second × List Token) : Prop :=
  results found.1 other.1 ∧ List.Forall₂ parallel.tokens found.2 other.2

/-- On related tokens the readers come to related results before related tokens, or to the same
fault at related tokens. -/
def Keeps
    {First Second : Type}
    (results : First → Second → Prop)
    (reader : Reader First)
    (other : Reader Second) : Prop :=
  ∀ ⦃unread others : List Token⦄, List.Forall₂ parallel.tokens unread others →
    parallel.Outcome (parallel.Found results) (reader unread) (other others)

variable {parallel}

theorem keeps_refuse
    {First Second : Type}
    (results : First → Second → Prop)
    (fault : SyntaxFault) :
    parallel.Keeps results (refuse fault) (refuse fault) :=
  fun _ _ related => .refused fault related

theorem outcome_expect
    (kind : TokenKind)
    (fault : SyntaxFault)
    {unread others : List Token}
    (related : List.Forall₂ parallel.tokens unread others) :
    parallel.Outcome (List.Forall₂ parallel.tokens) (expect kind fault unread)
      (expect kind fault others) := by
  cases related with
  | nil => exact .refused fault .nil
  | cons first rest =>
    rw [expect, expect, ← parallel.kind_eq first]
    split
    · exact .accepted rest
    · exact .refused fault (.cons first rest)

/-- A token is expected after the results, which are then put together. -/
theorem Keeps.closed
    {First Second FirstResult SecondResult : Type}
    {middles : First → Second → Prop}
    {results : FirstResult → SecondResult → Prop}
    {reader : Reader First}
    {other : Reader Second}
    {build : First → FirstResult}
    {otherBuild : Second → SecondResult}
    (keeps : parallel.Keeps middles reader other)
    (kind : TokenKind)
    (fault : SyntaxFault)
    (built : ∀ middle otherMiddle, middles middle otherMiddle →
      results (build middle) (otherBuild otherMiddle)) :
    parallel.Keeps results
      (fun unread => do
        let (middle, rest) ← reader unread
        let rest ← expect kind fault rest
        return (build middle, rest))
      (fun unread => do
        let (middle, rest) ← other unread
        let rest ← expect kind fault rest
        return (otherBuild middle, rest)) := by
  intro unread others related
  refine (keeps related).bind fun middle otherMiddle found => ?_
  refine (outcome_expect kind fault found.2).bind fun rest otherRest rests => ?_
  exact .accepted ⟨built _ _ found.1, rests⟩

/-! ## Operands -/

/-- The readers one level deeper keep the parallel. -/
structure KeptBy
    (parallel : Parallel left right)
    (deeper : Readers Left)
    (otherDeeper : Readers Right) : Prop where
  operand : parallel.Keeps parallel.trees deeper.operand otherDeeper.operand
  expression : parallel.Keeps parallel.trees deeper.expression otherDeeper.expression

section Expressions

variable {deeper : Readers Left} {otherDeeper : Readers Right}

private theorem keeps_primary (kept : KeptBy parallel deeper otherDeeper) :
    parallel.Keeps parallel.trees (primary left deeper) (primary right otherDeeper) := by
  intro unread others related
  cases related with
  | nil => exact .refused .expectedExpression .nil
  | @cons token other _ _ first rest =>
    have grouped := kept.expression.closed (.symbol .rightParen) .missingRightParen
      (fun _ _ => parallel.grouping) rest
    have sameKind := parallel.kind_eq first
    unfold primary
    dsimp only
    rw [← sameKind]
    split
    case h_7 => exact grouped
    case h_6 => exact .accepted ⟨parallel.reference first, rest⟩
    case h_8 => exact .refused .expectedExpression (.cons first rest)
    all_goals exact .accepted ⟨parallel.literal _, rest⟩

private theorem keeps_operand (kept : KeptBy parallel deeper otherDeeper) :
    parallel.Keeps parallel.trees (operand left deeper) (operand right otherDeeper) := by
  intro unread others related
  cases related with
  | nil => exact keeps_primary kept .nil
  | @cons token other _ _ first rest =>
    unfold operand
    dsimp only
    rw [← parallel.kind_eq first]
    split
    · refine (kept.operand rest).bind fun inner otherInner found => ?_
      exact .accepted ⟨parallel.unary _ found.1, found.2⟩
    · exact keeps_primary kept (.cons first rest)

/-! ## Chains of operators -/

private theorem keeps_chainFrom
    (level : Level)
    {next : Reader Left}
    {otherNext : Reader Right}
    (kept : parallel.Keeps parallel.trees next otherNext)
    (room : Nat)
    {tree : Left}
    {other : Right}
    (related : parallel.trees tree other) :
    parallel.Keeps parallel.trees (chainFrom left level next room tree)
      (chainFrom right level otherNext room other) := by
  induction room generalizing tree other with
  | zero =>
    intro unread others tokens
    cases tokens with
    | nil => exact .accepted ⟨related, .nil⟩
    | cons first rest =>
      unfold chainFrom
      dsimp only
      rw [← parallel.kind_eq first]
      split
      · exact .accepted ⟨related, .cons first rest⟩
      · exact .refused .tooMuchNesting rest
  | succ room inductionHypothesis =>
    intro unread others tokens
    cases tokens with
    | nil => exact .accepted ⟨related, .nil⟩
    | cons first rest =>
      unfold chainFrom
      dsimp only
      rw [← parallel.kind_eq first]
      split
      · exact .accepted ⟨related, .cons first rest⟩
      · refine (kept rest).bind fun second otherSecond found => ?_
        exact inductionHypothesis (parallel.binary _ related found.1) found.2

private theorem keeps_chain
    (level : Level)
    (room : Nat)
    {next : Reader Left}
    {otherNext : Reader Right}
    (kept : parallel.Keeps parallel.trees next otherNext) :
    parallel.Keeps parallel.trees (chain left level room next)
      (chain right level room otherNext) := by
  intro unread others related
  refine (kept related).bind fun first otherFirst found => ?_
  exact keeps_chainFrom level kept room found.1 found.2

private theorem keeps_equality
    (room : Nat)
    (kept : KeptBy parallel deeper otherDeeper) :
    parallel.Keeps parallel.trees (equality left room deeper)
      (equality right room otherDeeper) :=
  keeps_chain .equality room <| keeps_chain .comparison room <| keeps_chain .term room <|
    keeps_chain .factor room <| keeps_operand kept

/-! ## Assignments -/

private theorem keeps_assignment
    (room : Nat)
    (kept : KeptBy parallel deeper otherDeeper) :
    parallel.Keeps parallel.trees (assignment left room deeper)
      (assignment right room otherDeeper) := by
  intro unread others related
  refine (keeps_equality room kept related).bind fun target otherTarget found => ?_
  obtain ⟨target, unread⟩ := target
  obtain ⟨otherTarget, others⟩ := otherTarget
  obtain ⟨targets, rests⟩ := found
  dsimp only at targets rests ⊢
  cases rests with
  | nil => exact .accepted ⟨targets, .nil⟩
  | @cons token other inside otherInside first rest =>
    dsimp only
    rw [← parallel.kind_eq first]
    split
    · refine (kept.expression rest).bind fun value otherValue found => ?_
      rcases parallel.assign targets found.1 (.cons first rest) with
        ⟨tree, otherTree, built, otherBuilt, trees⟩ | ⟨notBuilt, isExcused | otherNotBuilt⟩
      · simp only [built, otherBuilt]
        exact .accepted ⟨trees, found.2⟩
      · simp only [notBuilt]
        exact .excused isExcused _
      · simp only [notBuilt, otherNotBuilt]
        exact .refused .invalidAssignmentTarget (.cons first rest)
    · exact .accepted ⟨targets, .cons first rest⟩

end Expressions

/-! ## Nesting -/

private theorem kept_readers (parallel : Parallel left right) (room : Nat) :
    KeptBy parallel (readers left room) (readers right room) := by
  have within {deeper : Readers Left} {otherDeeper : Readers Right} (room : Nat)
      (kept : KeptBy parallel deeper otherDeeper) :
      KeptBy parallel (readersWithin left room deeper) (readersWithin right room otherDeeper) :=
    ⟨keeps_operand kept, keeps_assignment room kept⟩
  induction room with
  | zero => exact within 0 ⟨keeps_refuse _ .tooMuchNesting, keeps_refuse _ .tooMuchNesting⟩
  | succ room inductionHypothesis => exact within (room + 1) inductionHypothesis

theorem keeps_expression (parallel : Parallel left right) (room : Nat) :
    parallel.Keeps parallel.trees (Grammar.expression left room)
      (Grammar.expression right room) :=
  (kept_readers parallel room).expression

/-! ## Statements -/

section Statements

variable {expression : Reader Left} {otherExpression : Reader Right}

private theorem keeps_statementsFrom
    (stops : Token → Bool)
    (stops_eq : ∀ token other, parallel.tokens token other → stops token = stops other)
    {declaration : Advancing (Statement Left)}
    {otherDeclaration : Advancing (Statement Right)}
    (kept : parallel.Keeps parallel.statements declaration.read otherDeclaration.read)
    {found : List (Statement Left)}
    {otherFound : List (Statement Right)}
    (related : List.Forall₂ parallel.statements found otherFound) :
    parallel.Keeps (List.Forall₂ parallel.statements)
      (statementsFrom stops declaration found)
      (statementsFrom stops otherDeclaration otherFound) := by
  intro unread others tokens
  fun_induction statementsFrom stops declaration found unread generalizing otherFound others with
  | case1 found =>
    cases tokens
    rw [statementsFrom_of_stops (by simp)]
    exact .accepted ⟨List.rel_reverse related, .nil⟩
  | case2 found token rest stopped =>
    cases tokens with
    | @cons _ other _ _ first rests =>
      rw [stops_eq _ _ first] at stopped
      rw [statementsFrom_of_stops (by simpa using stopped)]
      exact .accepted ⟨List.rel_reverse related, .cons first rests⟩
  | case3 found token rest goesOn refusal refused =>
    cases tokens with
    | @cons _ other _ otherRest first rests =>
      rw [stops_eq _ _ first] at goesOn
      rw [statementsFrom_of_goesOn goesOn]
      have outcome := kept (.cons first rests)
      rw [refused] at outcome
      generalize otherDeclaration.read (other :: otherRest) = otherRead at outcome ⊢
      cases outcome with
      | refused fault unread => exact .refused fault unread
      | excused isExcused _ => exact .excused isExcused _
  | case4 found token rest goesOn statement remaining read inductionHypothesis =>
    cases tokens with
    | @cons _ other _ otherRest first rests =>
      rw [stops_eq _ _ first] at goesOn
      rw [statementsFrom_of_goesOn goesOn]
      have outcome := kept (.cons first rests)
      rw [read] at outcome
      generalize otherDeclaration.read (other :: otherRest) = otherRead at outcome ⊢
      cases outcome with
      | accepted statements => exact inductionHypothesis (.cons statements.1 related) statements.2

private theorem keeps_block
    {declaration : Advancing (Statement Left)}
    {otherDeclaration : Advancing (Statement Right)}
    (kept : parallel.Keeps parallel.statements declaration.read otherDeclaration.read) :
    parallel.Keeps parallel.statements (Grammar.block declaration)
      (Grammar.block otherDeclaration) := by
  have sameEnd : ∀ token other, parallel.tokens token other → endsBlock token = endsBlock other := by
    intro token other related
    rw [endsBlock, endsBlock, parallel.kind_eq related]
  exact (keeps_statementsFrom endsBlock sameEnd kept .nil).closed _ _ fun _ _ => parallel.block

private theorem keeps_expressionStatement
    (kept : parallel.Keeps parallel.trees expression otherExpression) :
    parallel.Keeps parallel.statements (expressionStatement expression)
      (expressionStatement otherExpression) :=
  kept.closed _ _ fun _ _ => parallel.expression

private theorem keeps_printStatement
    (kept : parallel.Keeps parallel.trees expression otherExpression) :
    parallel.Keeps parallel.statements (printStatement expression)
      (printStatement otherExpression) :=
  kept.closed _ _ fun _ _ => parallel.print

/-- Both initializers are there and related, or neither is. -/
private inductive Initializers (parallel : Parallel left right) :
    Option Left → Option Right → Prop where
  | none : Initializers parallel none none
  | some {tree : Left} {other : Right} (related : parallel.trees tree other) :
    Initializers parallel (some tree) (some other)

private theorem keeps_initializer
    (kept : parallel.Keeps parallel.trees expression otherExpression) :
    parallel.Keeps (Initializers parallel) (initializer expression)
      (initializer otherExpression) := by
  intro unread others related
  cases related with
  | nil => exact .accepted ⟨.none, .nil⟩
  | cons first rest =>
    unfold initializer
    dsimp only
    rw [← parallel.kind_eq first]
    split
    · refine (kept rest).bind fun tree other found => ?_
      exact .accepted ⟨.some found.1, found.2⟩
    · exact .accepted ⟨.none, .cons first rest⟩

private theorem keeps_varDeclaration
    (kept : parallel.Keeps parallel.trees expression otherExpression) :
    parallel.Keeps parallel.statements (varDeclaration expression)
      (varDeclaration otherExpression) := by
  intro unread others related
  cases related with
  | nil => exact .refused .expectedVariableName .nil
  | cons first rest =>
    unfold varDeclaration
    dsimp only
    rw [← parallel.kind_eq first]
    split
    · refine (keeps_initializer kept).closed _ _ (fun tree other found => ?_) rest
      cases found with
      | none => exact parallel.declared first
      | some related => exact parallel.initialized first related
    · exact .refused .expectedVariableName (.cons first rest)

private theorem keeps_declaration
    {inBlock : Reader (Statement Left)}
    {otherInBlock : Reader (Statement Right)}
    (kept : parallel.Keeps parallel.trees expression otherExpression)
    (keptInBlock : parallel.Keeps parallel.statements inBlock otherInBlock) :
    parallel.Keeps parallel.statements (declaration expression inBlock)
      (declaration otherExpression otherInBlock) := by
  intro unread others related
  cases related with
  | nil => exact keeps_expressionStatement kept .nil
  | cons first rest =>
    unfold declaration
    dsimp only
    rw [← parallel.kind_eq first]
    split
    · exact keeps_varDeclaration kept rest
    · exact keeps_printStatement kept rest
    · exact keptInBlock rest
    · exact keeps_expressionStatement kept (.cons first rest)

end Statements

private theorem keeps_declarationAt (parallel : Parallel left right) (room : Nat) :
    parallel.Keeps parallel.statements (declarationAt left room).read
      (declarationAt right room).read := by
  induction room with
  | zero =>
    exact keeps_declaration (keeps_expression parallel 0) (keeps_refuse _ .tooMuchNesting)
  | succ room inductionHypothesis =>
    exact keeps_declaration (keeps_expression parallel (room + 1))
      (keeps_block inductionHypothesis)

theorem keeps_program (parallel : Parallel left right) :
    parallel.Keeps (List.Forall₂ parallel.statements) (program left) (program right) :=
  keeps_statementsFrom _ (fun _ _ _ => rfl) (keeps_declarationAt parallel maxNesting) .nil

/-! ## Inputs -/

/-- The two readings of inputs are related results, or the same fault at the same place and related
tokens, or the left one has an excused fault. -/
inductive Reading (parallel : Parallel left right)
    {First Second : Type}
    (results : First → Second → Prop) :
    Except SyntaxError First → Except SyntaxError Second → Prop where
  | accepted
    {result : First}
    {other : Second}
    (related : results result other) :
    Reading parallel results (.ok result) (.ok other)
  | refused
    (fault : SyntaxFault)
    (index : Nat)
    {token other : Token}
    (related : parallel.tokens token other) :
    Reading parallel results (.error ⟨fault, index, token⟩) (.error ⟨fault, index, other⟩)
  | excused
    {error : SyntaxError}
    (isExcused : parallel.excused error.fault)
    (other : Except SyntaxError Second) :
    Reading parallel results (.error error) other

theorem Keeps.reading
    {First Second : Type}
    {results : First → Second → Prop}
    {reader : Reader First}
    {other : Reader Second}
    (keeps : parallel.Keeps results reader other)
    {input otherInput : TokenInput}
    (related : List.Forall₂ parallel.tokens input.tokens otherInput.tokens)
    (markers : parallel.tokens input.marker otherInput.marker) :
    parallel.Reading results (input.read reader) (otherInput.read other) := by
  have outcome := keeps related
  rw [TokenInput.read, TokenInput.read]
  generalize reader input.tokens = read at outcome ⊢
  generalize other otherInput.tokens = otherRead at outcome ⊢
  cases outcome with
  | accepted found => exact .accepted found.1
  | @refused fault unread others rest =>
    have offenders : parallel.tokens (unread.head?.getD input.marker)
        (others.head?.getD otherInput.marker) := by
      cases rest with
      | nil => exact markers
      | cons first _ => exact first
    dsimp only [TokenInput.errorOf]
    rw [← related.length_eq, ← rest.length_eq]
    exact .refused fault _ offenders
  | excused isExcused _ => exact .excused isExcused _

end Parallel

end Lox.Grammar
