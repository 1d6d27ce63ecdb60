import Lox.Syntax.Parsed

/-!
Contract: reading as a walk along an indexed list of tokens.

Owns:
- positions in a token list, with the depth of nesting there, and the steps that look at the token
  at a position and move on;
- families of walks that go on with one another, which nothing but the tokens ends;
- the walks that read expressions, statements and programs;
- the record that a walk keeps of the assignments whose value it has read.

Does not own: that walks end, or that they read what the grammar says.

A walk looks at tokens only through the index of its position.  Where there is no token, it stops
out of bounds.
-/

namespace Lox

/-! ## Positions -/

/-- An assignment whose value has been read, with the equals sign and its place in the list. -/
structure Completed (Tree : Type) where
  target : Tree
  value : Tree
  equal : Token
  place : Nat

/-- The error that the target of the assignment is refused with. -/
def Completed.error {Tree : Type} (entry : Completed Tree) : SyntaxError :=
  ⟨.invalidAssignmentTarget, entry.place, entry.equal⟩

/-- The equals sign of the assignment is at its place in the tokens. -/
def Completed.IsIn {Tree : Type} (tokens : List Token) (entry : Completed Tree) : Prop :=
  tokens[entry.place]? = some entry.equal ∧ entry.equal.kind = .symbol .equal

/-- What a walk knows: its tokens, the index of the current one, how deep it is nested, and the
assignments it has completed, in their order. -/
structure Position (Tree : Type) where
  tokens : List Token
  current : Nat
  depth : Nat
  completed : List (Completed Tree)

namespace Position

variable {Tree : Type}

/-- The beginning of a list of tokens.  A list that does not end with an end marker gets one on the
line of its last token, or on the first line if there is none. -/
def start (tokens : List Token) : Position Tree where
  tokens :=
    if tokens.getLast?.any Token.isEnd then tokens
    else tokens ++ [.endAt ((tokens.getLast?.map Token.line).getD 1)]
  current := 0
  depth := 0
  completed := []

/-- The position one token further on. -/
def next (position : Position Tree) : Position Tree :=
  { position with current := position.current + 1 }

/-- The position one level deeper. -/
def enter (position : Position Tree) : Position Tree :=
  { position with depth := position.depth + 1 }

/-- The position one level less deep. -/
def leave (position : Position Tree) : Position Tree :=
  { position with depth := position.depth - 1 }

/-- The position with one more completed assignment. -/
def record (entry : Completed Tree) (position : Position Tree) : Position Tree :=
  { position with completed := position.completed ++ [entry] }

end Position

/-! ## Steps -/

/-- Why a walk stops: a syntax error, or a look at an index where there is no token. -/
inductive Stop where
  | refused (error : SyntaxError)
  | outOfBounds
deriving DecidableEq

/-- A walk may stop, moves its position, and may in principle go on for ever. -/
abbrev Walk (Tree Result : Type) :=
  ExceptT Stop (StateT (Position Tree) Option) Result

namespace Walk

variable {Tree Result : Type}

/-- The result of a walk from a position, and where it ends; none if it does not end. -/
def runFrom (position : Position Tree) (walk : Walk Tree Result) :
    Option (Except Stop Result × Position Tree) :=
  (ExceptT.run walk).run position

/-- The result of a walk along a whole list of tokens, and the assignments that it completes; none
if it does not end. -/
def along (walk : Walk Tree Result) (tokens : List Token) :
    Option (Except Stop Result × List (Completed Tree)) :=
  (walk.runFrom (.start tokens)).map fun (result, stop) => (result, stop.completed)

/-- The token at the position. -/
def peek : Walk Tree Token := do
  let position ← get
  match position.tokens[position.current]? with
  | some token => return token
  | none => throw .outOfBounds

/-- Moves past a token.  An end marker is never passed. -/
def advance : Walk Tree Token := do
  let token ← peek
  if token.isEnd then return token
  else
    modify .next
    return token

/-- Stops with the fault at the token at the position. -/
def refuse (fault : SyntaxFault) : Walk Tree Result := do
  let token ← peek
  let position ← get
  throw (.refused ⟨fault, position.current, token⟩)

/-- Moves past a token of the kind; another token is the fault. -/
def expect (kind : TokenKind) (fault : SyntaxFault) : Walk Tree Token := do
  let token ← peek
  if token.kind = kind then advance else refuse fault

/-- Refuses to go as many levels deeper as are said, where that is too deep. -/
def checkNesting (further : Nat) : Walk Tree Unit := do
  let position ← get
  if Grammar.maxNesting < position.depth + further then refuse .tooMuchNesting

/-- Goes a level deeper, where that is not too deep. -/
def enter : Walk Tree Unit := do
  checkNesting 1
  modify .enter

/-- A walk one level deeper.  The level is left again also where the walk stops. -/
def nested (walk : Walk Tree Result) : Walk Tree Result :=
  enter >>= fun _ =>
    (ExceptT.run walk >>= fun result => fun position => some (result, position.leave) :
      StateT (Position Tree) Option (Except Stop Result))

/-! ## Families of walks -/

section Families

variable {Key Part : Type} {position : Position Tree}

theorem runFrom_bind (walk : Walk Tree Part) (goOn : Part → Walk Tree Result) :
    (walk >>= goOn).runFrom position =
      match walk.runFrom position with
      | none => none
      | some (.error stop, stopped) => some (.error stop, stopped)
      | some (.ok part, reached) => (goOn part).runFrom reached := by
  change ((ExceptT.run walk).run position >>= _) = _
  rw [runFrom]
  rcases (ExceptT.run walk).run position with _ | ⟨_ | _, _⟩ <;> rfl

theorem runFrom_nested (walk : Walk Tree Result) :
    (nested walk).runFrom position =
      match (enter : Walk Tree Unit).runFrom position with
      | none => none
      | some (.error stop, stopped) => some (.error stop, stopped)
      | some (.ok _, reached) =>
        (walk.runFrom reached).map fun (result, stopped) => (result, stopped.leave) := by
  rw [nested, runFrom_bind]
  rcases (enter : Walk Tree Unit).runFrom position with _ | ⟨_ | _, reached⟩
  · rfl
  · rfl
  · dsimp only
    change ((ExceptT.run walk).run reached >>= _) = _
    rw [runFrom]
    rcases (ExceptT.run walk).run reached with _ | ⟨_, _⟩ <;> rfl

/-- The second walk does what the first does, wherever that one ends. -/
def Below (walk other : Walk Tree Result) : Prop :=
  ∀ position, walk.runFrom position = none ∨ walk.runFrom position = other.runFrom position

theorem Below.refl (walk : Walk Tree Result) : Below walk walk :=
  fun _ => .inr rfl

theorem Below.bind
    {walk other : Walk Tree Part}
    {goOn otherGoOn : Part → Walk Tree Result}
    (first : Below walk other)
    (second : ∀ part, Below (goOn part) (otherGoOn part)) :
    Below (walk >>= goOn) (other >>= otherGoOn) := by
  intro position
  rw [runFrom_bind, runFrom_bind]
  rcases first position with endless | same
  · rw [endless]
    exact .inl rfl
  · rw [same]
    rcases other.runFrom position with _ | ⟨_ | part, reached⟩
    · exact .inl rfl
    · exact .inr rfl
    · exact second part reached

theorem Below.nested {walk other : Walk Tree Result} (below : Below walk other) :
    Below (nested walk) (nested other) := by
  intro position
  rw [runFrom_nested, runFrom_nested]
  rcases (enter : Walk Tree Unit).runFrom position with _ | ⟨_ | _, reached⟩
  · exact .inl rfl
  · exact .inr rfl
  · dsimp only
    rcases below reached with endless | same
    · rw [endless]
      exact .inl rfl
    · rw [same]
      exact .inr rfl

/-- A walk for each key. -/
abbrev Family (Key Tree Result : Type) :=
  Key → Walk Tree Result

/-- How the walks of a family go on with one another.  Where walks do more, so do those that go on
with them. -/
structure Step (Key Tree Result : Type) where
  next : Family Key Tree Result → Family Key Tree Result
  below {family other : Family Key Tree Result} :
    (∀ key, Below (family key) (other key)) → ∀ key, Below (next family key) (next other key)

/-- The walks that take one step and then go on with the family. -/
def Family.after (step : Step Key Tree Result) (family : Family Key Tree Result) :
    Family Key Tree Result :=
  step.next family

variable (step : Step Key Tree Result)

/-- The walks that go on with one another as the step says.  Such a walk may have no end. -/
def family : Family Key Tree Result := fun key =>
  family.after step key
partial_fixpoint monotonicity by
  intro family other ordered key position
  -- The order that fixed points are taken in, read as an order of walks.
  have below (key : Key) : Below (family key) (other key) := by
    intro position
    have here := ordered key position
    change family key position = none ∨ family key position = other key position
    generalize family key position = ran, other key position = otherRan at here ⊢
    cases here with
    | bot => exact .inl rfl
    | refl => exact .inr rfl
  have stepped : step.next family key position = none ∨
      step.next family key position = step.next other key position :=
    step.below below key position
  dsimp only [Family.after]
  generalize step.next family key position = ran, step.next other key position = otherRan
    at stepped ⊢
  rcases stepped with rfl | rfl
  · exact .bot
  · exact .refl

/-- Each walk of the family takes a step and goes on with the family. -/
theorem family_eq (key : Key) : family step key = step.next (family step) key := by
  conv => lhs; rw [family]
  rfl

end Families

section

variable (builder : Grammar.Builder Tree)

/-! ## Expressions -/

/-- Records an assignment and builds its tree, if something can be assigned to the target. -/
def assigned (target : Tree) (equal : Token) (place : Nat) (value : Tree) : Walk Tree Tree := do
  modify (.record ⟨target, value, equal, place⟩)
  let position ← get
  match builder.assign target ((position.tokens.drop place).takeWhile (!·.isEnd)) value with
  | some tree => return tree
  | none => throw (.refused ⟨.invalidAssignmentTarget, place, equal⟩)

/-- What closes a construct: a token of the kind. -/
def closed {Part : Type} (kind : TokenKind) (fault : SyntaxFault) (build : Part → Result)
    (part : Part) : Walk Tree Result := do
  let _ ← expect kind fault
  return build part

/-- A part of an expression, with what a walk has read of it before. -/
inductive Part (Tree : Type) where
  | assignment
  | assignmentFrom (target : Tree)
  | chain (level : Level)
  | tighter (level : Level)
  | chainFrom (level : Level) (count : Nat) (left : Tree)
  | operand
  | primary

/-- The walk that reads a part of an expression, from the walks that read what it consists of. -/
def expressionPartFrom (walks : Family (Part Tree) Tree Tree) : Family (Part Tree) Tree Tree
  -- An assignment, or an expression without one.
  | .assignment => do
    let target ← walks (.chain .equality)
    walks (.assignmentFrom target)
  -- What may come after a target: an equals sign and a value.
  | .assignmentFrom target => do
    let equal ← peek
    let position ← get
    if equal.kind = .symbol .equal then
      let _ ← advance
      let value ← nested (walks .assignment)
      assigned builder target equal position.current value
    else return target
  -- Operands with operators of the level between them.
  | .chain level => do
    let left ← walks (.tighter level)
    walks (.chainFrom level 0 left)
  -- The operands of a chain of the level.
  | .tighter .equality => walks (.chain .comparison)
  | .tighter .comparison => walks (.chain .term)
  | .tighter .term => walks (.chain .factor)
  | .tighter .factor => walks .operand
  -- The rest of a chain after so many operators.
  | .chainFrom level count left => do
    let token ← peek
    match Grammar.operatorAt? level token.kind with
    | none => return left
    | some operator =>
      let _ ← advance
      checkNesting (count + 1)
      let right ← walks (.tighter level)
      walks (.chainFrom level (count + 1) (builder.binary left operator right))
  -- A unary operator and its operand, or a primary expression.
  | .operand => do
    let token ← peek
    match UnaryOp.ofKind? token.kind with
    | some operator =>
      let _ ← advance
      let inner ← nested (walks .operand)
      return builder.unary operator inner
    | none => walks .primary
  -- A literal, a name, or an expression in parentheses.
  | .primary => do
    let token ← peek
    match token.kind with
    | .keyword .nilWord => let _ ← advance; return builder.literal .nil
    | .keyword .trueWord => let _ ← advance; return builder.literal (.boolean true)
    | .keyword .falseWord => let _ ← advance; return builder.literal (.boolean false)
    | .number value => let _ ← advance; return builder.literal (.number value)
    | .string content => let _ ← advance; return builder.literal (.string content)
    | .identifier => let _ ← advance; return builder.reference ⟨token.lexeme, token.line⟩
    | .symbol .leftParen =>
      let _ ← advance
      let inner ← nested (walks .assignment)
      closed (.symbol .rightParen) .missingRightParen builder.grouping inner
    | _ => refuse .expectedExpression

theorem expressionPartFrom_below
    {walks others : Family (Part Tree) Tree Tree}
    (below : ∀ part, Below (walks part) (others part))
    (part : Part Tree) :
    Below (expressionPartFrom builder walks part) (expressionPartFrom builder others part) := by
  cases part with
  | assignment => exact (below _).bind fun target => below _
  | assignmentFrom target =>
    refine (Below.refl peek).bind fun equal => (Below.refl get).bind fun position => ?_
    split
    · exact (Below.refl advance).bind fun _ => (below _).nested.bind fun value => .refl _
    · exact .refl _
  | chain level => exact (below _).bind fun left => below _
  | tighter level => cases level <;> exact below _
  | chainFrom level count left =>
    refine (Below.refl peek).bind fun token => ?_
    split
    · exact .refl _
    · exact (Below.refl advance).bind fun _ => (Below.refl (checkNesting _)).bind fun _ =>
        (below _).bind fun right => below _
  | operand =>
    refine (Below.refl peek).bind fun token => ?_
    split
    · exact (Below.refl advance).bind fun _ => (below _).nested.bind fun inner => .refl _
    · exact below _
  | primary =>
    refine (Below.refl peek).bind fun token => ?_
    split
    case h_7 => exact (Below.refl advance).bind fun _ => (below _).nested.bind fun inner => .refl _
    all_goals exact .refl _

/-- The walks that read parts of expressions. -/
def expressionPart : Family (Part Tree) Tree Tree :=
  family ⟨expressionPartFrom builder, expressionPartFrom_below builder⟩

theorem expressionPart_eq (part : Part Tree) :
    expressionPart builder part = expressionPartFrom builder (expressionPart builder) part :=
  family_eq _ part

/-- An expression. -/
def assignment : Walk Tree Tree :=
  expressionPart builder .assignment

/-! ## Statements -/

/-- An expression and a semicolon. -/
def expressionStatement : Walk Tree (Statement Tree) := do
  let tree ← assignment builder
  closed (.symbol .semicolon) .expectedSemicolonAfterExpression .expression tree

/-- What comes after `print`. -/
def printStatement : Walk Tree (Statement Tree) := do
  let tree ← assignment builder
  closed (.symbol .semicolon) .expectedSemicolonAfterValue .print tree

/-- After the name of a variable: an equals sign and an expression, or nothing. -/
def initializer : Walk Tree (Option Tree) := do
  let token ← peek
  if token.kind = .symbol .equal then
    let _ ← advance
    let tree ← assignment builder
    return some tree
  else return none

/-- What comes after `var`. -/
def varDeclaration : Walk Tree (Statement Tree) := do
  let name ← expect .identifier .expectedVariableName
  let tree ← initializer builder
  closed (.symbol .semicolon) .expectedSemicolonAfterVarDeclaration
    (.var ⟨name.lexeme, name.line⟩) tree

/-- What comes after the brace that opens a block. -/
def blockFrom (body : Walk Tree (List (Statement Tree))) : Walk Tree (Statement Tree) := do
  let statements ← body
  closed (.symbol .rightBrace) .expectedRightBrace .block statements

/-- A declaration or a statement, chosen by its first token. -/
def declarationFrom (block : Walk Tree (Statement Tree)) : Walk Tree (Statement Tree) := do
  let token ← peek
  match token.kind with
  | .keyword .varWord => let _ ← advance; varDeclaration builder
  | .keyword .printWord => let _ ← advance; printStatement builder
  | .symbol .leftBrace => let _ ← advance; nested block
  | _ => expressionStatement builder

/-- Statements that have been found, the last one first, and the tokens that stop the search. -/
structure Found (Tree : Type) where
  stops : Token → Bool
  statements : List (Statement Tree)

/-- The walk that reads more statements, up to a token that stops them or to an end marker, from the
walks that read those in blocks and those behind the next. -/
def moreStatementsFrom (walks : Family (Found Tree) Tree (List (Statement Tree))) :
    Family (Found Tree) Tree (List (Statement Tree))
  | ⟨stops, found⟩ => do
    let token ← peek
    if token.isEnd || stops token then return found.reverse
    else
      let statement ← declarationFrom builder (blockFrom (walks ⟨Grammar.endsBlock, []⟩))
      walks ⟨stops, statement :: found⟩

theorem moreStatementsFrom_below
    {walks others : Family (Found Tree) Tree (List (Statement Tree))}
    (below : ∀ found, Below (walks found) (others found))
    (found : Found Tree) :
    Below (moreStatementsFrom builder walks found) (moreStatementsFrom builder others found) := by
  have blocks : Below (blockFrom (walks ⟨Grammar.endsBlock, []⟩))
      (blockFrom (others ⟨Grammar.endsBlock, []⟩)) :=
    (below _).bind fun statements => .refl _
  have declarations : Below (declarationFrom builder (blockFrom (walks ⟨Grammar.endsBlock, []⟩)))
      (declarationFrom builder (blockFrom (others ⟨Grammar.endsBlock, []⟩))) := by
    refine (Below.refl peek).bind fun token => ?_
    split
    case h_3 => exact (Below.refl advance).bind fun _ => blocks.nested
    all_goals exact .refl _
  refine (Below.refl peek).bind fun token => ?_
  split
  · exact .refl _
  · exact declarations.bind fun statement => below _

/-- The walks that read more statements. -/
def moreStatements : Family (Found Tree) Tree (List (Statement Tree)) :=
  family ⟨moreStatementsFrom builder, moreStatementsFrom_below builder⟩

theorem moreStatements_eq (found : Found Tree) :
    moreStatements builder found = moreStatementsFrom builder (moreStatements builder) found :=
  family_eq _ found

/-- What comes after the brace that opens a block. -/
def block : Walk Tree (Statement Tree) :=
  blockFrom (moreStatements builder ⟨Grammar.endsBlock, []⟩)

/-- A declaration or a statement. -/
def declaration : Walk Tree (Statement Tree) :=
  declarationFrom builder (block builder)

/-- Statements up to an end marker. -/
def program : Walk Tree (List (Statement Tree)) :=
  moreStatements builder ⟨fun _ => false, []⟩

end

end Walk

/-! ## Where a position stands -/

/-- Tokens without end markers, and an end marker. -/
structure TokenInput.WellFormed (input : TokenInput) : Prop where
  noEnd {token : Token} : token ∈ input.tokens → token.isEnd = false
  isEnd : input.marker.isEnd = true

namespace Position

variable {Tree : Type}

/-- The position is on the input, with so many tokens left before the end marker. -/
structure At (input : TokenInput) (unread : List Token) (position : Position Tree) : Prop where
  wellFormed : input.WellFormed
  tokens_eq : ∃ after, position.tokens = input.tokens ++ input.marker :: after
  drop_eq : input.tokens.drop position.current = unread
  within : position.current ≤ input.tokens.length

/-- What a walk keeps between two positions: the tokens and the depth are the same, and the record
goes on with entries for equals signs among the tokens. -/
structure GoesTo (start : Position Tree) (entries : List (Completed Tree)) (stop : Position Tree) :
    Prop where
  tokens_eq : stop.tokens = start.tokens
  depth_eq : stop.depth = start.depth
  completed_eq : stop.completed = start.completed ++ entries
  isIn {entry : Completed Tree} : entry ∈ entries → entry.IsIn start.tokens

theorem GoesTo.refl (position : Position Tree) : position.GoesTo [] position :=
  ⟨rfl, rfl, (List.append_nil _).symm, fun member => nomatch member⟩

theorem goesTo_next (position : Position Tree) : position.GoesTo [] position.next :=
  ⟨rfl, rfl, (List.append_nil _).symm, fun member => nomatch member⟩

theorem goesTo_record
    {entry : Completed Tree}
    {position : Position Tree}
    (isIn : entry.IsIn position.tokens) :
    position.GoesTo [entry] (position.record entry) :=
  ⟨rfl, rfl, rfl, fun member => List.mem_singleton.1 member ▸ isIn⟩

theorem GoesTo.trans
    {start middle stop : Position Tree}
    {front back : List (Completed Tree)}
    (first : start.GoesTo front middle)
    (second : middle.GoesTo back stop) :
    start.GoesTo (front ++ back) stop where
  tokens_eq := second.tokens_eq.trans first.tokens_eq
  depth_eq := second.depth_eq.trans first.depth_eq
  completed_eq := by
    rw [second.completed_eq, first.completed_eq, List.append_assoc]
  isIn member := by
    rcases List.mem_append.1 member with inFront | inBack
    · exact first.isIn inFront
    · rw [← first.tokens_eq]
      exact second.isIn inBack

/-- A level is left as it was entered. -/
theorem GoesTo.leave
    {start stop : Position Tree}
    {entries : List (Completed Tree)}
    (inside : start.enter.GoesTo entries stop) :
    start.GoesTo entries stop.leave where
  tokens_eq := inside.tokens_eq
  depth_eq := by
    have deeper : stop.depth = start.depth + 1 := inside.depth_eq
    simp [Position.leave, deeper]
  completed_eq := inside.completed_eq
  isIn := inside.isIn

theorem at_start (tokens : List Token) :
    (start tokens : Position Tree).At (.ofTokens tokens) (TokenInput.ofTokens tokens).tokens where
  wellFormed := ⟨TokenInput.isEnd_eq_false, TokenInput.isEnd_marker tokens⟩
  tokens_eq := by
    cases first : tokens.find? Token.isEnd with
    | some marker =>
      obtain ⟨isEnd, front, after, same, noEnd⟩ := List.find?_eq_some_iff_append.1 first
      have whole : tokens = (TokenInput.ofTokens tokens).tokens ++ marker :: after := by
        have isFront : (TokenInput.ofTokens tokens).tokens = front := by
          rw [TokenInput.ofTokens, same, List.takeWhile_append_of_pos noEnd,
            List.takeWhile_cons_of_neg (by simp [isEnd]), List.append_nil]
        rw [isFront, ← same]
      have isMarker : (TokenInput.ofTokens tokens).marker = marker := by
        simp [TokenInput.ofTokens, first]
      rw [isMarker]
      dsimp only [start]
      split
      · exact ⟨after, whole⟩
      · refine ⟨after ++ [.endAt ((tokens.getLast?.map Token.line).getD 1)], ?_⟩
        rw [← List.cons_append, ← List.append_assoc, ← whole]
    | none =>
      have noEnd := List.find?_eq_none.1 first
      have whole : (TokenInput.ofTokens tokens).tokens = tokens := by
        have all : ∀ token ∈ tokens, (!token.isEnd) = true := fun token member => by
          simpa using noEnd token member
        have kept : (tokens ++ []).takeWhile (!·.isEnd) = tokens ++ [] :=
          List.takeWhile_append_of_pos all
        rwa [List.append_nil] at kept
      have isMarker : (TokenInput.ofTokens tokens).marker =
          .endAt ((tokens.getLast?.map Token.line).getD 1) := by
        simp [TokenInput.ofTokens, first]
      have openEnded : ¬ tokens.getLast?.any Token.isEnd := by
        cases last : tokens.getLast? with
        | none => simp
        | some token => simpa using noEnd token (List.mem_of_getLast? last)
      rw [isMarker, whole]
      dsimp only [start]
      rw [if_neg openEnded]
      exact ⟨[], rfl⟩
  drop_eq := rfl
  within := Nat.zero_le _

namespace At

variable {input : TokenInput} {unread : List Token} {position : Position Tree}

theorem getElem?_current (stands : position.At input unread) :
    position.tokens[position.current]? = some (unread.head?.getD input.marker) := by
  obtain ⟨after, same⟩ := stands.tokens_eq
  rw [same, ← stands.drop_eq, List.head?_drop]
  rcases Nat.lt_or_eq_of_le stands.within with inside | atEnd
  · rw [List.getElem?_append_left inside, List.getElem?_eq_getElem inside]
    rfl
  · rw [atEnd]
    simp

theorem length_eq (stands : position.At input unread) :
    unread.length + position.current = input.tokens.length := by
  rw [← stands.drop_eq, List.length_drop]
  have := stands.within
  omega

/-- The current place is where an error at the first unread token points. -/
theorem errorOf_eq (stands : position.At input unread) (fault : SyntaxFault) :
    input.errorOf ⟨fault, unread⟩ =
      ⟨fault, position.current, unread.head?.getD input.marker⟩ := by
  rw [TokenInput.errorOf, ← stands.length_eq, Nat.add_sub_cancel_left]

theorem kind_marker (stands : position.At input unread) : input.marker.kind = .endOfInput := by
  simpa [Token.isEnd] using stands.wellFormed.isEnd

/-- What is left of the tokens up to an end marker is what is unread. -/
theorem takeWhile_drop (stands : position.At input unread) :
    (position.tokens.drop position.current).takeWhile (!·.isEnd) = unread := by
  obtain ⟨after, same⟩ := stands.tokens_eq
  have noEnd : ∀ token ∈ unread, (!token.isEnd) = true := by
    intro token member
    rw [← stands.drop_eq] at member
    rw [stands.wellFormed.noEnd (List.mem_of_mem_drop member)]
    rfl
  rw [same, List.drop_append_of_le_length stands.within, stands.drop_eq,
    List.takeWhile_append_of_pos noEnd,
    List.takeWhile_cons_of_neg (by simp [stands.wellFormed.isEnd]), List.append_nil]

theorem isEnd_eq_false
    {token : Token}
    {rest : List Token}
    (stands : position.At input (token :: rest)) :
    token.isEnd = false := by
  have member : token ∈ input.tokens.drop position.current := by
    rw [stands.drop_eq]
    exact List.mem_cons_self
  exact stands.wellFormed.noEnd (List.mem_of_mem_drop member)

theorem next
    {token : Token}
    {rest : List Token}
    (stands : position.At input (token :: rest)) :
    position.next.At input rest where
  wellFormed := stands.wellFormed
  tokens_eq := stands.tokens_eq
  drop_eq := by
    have same := congrArg List.tail stands.drop_eq
    rwa [List.tail_drop] at same
  within := by
    have length := stands.length_eq
    simp only [List.length_cons] at length
    simp only [Position.next]
    omega

theorem enter (stands : position.At input unread) : position.enter.At input unread :=
  ⟨stands.wellFormed, stands.tokens_eq, stands.drop_eq, stands.within⟩

theorem leave (stands : position.At input unread) : position.leave.At input unread :=
  ⟨stands.wellFormed, stands.tokens_eq, stands.drop_eq, stands.within⟩

theorem record (entry : Completed Tree) (stands : position.At input unread) :
    (position.record entry).At input unread :=
  ⟨stands.wellFormed, stands.tokens_eq, stands.drop_eq, stands.within⟩

end At

end Position

/-! ## What the steps do -/

namespace Walk

variable {Tree Result Part : Type} {position : Position Tree}

theorem runFrom_get_bind (goOn : Position Tree → Walk Tree Result) :
    (get >>= goOn).runFrom position = (goOn position).runFrom position := rfl

theorem runFrom_assigned
    (builder : Grammar.Builder Tree)
    (target : Tree)
    (equal : Token)
    (place : Nat)
    (value : Tree) :
    (assigned builder target equal place value).runFrom position =
      match builder.assign target ((position.tokens.drop place).takeWhile (!·.isEnd)) value with
      | some tree => some (.ok tree, position.record ⟨target, value, equal, place⟩)
      | none =>
        some (.error (.refused ⟨.invalidAssignmentTarget, place, equal⟩),
          position.record ⟨target, value, equal, place⟩) := by
  change (match builder.assign target ((position.tokens.drop place).takeWhile (!·.isEnd)) value with
    | some tree => (pure tree : Walk Tree Tree)
    | none => throw (Stop.refused ⟨.invalidAssignmentTarget, place, equal⟩)).runFrom
      (position.record ⟨target, value, equal, place⟩) = _
  split <;> rfl

section At

variable {input : TokenInput} {unread rest : List Token} {token : Token}

theorem runFrom_peek (stands : position.At input unread) :
    (peek : Walk Tree Token).runFrom position =
      some (.ok (unread.head?.getD input.marker), position) := by
  have found := stands.getElem?_current
  change (match position.tokens[position.current]? with
    | some token => (pure token : Walk Tree Token)
    | none => throw Stop.outOfBounds : Walk Tree Token).runFrom position = _
  rw [found]
  rfl

-- Without an end marker a walk can come to where there is no token.
example :
    (peek : Walk Expr Token).runFrom ⟨[], 0, 0, []⟩ = some (.error .outOfBounds, ⟨[], 0, 0, []⟩) :=
  rfl

theorem runFrom_peek_bind
    (stands : position.At input unread)
    (goOn : Token → Walk Tree Result) :
    (peek >>= goOn).runFrom position =
      (goOn (unread.head?.getD input.marker)).runFrom position := by
  rw [runFrom_bind, runFrom_peek stands]

theorem runFrom_peek_nil
    (stands : position.At input [])
    (goOn : Token → Walk Tree Result) :
    (peek >>= goOn).runFrom position = (goOn input.marker).runFrom position :=
  runFrom_peek_bind stands goOn

theorem runFrom_peek_cons
    (stands : position.At input (token :: rest))
    (goOn : Token → Walk Tree Result) :
    (peek >>= goOn).runFrom position = (goOn token).runFrom position :=
  runFrom_peek_bind stands goOn

theorem runFrom_advance (stands : position.At input (token :: rest)) :
    (advance : Walk Tree Token).runFrom position = some (.ok token, position.next) := by
  rw [advance, runFrom_peek_cons stands, stands.isEnd_eq_false]
  rfl

theorem runFrom_advance_bind
    (stands : position.At input (token :: rest))
    (goOn : Token → Walk Tree Result) :
    (advance >>= goOn).runFrom position = (goOn token).runFrom position.next := by
  rw [runFrom_bind, runFrom_advance stands]

theorem runFrom_refuse (stands : position.At input unread) (fault : SyntaxFault) :
    (refuse fault : Walk Tree Result).runFrom position =
      some (.error (.refused (input.errorOf ⟨fault, unread⟩)), position) := by
  rw [refuse, runFrom_peek_bind stands, stands.errorOf_eq]
  rfl

/-- A kind of token that is no end marker is expected as the grammar says. -/
theorem runFrom_expect
    (stands : position.At input unread)
    {kind : TokenKind}
    (noMarker : kind ≠ .endOfInput)
    (fault : SyntaxFault) :
    (∃ token rest, unread = token :: rest ∧ token.kind = kind ∧
      Grammar.expect kind fault unread = .ok rest ∧
      (expect kind fault : Walk Tree Token).runFrom position = some (.ok token, position.next)) ∨
    ((∀ token ∈ unread.head?, token.kind ≠ kind) ∧
      Grammar.expect kind fault unread = .error ⟨fault, unread⟩ ∧
      (expect kind fault : Walk Tree Token).runFrom position =
        some (.error (.refused (input.errorOf ⟨fault, unread⟩)), position)) := by
  cases unread with
  | nil =>
    rw [expect, runFrom_peek_nil stands, stands.kind_marker, if_neg (Ne.symm noMarker)]
    exact .inr ⟨by simp, rfl, runFrom_refuse stands fault⟩
  | cons token rest =>
    rw [expect, runFrom_peek_cons stands, Grammar.expect]
    split
    · rename_i same
      exact .inl ⟨token, rest, rfl, same, rfl, runFrom_advance stands⟩
    · rename_i differs
      exact .inr ⟨by simpa using differs, rfl, runFrom_refuse stands fault⟩

theorem runFrom_checkNesting (stands : position.At input unread) (further : Nat) :
    (checkNesting further : Walk Tree Unit).runFrom position =
      if Grammar.maxNesting < position.depth + further then
        some (.error (.refused (input.errorOf ⟨.tooMuchNesting, unread⟩)), position)
      else some (.ok (), position) := by
  change (if Grammar.maxNesting < position.depth + further then
    (refuse .tooMuchNesting : Walk Tree Unit) else pure ()).runFrom position = _
  split
  · exact runFrom_refuse stands _
  · rfl

end At

end Walk

end Lox
