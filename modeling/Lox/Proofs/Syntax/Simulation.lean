import Lox.Proofs.Syntax.Walk

/-!
Contract: walks beside the readers of the grammar.

Owns:
- simulations, which relate the trees of two builders and say which targets the left one refuses;
- that a walk with the right builder does what the readers with the left builder do, up to the
  first assignment with a target that the left builder refuses;
- what this says of whole lists of tokens.

Does not own: which simulations there are between builders, or that walks end by themselves.
-/

namespace Lox.Walk

open Grammar (Builder Reader Readers Refusal maxNesting)

/-! ## Simulations -/

/-- Related items in the same order, with the entries that belong to them. -/
inductive Sequence {First Second Entry : Type} (related : First → Second → List Entry → Prop) :
    List First → List Second → List Entry → Prop where
  | nil : Sequence related [] [] []
  | snoc
    {firsts : List First}
    {seconds : List Second}
    {first : First}
    {second : Second}
    {entries later : List Entry}
    (before : Sequence related firsts seconds entries)
    (last : related first second later) :
    Sequence related (firsts ++ [first]) (seconds ++ [second]) (entries ++ later)

theorem Sequence.refl
    {Item Entry : Type}
    {related : Item → Item → List Entry → Prop}
    (each : ∀ item, related item item [])
    (found : List Item) :
    Sequence related found.reverse found.reverse [] := by
  induction found with
  | nil => exact .nil
  | cons item found inductionHypothesis =>
    rw [List.reverse_cons]
    exact .snoc inductionHypothesis (each item)

theorem Sequence.map_eq
    {First Second Entry : Type}
    {related : First → Second → List Entry → Prop}
    {firsts : List First}
    {seconds : List Second}
    {entries : List Entry}
    (sequence : Sequence related firsts seconds entries)
    (view : First → Second)
    (each : ∀ first second entries, related first second entries → view first = second) :
    firsts.map view = seconds := by
  induction sequence with
  | nil => rfl
  | snoc before last inductionHypothesis =>
    rw [List.map_append, inductionHypothesis, List.map_singleton, each _ _ _ last]

/-- A relation between what two builders build, with the assignments in it in the order of their
completion.  Targets that offend are those that the left builder refuses and the right one may
accept. -/
structure Simulation {Left Right : Type} (left : Builder Left) (right : Builder Right) where
  trees : Left → Right → List (Completed Right) → Prop
  statements : Statement Left → Statement Right → List (Completed Right) → Prop
  offends : Right → Prop
  literal (value : Value) : trees (left.literal value) (right.literal value) []
  reference (name : Name) : trees (left.reference name) (right.reference name) []
  grouping {inner : Left} {other : Right} {entries : List (Completed Right)} :
    trees inner other entries → trees (left.grouping inner) (right.grouping other) entries
  unary (operator : UnaryOp) {inner : Left} {other : Right} {entries : List (Completed Right)} :
    trees inner other entries →
      trees (left.unary operator inner) (right.unary operator other) entries
  binary (operator : BinaryOp) {first second : Left} {otherFirst otherSecond : Right}
    {entries later : List (Completed Right)} :
    trees first otherFirst entries → trees second otherSecond later →
      trees (left.binary first operator second) (right.binary otherFirst operator otherSecond)
        (entries ++ later)
  assign (unread : List Token) (entry : Completed Right) {target value : Left}
    {entries later : List (Completed Right)} :
    trees target entry.target entries → trees value entry.value later →
      (∃ tree other, left.assign target unread value = some tree ∧
        right.assign entry.target unread entry.value = some other ∧
        ¬ offends entry.target ∧ trees tree other (entries ++ later ++ [entry])) ∨
      (left.assign target unread value = none ∧
        right.assign entry.target unread entry.value = none ∧ ¬ offends entry.target) ∨
      (left.assign target unread value = none ∧ offends entry.target)
  expression {tree : Left} {other : Right} {entries : List (Completed Right)} :
    trees tree other entries → statements (.expression tree) (.expression other) entries
  print {tree : Left} {other : Right} {entries : List (Completed Right)} :
    trees tree other entries → statements (.print tree) (.print other) entries
  declared (name : Name) : statements (.var name none) (.var name none) []
  initialized (name : Name) {tree : Left} {other : Right} {entries : List (Completed Right)} :
    trees tree other entries →
      statements (.var name (some tree)) (.var name (some other)) entries
  block {body : List (Statement Left)} {otherBody : List (Statement Right)}
    {entries : List (Completed Right)} :
    Sequence statements body otherBody entries → statements (.block body) (.block otherBody) entries

/-! ## Walks that end -/

/-- The walk ends, and it looks only where there are tokens. -/
def Ends {Tree Result : Type} (input : TokenInput) (walk : Walk Tree Result)
    (start : Position Tree) : Prop :=
  ∃ result stop rest entries, walk.runFrom start = some (result, stop) ∧
    result ≠ .error .outOfBounds ∧ start.GoesTo entries stop ∧ stop.At input rest

/-- One walk after another ends. -/
theorem Ends.bind
    {Tree Part Result : Type}
    {input : TokenInput}
    {walk : Walk Tree Part}
    {goOn : Part → Walk Tree Result}
    {start : Position Tree}
    (first : Ends input walk start)
    (second : ∀ part rest entries middle,
      start.GoesTo entries middle → middle.At input rest → Ends input (goOn part) middle) :
    Ends input (walk >>= goOn) start := by
  obtain ⟨result, middle, rest, entries, ran, inBounds, goes, reached⟩ := first
  rw [Ends, runFrom_bind, ran]
  cases result with
  | error stop => exact ⟨_, middle, rest, entries, rfl, by simpa using inBounds, goes, reached⟩
  | ok part =>
    obtain ⟨result, stop, rest, later, ranOn, inBounds, onward, ended⟩ :=
      second part rest entries middle goes reached
    exact ⟨result, stop, rest, entries ++ later, ranOn, inBounds, goes.trans onward, ended⟩

theorem ends_advance
    {Tree : Type}
    {input : TokenInput}
    {token : Token}
    {rest : List Token}
    {start : Position Tree}
    (stands : start.At input (token :: rest)) :
    Ends input (advance : Walk Tree Token) start :=
  ⟨_, _, _, [], runFrom_advance stands, by simp, start.goesTo_next, stands.next⟩

/-- With room for so many levels the walk ends. -/
def Runs {Tree Result : Type} (walk : Walk Tree Result) (room : Nat) : Prop :=
  ∀ ⦃input : TokenInput⦄ ⦃unread : List Token⦄ ⦃start : Position Tree⦄,
    start.At input unread → start.depth + room = maxNesting → Ends input walk start

/-- The walks that go on where another one has ended run. -/
structure Continues {Tree : Type} (builder : Builder Tree) : Prop where
  assignmentFrom (target : Tree) (room : Nat) :
    Runs (expressionPart builder (.assignmentFrom target)) room
  chainFrom (level : Level) {count room : Nat} (within : count ≤ room) (tree : Tree) :
    Runs (expressionPart builder (.chainFrom level count tree)) room
  moreStatements (found : Found Tree) (room : Nat) : Runs (moreStatements builder found) room

/-! ## Outcomes -/

namespace Simulation

variable {Left Right : Type} {left : Builder Left} {right : Builder Right}
variable (simulation : Simulation left right) (input : TokenInput)

/-- The entries have targets that do not offend. -/
def Clean (entries : List (Completed Right)) : Prop :=
  ∀ entry ∈ entries, ¬ simulation.offends entry.target

/-- What a walk comes to beside a reader: related results, the same refusal, or, where the reader
refuses a target, anything after the record of that target, which is the first that offends. -/
inductive Outcome {First Second : Type}
    (results : First → Second → List (Completed Right) → Prop)
    (start : Position Right) :
    Except Refusal (First × List Token) → Option (Except Stop Second × Position Right) → Prop where
  | accepted
    {result : First}
    {other : Second}
    {rest : List Token}
    {entries : List (Completed Right)}
    {stop : Position Right}
    (related : results result other entries)
    (clean : simulation.Clean entries)
    (goes : start.GoesTo entries stop)
    (stands : stop.At input rest) :
    Outcome results start (.ok (result, rest)) (some (.ok other, stop))
  | refused
    {refusal : Refusal}
    {rest : List Token}
    {entries : List (Completed Right)}
    {stop : Position Right}
    (clean : simulation.Clean entries)
    (goes : start.GoesTo entries stop)
    (stands : stop.At input rest) :
    Outcome results start (.error refusal)
      (some (.error (.refused (input.errorOf refusal)), stop))
  | offended
    {refusal : Refusal}
    {result : Except Stop Second}
    {rest : List Token}
    {entries later : List (Completed Right)}
    {offender : Completed Right}
    {stop : Position Right}
    (clean : simulation.Clean entries)
    (offends : simulation.offends offender.target)
    (error : offender.error = input.errorOf refusal)
    (inBounds : result ≠ .error .outOfBounds)
    (goes : start.GoesTo (entries ++ offender :: later) stop)
    (stands : stop.At input rest) :
    Outcome results start (.error refusal) (some (result, stop))

/-- With room for so many levels the walk comes beside the reader to one of the outcomes. -/
def Follows {First Second : Type}
    (results : First → Second → List (Completed Right) → Prop)
    (reader : Reader First)
    (walk : Walk Right Second)
    (room : Nat) : Prop :=
  ∀ ⦃unread : List Token⦄ ⦃start : Position Right⦄,
    start.At input unread → start.depth + room = maxNesting →
      simulation.Outcome input results start (reader unread) (walk.runFrom start)

variable {simulation input}

theorem clean_nil : simulation.Clean [] :=
  fun _ member => nomatch member

theorem Clean.append
    {entries later : List (Completed Right)}
    (first : simulation.Clean entries)
    (second : simulation.Clean later) :
    simulation.Clean (entries ++ later) := by
  intro entry member
  rcases List.mem_append.1 member with here | there
  · exact first entry here
  · exact second entry there

namespace Outcome

/-- Going on from where a walk is. -/
theorem before
    {First Second : Type}
    {results : First → Second → List (Completed Right) → Prop}
    {start middle : Position Right}
    {entries : List (Completed Right)}
    {read : Except Refusal (First × List Token)}
    {ran : Option (Except Stop Second × Position Right)}
    (clean : simulation.Clean entries)
    (reached : start.GoesTo entries middle)
    (outcome : simulation.Outcome input
      (fun result other later => results result other (entries ++ later)) middle read ran) :
    simulation.Outcome input results start read ran := by
  cases outcome with
  | accepted related laterClean goes stands =>
    exact .accepted related (clean.append laterClean) (reached.trans goes) stands
  | refused laterClean goes stands =>
    exact .refused (clean.append laterClean) (reached.trans goes) stands
  | offended laterClean offends error inBounds goes stands =>
    have whole := reached.trans goes
    rw [← List.append_assoc] at whole
    exact .offended (clean.append laterClean) offends error inBounds whole stands

/-- One walk after another follows one reader after another.  Where the first reader has refused a
target, the second walk only has to run. -/
theorem bind
    {First Second FirstResult SecondResult : Type}
    {middles : First → Second → List (Completed Right) → Prop}
    {results : FirstResult → SecondResult → List (Completed Right) → Prop}
    {start : Position Right}
    {room : Nat}
    {read : Except Refusal (First × List Token)}
    {walk : Walk Right Second}
    {next : First × List Token → Except Refusal (FirstResult × List Token)}
    {goOn : Second → Walk Right SecondResult}
    (outcome : simulation.Outcome input middles start read (walk.runFrom start))
    (depth : start.depth + room = maxNesting)
    (ends : (∃ target, simulation.offends target) → ∀ other rest entries stop,
      start.GoesTo entries stop → stop.At input rest → stop.depth + room = maxNesting →
        Ends input (goOn other) stop)
    (nexts : ∀ middle other rest entries stop, read = .ok (middle, rest) →
      middles middle other entries → start.GoesTo entries stop → stop.At input rest →
        stop.depth + room = maxNesting →
        simulation.Outcome input
          (fun result otherResult later => results result otherResult (entries ++ later)) stop
          (next (middle, rest)) ((goOn other).runFrom stop)) :
    simulation.Outcome input results start (read >>= next) ((walk >>= goOn).runFrom start) := by
  rw [runFrom_bind]
  generalize walk.runFrom start = ran at outcome
  cases outcome with
  | accepted related clean goes stands =>
    exact (nexts _ _ _ _ _ rfl related goes stands (by rw [goes.depth_eq, depth])).before clean goes
  | refused clean goes stands => exact .refused clean goes stands
  | @offended _ result _ _ _ _ _ clean offends error inBounds goes stands =>
    cases result with
    | error stop => exact .offended clean offends error (by simpa using inBounds) goes stands
    | ok other =>
      obtain ⟨final, stop, rest, more, ran, finalInBounds, goesOn, standsThen⟩ :=
        ends ⟨_, offends⟩ other _ _ _ goes stands (by rw [goes.depth_eq, depth])
      have whole := goes.trans goesOn
      rw [List.append_assoc] at whole
      dsimp only
      rw [ran]
      exact .offended clean offends error finalInBounds whole standsThen

/-- A walk that comes to an outcome ends in bounds. -/
theorem ends
    {First Second : Type}
    {results : First → Second → List (Completed Right) → Prop}
    {start : Position Right}
    {read : Except Refusal (First × List Token)}
    {walk : Walk Right Second}
    (outcome : simulation.Outcome input results start read (walk.runFrom start)) :
    Ends input walk start := by
  rw [Ends]
  generalize walk.runFrom start = ran at outcome ⊢
  cases outcome with
  | accepted related clean goes stands => exact ⟨_, _, _, _, rfl, by simp, goes, stands⟩
  | refused clean goes stands => exact ⟨_, _, _, _, rfl, by simp, goes, stands⟩
  | offended clean offends error inBounds goes stands =>
    exact ⟨_, _, _, _, rfl, inBounds, goes, stands⟩

end Outcome

/-! ## Steps -/

section Steps

variable {First Second : Type} {results : First → Second → List (Completed Right) → Prop}
variable {unread : List Token} {start : Position Right} {room : Nat}

theorem outcome_refuse (stands : start.At input unread) (fault : SyntaxFault) :
    simulation.Outcome input results start (.error ⟨fault, unread⟩)
      ((refuse fault : Walk Right Second).runFrom start) := by
  rw [runFrom_refuse stands]
  exact .refused clean_nil (.refl start) stands

theorem outcome_pure
    {result : First}
    {other : Second}
    (related : results result other [])
    (stands : start.At input unread) :
    simulation.Outcome input results start (.ok (result, unread))
      ((pure other : Walk Right Second).runFrom start) :=
  .accepted related clean_nil (.refl start) stands

/-- A token is passed before everything else. -/
theorem outcome_advance
    {token : Token}
    {rest : List Token}
    {read : Except Refusal (First × List Token)}
    {goOn : Token → Walk Right Second}
    (stands : start.At input (token :: rest))
    (outcome : simulation.Outcome input results start.next read ((goOn token).runFrom start.next)) :
    simulation.Outcome input results start read ((advance >>= goOn).runFrom start) := by
  rw [runFrom_advance_bind stands]
  exact outcome.before clean_nil start.goesTo_next

/-- A construct is closed by a token of the kind. -/
theorem outcome_closed
    {Part OtherPart : Type}
    {kind : TokenKind}
    (noMarker : kind ≠ .endOfInput)
    (fault : SyntaxFault)
    {build : Part → First}
    {otherBuild : OtherPart → Second}
    {part : Part}
    {other : OtherPart}
    (related : results (build part) (otherBuild other) [])
    (stands : start.At input unread) :
    simulation.Outcome input results start
      (Grammar.expect kind fault unread >>= fun rest => pure (build part, rest))
      ((closed kind fault otherBuild other).runFrom start) := by
  rw [closed, runFrom_bind]
  rcases runFrom_expect stands noMarker fault with
    ⟨token, rest, rfl, _, read, ran⟩ | ⟨_, read, ran⟩
  · rw [read, ran]
    exact .accepted related clean_nil start.goesTo_next stands.next
  · rw [read, ran]
    exact .refused clean_nil (.refl start) stands

theorem ends_pure (other : Second) (stands : start.At input unread) :
    Ends input (pure other : Walk Right Second) start :=
  ⟨_, start, _, [], rfl, by simp, .refl start, stands⟩

theorem ends_closed
    {Part : Type}
    {kind : TokenKind}
    (noMarker : kind ≠ .endOfInput)
    (fault : SyntaxFault)
    (build : Part → Second)
    (part : Part)
    (stands : start.At input unread) :
    Ends input (closed kind fault build part : Walk Right Second) start := by
  rw [Ends, closed, runFrom_bind]
  rcases runFrom_expect stands noMarker fault with
    ⟨token, rest, rfl, _, _, ran⟩ | ⟨_, _, ran⟩
  · rw [ran]
    exact ⟨_, _, _, [], rfl, by simp, start.goesTo_next, stands.next⟩
  · rw [ran]
    exact ⟨_, _, _, [], rfl, by simp, .refl start, stands⟩

/-- A construct with one part is built from the part. -/
theorem Follows.map
    {Part OtherPart : Type}
    {parts : Part → OtherPart → List (Completed Right) → Prop}
    {reader : Reader Part}
    {walk : Walk Right OtherPart}
    (follows : simulation.Follows input parts reader walk room)
    (build : Part → First)
    (otherBuild : OtherPart → Second)
    (built : ∀ part other entries, parts part other entries →
      results (build part) (otherBuild other) entries) :
    simulation.Follows input results
      (fun unread => do
        let (part, rest) ← reader unread
        return (build part, rest))
      (walk >>= fun part => pure (otherBuild part)) room := by
  intro unread start stands depth
  refine (follows stands depth).bind depth
    (fun _ other _ _ _ _ reached _ => ends_pure _ reached)
    fun part other rest entries stop _ related _ reached _ => outcome_pure ?_ reached
  rw [List.append_nil]
  exact built part other entries related

/-- A construct with one part is built from the part, after a token that closes it. -/
theorem Follows.closed
    {Part OtherPart : Type}
    {parts : Part → OtherPart → List (Completed Right) → Prop}
    {reader : Reader Part}
    {walk : Walk Right OtherPart}
    (follows : simulation.Follows input parts reader walk room)
    {kind : TokenKind}
    (noMarker : kind ≠ .endOfInput)
    (fault : SyntaxFault)
    {build : Part → First}
    {otherBuild : OtherPart → Second}
    (built : ∀ part other entries, parts part other entries →
      results (build part) (otherBuild other) entries) :
    simulation.Follows input results
      (fun unread => do
        let (part, rest) ← reader unread
        let rest ← Grammar.expect kind fault rest
        return (build part, rest))
      (walk >>= fun part => Walk.closed kind fault otherBuild part) room := by
  intro unread start stands depth
  refine (follows stands depth).bind depth
    (fun _ other _ _ _ _ reached _ => ends_closed noMarker fault otherBuild other reached)
    fun part other rest entries stop _ related _ reached _ =>
      outcome_closed noMarker fault ?_ reached
  rw [List.append_nil]
  exact built part other entries related

/-- A walk follows a reader one level deeper, and where there is no room for a level both refuse
to go there. -/
theorem Follows.nested
    {reader : Reader First}
    {walk : Walk Right Second}
    (follows : simulation.Follows input results reader walk room) :
    simulation.Follows input results reader (Walk.nested walk) (room + 1) := by
  intro unread start stands depth
  have enough : ¬ maxNesting < start.depth + 1 := by omega
  have entered : (enter : Walk Right Unit).runFrom start = some (.ok (), start.enter) := by
    rw [enter, runFrom_bind, runFrom_checkNesting stands, if_neg enough]
    rfl
  have outcome := follows stands.enter (show start.depth + 1 + room = maxNesting by omega)
  rw [runFrom_nested, entered]
  dsimp only
  generalize reader unread = read, walk.runFrom start.enter = ran at outcome ⊢
  cases outcome with
  | accepted related clean goes stands => exact .accepted related clean goes.leave stands.leave
  | refused clean goes stands => exact .refused clean goes.leave stands.leave
  | offended clean offends error inBounds goes stands =>
    exact .offended clean offends error inBounds goes.leave stands.leave

theorem follows_nested_of_noRoom (walk : Walk Right Second) :
    simulation.Follows input results (Grammar.refuse .tooMuchNesting) (Walk.nested walk) 0 := by
  intro unread start stands depth
  have tooDeep : maxNesting < start.depth + 1 := by omega
  rw [runFrom_nested, enter, runFrom_bind, runFrom_checkNesting stands, if_pos tooDeep]
  exact .refused clean_nil (.refl start) stands

end Steps

/-! ## Expressions -/

section Expressions

variable (continues : (∃ target, simulation.offends target) → Continues right)
variable {deeper : Readers Left} {room : Nat}

theorem follows_primary
    (inner : simulation.Follows input simulation.trees deeper.expression
      (Walk.nested (assignment right)) room) :
    simulation.Follows input simulation.trees (Grammar.primary left deeper)
      (expressionPart right .primary) room := by
  intro unread start stands depth
  cases unread with
  | nil =>
    rw [expressionPart_eq, expressionPartFrom, runFrom_peek_nil stands, stands.kind_marker]
    exact outcome_refuse stands .expectedExpression
  | cons token rest =>
    rw [expressionPart_eq, expressionPartFrom, runFrom_peek_cons stands, Grammar.primary]
    have name := simulation.reference ⟨token.lexeme, token.line⟩
    have grouped := inner.closed (show TokenKind.symbol .rightParen ≠ .endOfInput by decide)
      .missingRightParen (fun _ _ _ => simulation.grouping)
    have literal (value : Value) :
        simulation.Outcome input simulation.trees start (.ok (left.literal value, rest))
          ((advance >>= fun _ => pure (right.literal value)).runFrom start) :=
      outcome_advance stands (outcome_pure (simulation.literal value) stands.next)
    cases token.kind with
    | keyword word =>
      cases word with
      | nilWord => exact literal .nil
      | trueWord => exact literal (.boolean true)
      | falseWord => exact literal (.boolean false)
      | _ => exact outcome_refuse stands .expectedExpression
    | symbol mark =>
      cases mark with
      | leftParen => exact outcome_advance stands (grouped stands.next depth)
      | _ => exact outcome_refuse stands .expectedExpression
    | number value => exact literal (.number value)
    | string content => exact literal (.string content)
    | identifier => exact outcome_advance stands (outcome_pure name stands.next)
    | endOfInput => exact outcome_refuse stands .expectedExpression

theorem follows_operand
    (inner : simulation.Follows input simulation.trees deeper.operand
      (Walk.nested (expressionPart right .operand)) room)
    (expression : simulation.Follows input simulation.trees deeper.expression
      (Walk.nested (assignment right)) room) :
    simulation.Follows input simulation.trees (Grammar.operand left deeper)
      (expressionPart right .operand) room := by
  intro unread start stands depth
  cases unread with
  | nil =>
    rw [expressionPart_eq, expressionPartFrom, runFrom_peek_nil stands, stands.kind_marker]
    exact follows_primary expression stands depth
  | cons token rest =>
    rw [expressionPart_eq, expressionPartFrom, runFrom_peek_cons stands, Grammar.operand]
    cases UnaryOp.ofKind? token.kind with
    | some operator =>
      have applied := inner.map (left.unary operator) (right.unary operator)
        (fun _ _ _ => simulation.unary operator)
      exact outcome_advance stands (applied stands.next depth)
    | none => exact follows_primary expression stands depth

include continues in
theorem follows_chainFrom
    {level : Level}
    {next : Reader Left}
    (operands : simulation.Follows input simulation.trees next
      (expressionPart right (.tighter level)) room)
    {count remaining : Nat}
    (whole : count + remaining = room)
    {tree : Left}
    {other : Right}
    {entries : List (Completed Right)}
    (related : simulation.trees tree other entries) :
    simulation.Follows input
      (fun result other later => simulation.trees result other (entries ++ later))
      (Grammar.chainFrom left level next remaining tree)
      (expressionPart right (.chainFrom level count other)) room := by
  intro unread start stands depth
  cases unread with
  | nil =>
    rw [expressionPart_eq, expressionPartFrom, runFrom_peek_nil stands, stands.kind_marker,
      Grammar.chainFrom]
    refine outcome_pure ?_ stands
    rwa [List.append_nil]
  | cons token rest =>
    rw [expressionPart_eq, expressionPartFrom, runFrom_peek_cons stands, Grammar.chainFrom]
    cases Grammar.operatorAt? level token.kind with
    | none =>
      refine outcome_pure ?_ stands
      rwa [List.append_nil]
    | some operator =>
      refine outcome_advance stands ?_
      rw [runFrom_bind, runFrom_checkNesting stands.next]
      have nextDepth : start.next.depth = start.depth := rfl
      cases remaining with
      | zero =>
        rw [if_pos (by omega)]
        exact .refused clean_nil (.refl _) stands.next
      | succ remaining =>
        rw [if_neg (by omega)]
        refine (operands stands.next depth).bind depth (fun some other _ _ _ _ reached depth => ?_)
          fun second otherSecond rest later stop _ relatedSecond _ reached depth => ?_
        · exact (continues some).chainFrom level (by omega) _ reached depth
        · have onward := follows_chainFrom operands (show count + 1 + remaining = room by omega)
            (simulation.binary operator related relatedSecond) reached depth
          simp only [List.append_assoc] at onward
          exact onward
termination_by remaining

include continues in
theorem follows_chain
    (level : Level)
    {next : Reader Left}
    (operands : simulation.Follows input simulation.trees next
      (expressionPart right (.tighter level)) room) :
    simulation.Follows input simulation.trees (Grammar.chain left level room next)
      (expressionPart right (.chain level)) room := by
  intro unread start stands depth
  rw [expressionPart_eq, expressionPartFrom]
  refine (operands stands depth).bind depth (fun some other _ _ _ _ reached depth => ?_)
    fun tree other rest entries stop _ related _ reached depth => ?_
  · exact (continues some).chainFrom level (Nat.zero_le room) other reached depth
  · exact follows_chainFrom continues operands (Nat.zero_add room) related reached depth

/-- The reader of the operands in chains of the level. -/
def operandsOf (builder : Builder Left) (room : Nat) (deeper : Readers Left) : Level → Reader Left
  | .factor => Grammar.operand builder deeper
  | .term => Grammar.chain builder .factor room <| Grammar.operand builder deeper
  | .comparison =>
    Grammar.chain builder .term room <| Grammar.chain builder .factor room <|
      Grammar.operand builder deeper
  | .equality =>
    Grammar.chain builder .comparison room <| Grammar.chain builder .term room <|
      Grammar.chain builder .factor room <| Grammar.operand builder deeper

include continues in
theorem follows_operandsOf
    (inner : simulation.Follows input simulation.trees (Grammar.operand left deeper)
      (expressionPart right .operand) room)
    (level : Level) :
    simulation.Follows input simulation.trees (operandsOf left room deeper level)
      (expressionPart right (.tighter level)) room := by
  have factor : simulation.Follows input simulation.trees (operandsOf left room deeper .factor)
      (expressionPart right (.tighter .factor)) room := by
    rw [expressionPart_eq, expressionPartFrom]
    exact inner
  have term : simulation.Follows input simulation.trees (operandsOf left room deeper .term)
      (expressionPart right (.tighter .term)) room := by
    rw [expressionPart_eq, expressionPartFrom]
    exact follows_chain continues .factor factor
  have comparison : simulation.Follows input simulation.trees
      (operandsOf left room deeper .comparison) (expressionPart right (.tighter .comparison))
      room := by
    rw [expressionPart_eq, expressionPartFrom]
    exact follows_chain continues .term term
  have equality : simulation.Follows input simulation.trees (operandsOf left room deeper .equality)
      (expressionPart right (.tighter .equality)) room := by
    rw [expressionPart_eq, expressionPartFrom]
    exact follows_chain continues .comparison comparison
  cases level with
  | equality => exact equality
  | comparison => exact comparison
  | term => exact term
  | factor => exact factor

/-- The value of an assignment has been read. -/
theorem outcome_assigned
    {target value : Left}
    {otherTarget otherValue : Right}
    {entries later : List (Completed Right)}
    {equal : Token}
    {inside rest : List Token}
    {place : Nat}
    {start : Position Right}
    (isIn : (⟨otherTarget, otherValue, equal, place⟩ : Completed Right).IsIn start.tokens)
    (error : ⟨.invalidAssignmentTarget, place, equal⟩ =
      input.errorOf ⟨.invalidAssignmentTarget, equal :: inside⟩)
    (unread : (start.tokens.drop place).takeWhile (!·.isEnd) = equal :: inside)
    (targets : simulation.trees target otherTarget entries)
    (values : simulation.trees value otherValue later)
    (stands : start.At input rest) :
    simulation.Outcome input
      (fun tree other more => simulation.trees tree other (entries ++ (later ++ more))) start
      (match left.assign target (equal :: inside) value with
        | some tree => .ok (tree, rest)
        | none => .error ⟨.invalidAssignmentTarget, equal :: inside⟩)
      ((assigned right otherTarget equal place otherValue).runFrom start) := by
  have goes := Position.goesTo_record isIn
  have recorded := stands.record ⟨otherTarget, otherValue, equal, place⟩
  have clean (accepts : ¬ simulation.offends otherTarget) :
      simulation.Clean [⟨otherTarget, otherValue, equal, place⟩] := by
    intro entry member
    rwa [List.mem_singleton.1 member]
  have cases := simulation.assign (equal :: inside) ⟨otherTarget, otherValue, equal, place⟩
    targets values
  rw [runFrom_assigned, unread]
  rcases cases with
    ⟨tree, other, built, otherBuilt, accepts, related⟩ | ⟨notBuilt, otherNotBuilt, accepts⟩ |
      ⟨notBuilt, offends⟩
  · rw [built, otherBuilt]
    rw [List.append_assoc] at related
    exact .accepted related (clean accepts) goes recorded
  · rw [notBuilt, otherNotBuilt, error]
    exact .refused (clean accepts) goes recorded
  · rw [notBuilt]
    dsimp only
    split
    · exact .offended clean_nil offends error (by simp) goes recorded
    · exact .offended clean_nil offends error (by simp) goes recorded

theorem ends_assigned
    {target value : Right}
    {equal : Token}
    {place : Nat}
    {start : Position Right}
    {rest : List Token}
    (isIn : (⟨target, value, equal, place⟩ : Completed Right).IsIn start.tokens)
    (stands : start.At input rest) :
    Ends input (assigned right target equal place value) start := by
  have goes := Position.goesTo_record isIn
  have recorded := stands.record ⟨target, value, equal, place⟩
  rw [Ends, runFrom_assigned]
  split
  · exact ⟨_, _, _, _, rfl, by simp, goes, recorded⟩
  · exact ⟨_, _, _, _, rfl, by simp, goes, recorded⟩

include continues in
theorem follows_assignment
    (inner : simulation.Follows input simulation.trees (Grammar.operand left deeper)
      (expressionPart right .operand) room)
    (expression : simulation.Follows input simulation.trees deeper.expression
      (Walk.nested (assignment right)) room) :
    simulation.Follows input simulation.trees (Grammar.assignment left room deeper)
      (assignment right) room := by
  intro unread start stands depth
  rw [assignment, expressionPart_eq, expressionPartFrom]
  have targets := follows_chain continues .equality (follows_operandsOf continues inner .equality)
  refine (targets stands depth).bind depth
    (fun some other _ _ _ _ reached depth =>
      (continues some).assignmentFrom other room reached depth)
    fun target otherTarget rest entries stop _ targets _ reached depth => ?_
  cases rest with
  | nil =>
    rw [expressionPart_eq, expressionPartFrom, runFrom_peek_nil reached, runFrom_get_bind,
      reached.kind_marker, if_neg (by decide)]
    refine outcome_pure ?_ reached
    rwa [List.append_nil]
  | cons equal inside =>
    rw [expressionPart_eq, expressionPartFrom, runFrom_peek_cons reached, runFrom_get_bind]
    dsimp only
    split
    · rename_i isEqual
      have isIn (value : Right) {tokens : List Token} (same : tokens = stop.tokens) :
          (⟨otherTarget, value, equal, stop.current⟩ : Completed Right).IsIn tokens := by
        refine ⟨?_, isEqual⟩
        rw [same]
        exact reached.getElem?_current
      refine outcome_advance reached ((expression reached.next depth).bind depth
        (fun _ other _ _ _ onward ended _ => ends_assigned (isIn other onward.tokens_eq) ended)
        fun value otherValue rest later final _ values onward ended _ => ?_)
      refine outcome_assigned (isIn otherValue onward.tokens_eq) (reached.errorOf_eq _).symm ?_
        targets values ended
      rw [onward.tokens_eq]
      exact reached.takeWhile_drop
    · refine outcome_pure ?_ reached
      rwa [List.append_nil]

end Expressions

section Nesting

variable (continues : (∃ target, simulation.offends target) → Continues right)

/-- The readers that nested walks follow. -/
def deeperReaders (builder : Builder Left) : (room : Nat) → Readers Left
  | 0 => ⟨Grammar.refuse .tooMuchNesting, Grammar.refuse .tooMuchNesting⟩
  | room + 1 => Grammar.readers builder room

theorem readers_eq (builder : Builder Left) (room : Nat) :
    Grammar.readers builder room =
      Grammar.readersWithin builder room (deeperReaders builder room) := by
  cases room <;> rfl

variable (input) in
include continues in
/-- Expressions are walked as they are read, a level deeper too. -/
theorem follows_deeperReaders (room : Nat) :
    simulation.Follows input simulation.trees (deeperReaders left room).operand
        (Walk.nested (expressionPart right .operand)) room ∧
      simulation.Follows input simulation.trees (deeperReaders left room).expression
        (Walk.nested (assignment right)) room := by
  induction room with
  | zero => exact ⟨follows_nested_of_noRoom _, follows_nested_of_noRoom _⟩
  | succ room inductionHypothesis =>
    have operands := follows_operand inductionHypothesis.1 inductionHypothesis.2
    have assignments := follows_assignment continues operands inductionHypothesis.2
    rw [deeperReaders, readers_eq]
    exact ⟨operands.nested, assignments.nested⟩

include continues in
theorem follows_expression (room : Nat) :
    simulation.Follows input simulation.trees (Grammar.expression left room) (assignment right)
      room := by
  obtain ⟨inner, expressions⟩ := follows_deeperReaders input continues room
  rw [Grammar.expression, readers_eq]
  exact follows_assignment continues (follows_operand inner expressions) expressions

end Nesting

/-! ## Statements -/

section Statements

variable (continues : (∃ target, simulation.offends target) → Continues right)
variable {room : Nat} {expression : Reader Left}
variable (expressions :
  simulation.Follows input simulation.trees expression (assignment right) room)

include expressions in
theorem follows_expressionStatement :
    simulation.Follows input simulation.statements (Grammar.expressionStatement expression)
      (expressionStatement right) room :=
  expressions.closed (by decide) _ fun _ _ _ => simulation.expression

include expressions in
theorem follows_printStatement :
    simulation.Follows input simulation.statements (Grammar.printStatement expression)
      (printStatement right) room :=
  expressions.closed (by decide) _ fun _ _ _ => simulation.print

include expressions in
theorem follows_initializer (name : Name) :
    simulation.Follows input
      (fun tree other => simulation.statements (.var name tree) (.var name other))
      (Grammar.initializer expression) (initializer right) room := by
  intro unread start stands depth
  cases unread with
  | nil =>
    rw [initializer, runFrom_peek_nil stands, stands.kind_marker, if_neg (by decide)]
    exact outcome_pure (simulation.declared name) stands
  | cons token rest =>
    rw [initializer, runFrom_peek_cons stands, Grammar.initializer]
    split
    · exact outcome_advance stands
        (expressions.map some some (fun _ _ _ => simulation.initialized name) stands.next depth)
    · exact outcome_pure (simulation.declared name) stands

include expressions in
theorem follows_varDeclaration :
    simulation.Follows input simulation.statements (Grammar.varDeclaration expression)
      (varDeclaration right) room := by
  intro unread start stands depth
  rw [varDeclaration, runFrom_bind]
  rcases runFrom_expect stands (show TokenKind.identifier ≠ .endOfInput by decide)
    .expectedVariableName with ⟨name, rest, rfl, isName, _, ran⟩ | ⟨noName, _, ran⟩
  · rw [ran, Grammar.varDeclaration, if_pos isName]
    have declared := (follows_initializer expressions ⟨name.lexeme, name.line⟩).closed
      (show TokenKind.symbol .semicolon ≠ .endOfInput by decide)
      .expectedSemicolonAfterVarDeclaration (fun _ _ _ => id)
    exact (declared stands.next depth).before clean_nil start.goesTo_next
  · rw [ran]
    have refused : Grammar.varDeclaration expression unread =
        .error ⟨.expectedVariableName, unread⟩ := by
      cases unread with
      | nil => rfl
      | cons token rest => exact if_neg (noName token rfl)
    rw [refused]
    exact .refused clean_nil (.refl start) stands

include continues in
theorem outcome_moreStatements
    (stops : Token → Bool)
    {declaration : Grammar.Advancing (Statement Left)}
    (declarations : simulation.Follows input simulation.statements declaration.read
      (Walk.declaration right) room)
    {found : List (Statement Left)}
    {otherFound : List (Statement Right)}
    {entries : List (Completed Right)}
    (related : Sequence simulation.statements found.reverse otherFound.reverse entries)
    {unread : List Token}
    {start : Position Right}
    (stands : start.At input unread)
    (depth : start.depth + room = maxNesting) :
    simulation.Outcome input
      (fun body other later => Sequence simulation.statements body other (entries ++ later)) start
      (Grammar.statementsFrom stops declaration found unread)
      ((moreStatements right ⟨stops, otherFound⟩).runFrom start) := by
  cases unread with
  | nil =>
    rw [moreStatements_eq, moreStatementsFrom, runFrom_peek_nil stands, stands.wellFormed.isEnd,
      Bool.true_or, if_pos rfl, Grammar.statementsFrom_of_stops (by simp)]
    refine outcome_pure ?_ stands
    rwa [List.append_nil]
  | cons token rest =>
    rw [moreStatements_eq, moreStatementsFrom, runFrom_peek_cons stands, stands.isEnd_eq_false,
      Bool.false_or]
    by_cases stopped : stops token = true
    · rw [if_pos stopped, Grammar.statementsFrom_of_stops (by simpa using stopped)]
      refine outcome_pure ?_ stands
      rwa [List.append_nil]
    · rw [if_neg stopped, Grammar.statementsFrom_of_goesOn stopped]
      refine (declarations stands depth).bind depth
        (fun some other _ _ _ _ reached depth =>
          (continues some).moreStatements _ room reached depth)
        fun statement other rest later stop read relatedNext _ reached depth => ?_
      have shorter := declaration.advances read
      have onward := outcome_moreStatements stops declarations
        (show Sequence simulation.statements (statement :: found).reverse
          (other :: otherFound).reverse (entries ++ later) by
            simpa using related.snoc relatedNext) reached depth
      simp only [List.append_assoc] at onward
      exact onward
termination_by unread.length

include continues in
theorem follows_block
    {declaration : Grammar.Advancing (Statement Left)}
    (declarations : simulation.Follows input simulation.statements declaration.read
      (Walk.declaration right) room) :
    simulation.Follows input simulation.statements (Grammar.block declaration)
      (Walk.block right) room := by
  have nothingFound : Sequence simulation.statements [].reverse [].reverse [] := .nil
  have bodies : simulation.Follows input (Sequence simulation.statements)
      (Grammar.statementsFrom Grammar.endsBlock declaration [])
      (moreStatements right ⟨Grammar.endsBlock, []⟩) room :=
    fun _ _ => outcome_moreStatements continues Grammar.endsBlock declarations nothingFound
  rw [Walk.block, blockFrom]
  exact bodies.closed (by decide) _ fun _ _ _ => simulation.block

include expressions in
theorem follows_declaration
    {inBlock : Reader (Statement Left)}
    (blocks : simulation.Follows input simulation.statements inBlock
      (Walk.nested (Walk.block right)) room) :
    simulation.Follows input simulation.statements (Grammar.declaration expression inBlock)
      (declaration right) room := by
  intro unread start stands depth
  cases unread with
  | nil =>
    rw [declaration, declarationFrom, runFrom_peek_nil stands, stands.kind_marker]
    exact follows_expressionStatement expressions stands depth
  | cons token rest =>
    rw [declaration, declarationFrom, runFrom_peek_cons stands, Grammar.declaration]
    have other := follows_expressionStatement expressions stands depth
    cases token.kind with
    | keyword word =>
      cases word with
      | varWord =>
        exact outcome_advance stands (follows_varDeclaration expressions stands.next depth)
      | printWord =>
        exact outcome_advance stands (follows_printStatement expressions stands.next depth)
      | _ => exact other
    | symbol mark =>
      cases mark with
      | leftBrace => exact outcome_advance stands (blocks stands.next depth)
      | _ => exact other
    | _ => exact other

end Statements

section Programs

variable (continues : (∃ target, simulation.offends target) → Continues right)

include continues in
theorem follows_declarationAt (room : Nat) :
    simulation.Follows input simulation.statements (Grammar.declarationAt left room).read
      (declaration right) room := by
  induction room with
  | zero =>
    exact follows_declaration (follows_expression continues 0) (follows_nested_of_noRoom _)
  | succ room inductionHypothesis =>
    exact follows_declaration (follows_expression continues (room + 1))
      (follows_block continues inductionHypothesis).nested

include continues in
/-- A walk along a whole list of tokens. -/
theorem outcome_program (tokens : List Token) :
    simulation.Outcome (.ofTokens tokens) (Sequence simulation.statements) (Position.start tokens)
      (Grammar.program left (TokenInput.ofTokens tokens).tokens)
      ((program right).runFrom (Position.start tokens)) := by
  have nothingFound : Sequence simulation.statements [].reverse [].reverse [] := .nil
  exact outcome_moreStatements continues _ (follows_declarationAt continues maxNesting) nothingFound
    (Position.at_start tokens) (Nat.zero_add maxNesting)

include continues in
/-- A walk along the expression at the beginning of a list of tokens. -/
theorem outcome_assignment (tokens : List Token) :
    simulation.Outcome (.ofTokens tokens) simulation.trees (Position.start tokens)
      (Grammar.expression left maxNesting (TokenInput.ofTokens tokens).tokens)
      ((assignment right).runFrom (Position.start tokens)) :=
  follows_expression continues maxNesting (Position.at_start tokens) (Nat.zero_add maxNesting)

/-! ## Whole lists of tokens -/

/-- What a walk along a list of tokens comes to beside a reader, with the assignments that the walk
completes. -/
inductive Reading {First Second : Type}
    (simulation : Simulation left right)
    (results : First → Second → List (Completed Right) → Prop) :
    Except SyntaxError First → Option (Except Stop Second × List (Completed Right)) → Prop where
  | accepted
    {result : First}
    {other : Second}
    {completed : List (Completed Right)}
    (related : results result other completed)
    (clean : simulation.Clean completed) :
    Reading simulation results (.ok result) (some (.ok other, completed))
  | refused
    {error : SyntaxError}
    {completed : List (Completed Right)}
    (clean : simulation.Clean completed) :
    Reading simulation results (.error error) (some (.error (.refused error), completed))
  | offended
    {result : Except Stop Second}
    {before later : List (Completed Right)}
    {offender : Completed Right}
    (clean : simulation.Clean before)
    (offends : simulation.offends offender.target)
    (inBounds : result ≠ .error .outOfBounds) :
    Reading simulation results (.error offender.error) (some (result, before ++ offender :: later))

theorem Outcome.reading
    {First Second : Type}
    {results : First → Second → List (Completed Right) → Prop}
    {tokens : List Token}
    {reader : Reader First}
    {walk : Walk Right Second}
    (outcome : simulation.Outcome (.ofTokens tokens) results (Position.start tokens)
      (reader (TokenInput.ofTokens tokens).tokens) (walk.runFrom (Position.start tokens))) :
    simulation.Reading results ((TokenInput.ofTokens tokens).read reader) (walk.along tokens) := by
  rw [TokenInput.read, along]
  generalize reader (TokenInput.ofTokens tokens).tokens = read,
    walk.runFrom (Position.start tokens) = ran at outcome
  have nothingBefore : (Position.start tokens : Position Right).completed = [] := rfl
  cases outcome with
  | @accepted result other rest entries stop related clean goes stands =>
    have completed : stop.completed = entries := by simpa [nothingBefore] using goes.completed_eq
    rw [← completed] at related clean
    exact .accepted related clean
  | @refused refusal rest entries stop clean goes stands =>
    have completed : stop.completed = entries := by simpa [nothingBefore] using goes.completed_eq
    rw [← completed] at clean
    exact .refused clean
  | @offended refusal result rest entries later offender stop clean offends error inBounds goes _ =>
    have completed : stop.completed = entries ++ offender :: later := by
      simpa [nothingBefore] using goes.completed_eq
    dsimp only [Option.map_some]
    rw [← error, completed]
    exact .offended clean offends inBounds

include continues in
theorem reading_program (tokens : List Token) :
    simulation.Reading (Sequence simulation.statements) (Grammar.readProgram left tokens)
      ((program right).along tokens) :=
  (outcome_program continues tokens).reading

include continues in
theorem reading_expression (tokens : List Token) :
    simulation.Reading simulation.trees (Grammar.readExpression left tokens)
      ((assignment right).along tokens) :=
  (outcome_assignment continues tokens).reading

end Programs

end Simulation

end Lox.Walk
