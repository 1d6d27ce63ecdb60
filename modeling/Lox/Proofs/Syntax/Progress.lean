import Lox.Proofs.Syntax.InBounds

/-!
Contract: walks move on, and end.

Owns:
- the positions that can be reached along a list of tokens;
- what every walk keeps from where it starts to where it ends, and how far it moves on;
- families of walks with a bound on the calls that are open at the same time, and a bound that is
  enough, from the tokens that are left and the level of the grammar;
- that from every position that can be reached every walk moves on as it should, and ends.

Does not own: what walks read.
-/

namespace Lox

open Grammar (Builder maxNesting)

/-! ## Positions that can be reached -/

namespace Position

variable {Tree : Type}

/-- The index of the first end marker. -/
def firstEnd (position : Position Tree) : Nat :=
  position.tokens.findIdx Token.isEnd

/-- How many tokens are left before the first end marker. -/
def remaining (position : Position Tree) : Nat :=
  position.firstEnd - position.current

/-- The positions that steps along the tokens lead to: past a token that is no end marker, a level
deeper where that is not too deep and back again, and with an assignment on record. -/
inductive ReachedAlong (tokens : List Token) : Position Tree → Prop where
  | start : ReachedAlong tokens (.start tokens)
  | next
    {position : Position Tree}
    {token : Token}
    (reached : ReachedAlong tokens position)
    (found : position.tokens[position.current]? = some token)
    (noEnd : token.isEnd = false) :
    ReachedAlong tokens position.next
  | enter
    {position : Position Tree}
    (reached : ReachedAlong tokens position)
    (room : position.depth < maxNesting) :
    ReachedAlong tokens position.enter
  | leave
    {position : Position Tree}
    (reached : ReachedAlong tokens position)
    (inside : 0 < position.depth) :
    ReachedAlong tokens position.leave
  | record
    {position : Position Tree}
    (entry : Completed Tree)
    (reached : ReachedAlong tokens position) :
    ReachedAlong tokens (position.record entry)

section At

variable {input : TokenInput} {unread : List Token} {position : Position Tree}

theorem At.firstEnd_eq (stands : position.At input unread) :
    position.firstEnd = input.tokens.length := by
  obtain ⟨after, same⟩ := stands.tokens_eq
  have noneBefore : input.tokens.findIdx Token.isEnd = input.tokens.length :=
    List.findIdx_eq_length.2 fun token member => stands.wellFormed.noEnd member
  rw [firstEnd, same, List.findIdx_append, noneBefore, if_neg (Nat.lt_irrefl _),
    List.findIdx_cons, stands.wellFormed.isEnd]
  exact Nat.zero_add _

theorem At.remaining_eq (stands : position.At input unread) :
    position.remaining = unread.length := by
  have length := stands.length_eq
  rw [remaining, stands.firstEnd_eq]
  omega

theorem ReachedAlong.exists_at
    {tokens : List Token}
    (reached : position.ReachedAlong tokens) :
    ∃ unread, position.At (.ofTokens tokens) unread := by
  induction reached with
  | start => exact ⟨_, at_start tokens⟩
  | @next position token _ found noEnd inductionHypothesis =>
    obtain ⟨unread, stands⟩ := inductionHypothesis
    rw [stands.getElem?_current] at found
    cases unread with
    | nil =>
      have isMarker : (TokenInput.ofTokens tokens).marker = token := Option.some.inj found
      rw [← isMarker, stands.wellFormed.isEnd] at noEnd
      cases noEnd
    | cons first rest => exact ⟨rest, stands.next⟩
  | enter _ _ inductionHypothesis =>
    obtain ⟨unread, stands⟩ := inductionHypothesis
    exact ⟨unread, stands.enter⟩
  | leave _ _ inductionHypothesis =>
    obtain ⟨unread, stands⟩ := inductionHypothesis
    exact ⟨unread, stands.leave⟩
  | record entry _ inductionHypothesis =>
    obtain ⟨unread, stands⟩ := inductionHypothesis
    exact ⟨unread, stands.record entry⟩

end At

theorem ReachedAlong.tokens_eq
    {tokens : List Token}
    {position : Position Tree}
    (reached : position.ReachedAlong tokens) :
    position.tokens = (Position.start tokens : Position Tree).tokens := by
  induction reached with
  | start => rfl
  | next _ _ _ inductionHypothesis => exact inductionHypothesis
  | enter _ _ inductionHypothesis => exact inductionHypothesis
  | leave _ _ inductionHypothesis => exact inductionHypothesis
  | record _ _ inductionHypothesis => exact inductionHypothesis

theorem ReachedAlong.depth_le
    {tokens : List Token}
    {position : Position Tree}
    (reached : position.ReachedAlong tokens) :
    position.depth ≤ maxNesting := by
  induction reached with
  | start => exact Nat.zero_le maxNesting
  | next _ _ _ inductionHypothesis => exact inductionHypothesis
  | enter _ room _ => exact room
  | leave _ _ inductionHypothesis => exact Nat.le_trans (Nat.sub_le _ _) inductionHypothesis
  | record _ _ inductionHypothesis => exact inductionHypothesis

theorem reachedAlong_of_current
    (tokens : List Token)
    {current : Nat}
    (within : current ≤ (start tokens : Position Tree).firstEnd) :
    ReachedAlong tokens { (start tokens : Position Tree) with current := current } := by
  induction current with
  | zero => exact .start
  | succ current inductionHypothesis =>
    have inside : current < (start tokens : Position Tree).tokens.length :=
      Nat.lt_of_lt_of_le within List.findIdx_le_length
    exact .next (inductionHypothesis (Nat.le_of_succ_le within)) (List.getElem?_eq_getElem inside)
      (List.not_of_lt_findIdx within)

theorem ReachedAlong.deeper
    {tokens : List Token}
    {position : Position Tree}
    (reached : position.ReachedAlong tokens)
    (further : Nat)
    (room : position.depth + further ≤ maxNesting) :
    ReachedAlong tokens { position with depth := position.depth + further } := by
  induction further with
  | zero => exact reached
  | succ further inductionHypothesis =>
    exact .enter (inductionHypothesis (Nat.le_of_succ_le room)) room

theorem ReachedAlong.recorded
    {tokens : List Token}
    {position : Position Tree}
    (reached : position.ReachedAlong tokens)
    (entries : List (Completed Tree)) :
    ReachedAlong tokens { position with completed := position.completed ++ entries } := by
  induction entries generalizing position with
  | nil =>
    rw [List.append_nil]
    exact reached
  | cons entry entries inductionHypothesis =>
    have onward := inductionHypothesis (reached.record entry)
    simp only [Position.record, List.append_assoc, List.singleton_append] at onward
    exact onward

/-- A position can be reached if it is on the tokens, not past the end marker, and not too deep. -/
theorem reachedAlong_iff {tokens : List Token} {position : Position Tree} :
    position.ReachedAlong tokens ↔
      position.tokens = (start tokens : Position Tree).tokens ∧
        position.current ≤ position.firstEnd ∧ position.depth ≤ maxNesting := by
  constructor
  · intro reached
    obtain ⟨unread, stands⟩ := reached.exists_at
    exact ⟨reached.tokens_eq, stands.firstEnd_eq ▸ stands.within, reached.depth_le⟩
  · obtain ⟨all, current, depth, completed⟩ := position
    rintro ⟨rfl, within, notTooDeep⟩
    -- First along the tokens, then down the levels, and then through the record.
    have deep := (reachedAlong_of_current tokens within).deeper depth
      (by rwa [start, Nat.zero_add])
    have whole := deep.recorded completed
    simp only [start, Nat.zero_add, List.nil_append] at whole
    exact whole

/-! ## Moving on -/

/-- From one position to another at least so many tokens further on, along the same tokens, at the
same depth, and not past the first end marker. -/
structure MovesTo (start : Position Tree) (least : Nat) (stop : Position Tree) : Prop where
  tokens_eq : stop.tokens = start.tokens
  depth_eq : stop.depth = start.depth
  onward : start.current + least ≤ stop.current
  within : stop.current ≤ start.firstEnd

namespace MovesTo

variable {input : TokenInput} {unread : List Token} {start middle stop : Position Tree}

theorem trans
    {least further : Nat}
    (first : start.MovesTo least middle)
    (second : middle.MovesTo further stop) :
    start.MovesTo (least + further) stop where
  tokens_eq := second.tokens_eq.trans first.tokens_eq
  depth_eq := second.depth_eq.trans first.depth_eq
  onward := by
    have := first.onward
    have := second.onward
    omega
  within := by
    have within := second.within
    rwa [firstEnd, first.tokens_eq] at within

theorem mono
    {least fewer : Nat}
    (moves : start.MovesTo least stop)
    (le : fewer ≤ least) :
    start.MovesTo fewer stop :=
  ⟨moves.tokens_eq, moves.depth_eq, Nat.le_trans (Nat.add_le_add_left le _) moves.onward,
    moves.within⟩

/-- A level is left as it was entered. -/
theorem leave {least : Nat} (inside : start.enter.MovesTo least stop) :
    start.MovesTo least stop.leave where
  tokens_eq := inside.tokens_eq
  depth_eq := by
    have deeper : stop.depth = start.depth + 1 := inside.depth_eq
    simp [Position.leave, deeper]
  onward := inside.onward
  within := inside.within

theorem reachedAlong
    {tokens : List Token}
    {least : Nat}
    (moves : start.MovesTo least stop)
    (reached : start.ReachedAlong tokens) :
    stop.ReachedAlong tokens := by
  obtain ⟨tokens_eq, _, notTooDeep⟩ := reachedAlong_iff.1 reached
  refine reachedAlong_iff.2 ⟨moves.tokens_eq.trans tokens_eq, ?_, ?_⟩
  · rw [firstEnd, moves.tokens_eq]
    exact moves.within
  · rw [moves.depth_eq]
    exact notTooDeep

/-- Where a walk has moved on, that much less is unread. -/
theorem exists_at
    {least : Nat}
    (moves : start.MovesTo least stop)
    (stands : start.At input unread) :
    ∃ rest, stop.At input rest ∧ rest.length + least ≤ unread.length := by
  have within := moves.within
  rw [stands.firstEnd_eq] at within
  have reached : stop.At input (input.tokens.drop stop.current) :=
    ⟨stands.wellFormed, moves.tokens_eq ▸ stands.tokens_eq, rfl, within⟩
  refine ⟨_, reached, ?_⟩
  have := moves.onward
  have := stands.length_eq
  have := reached.length_eq
  omega

end MovesTo

section At

variable {input : TokenInput} {unread : List Token} {position : Position Tree}

theorem At.movesTo_self (stands : position.At input unread) : position.MovesTo 0 position :=
  ⟨rfl, rfl, Nat.le_refl _, stands.firstEnd_eq ▸ stands.within⟩

theorem At.movesTo_record (stands : position.At input unread) (entry : Completed Tree) :
    position.MovesTo 0 (position.record entry) :=
  ⟨rfl, rfl, Nat.le_refl _, stands.firstEnd_eq ▸ stands.within⟩

theorem At.movesTo_next
    {token : Token}
    {rest : List Token}
    (stands : position.At input (token :: rest)) :
    position.MovesTo 1 position.next :=
  ⟨rfl, rfl, Nat.le_refl _, stands.firstEnd_eq ▸ stands.next.within⟩

end At

end Position

namespace Walk

variable {Tree Result : Type}

/-- What comes of a walk: it ends, with a result at least so many tokens further on, or with a
refusal at a position that it has moved on to. -/
inductive Arrives (start : Position Tree) (least : Nat) :
    Option (Except Stop Result × Position Tree) → Prop where
  | accepted
    {result : Result}
    {stop : Position Tree}
    (moves : start.MovesTo least stop) :
    Arrives start least (some (.ok result, stop))
  | refused
    {error : SyntaxError}
    {stop : Position Tree}
    (moves : start.MovesTo 0 stop) :
    Arrives start least (some (.error (.refused error), stop))

/-! ## Walks that move on -/

section Steps

variable {input : TokenInput} {unread rest : List Token} {token : Token}
variable {start middle : Position Tree} {least further : Nat}
variable {ran : Option (Except Stop Result × Position Tree)}

namespace Arrives

theorem mono (arrives : Arrives start least ran) (le : further ≤ least) :
    Arrives start further ran := by
  cases arrives with
  | accepted moves => exact .accepted (moves.mono le)
  | refused moves => exact .refused moves

theorem ne_none (arrives : Arrives start least ran) : ran ≠ none := by
  cases arrives with
  | accepted _ => exact Option.some_ne_none _
  | refused _ => exact Option.some_ne_none _

/-- Going on from where a walk has moved to. -/
theorem after (arrives : Arrives middle further ran) (moves : start.MovesTo least middle) :
    Arrives start (least + further) ran := by
  cases arrives with
  | accepted onward => exact .accepted (moves.trans onward)
  | refused onward => exact .refused ((moves.trans onward).mono (Nat.zero_le _))

/-- One walk after another. -/
theorem bind
    {First : Type}
    {walk : Walk Tree First}
    {goOn : First → Walk Tree Result}
    (first : Arrives start least (walk.runFrom start))
    (stands : start.At input unread)
    (second : ∀ result middle rest, middle.At input rest → rest.length + least ≤ unread.length →
      Arrives middle further ((goOn result).runFrom middle)) :
    Arrives start (least + further) ((walk >>= goOn).runFrom start) := by
  rw [runFrom_bind]
  generalize walk.runFrom start = ran at first
  cases first with
  | accepted moves =>
    obtain ⟨rest, reached, fewer⟩ := moves.exists_at stands
    exact (second _ _ rest reached fewer).after moves
  | refused moves => exact .refused moves

end Arrives

theorem arrives_pure (stands : start.At input unread) (result : Result) :
    Arrives start 0 ((pure result : Walk Tree Result).runFrom start) :=
  .accepted stands.movesTo_self

theorem arrives_refuse (stands : start.At input unread) (fault : SyntaxFault) :
    Arrives start least ((refuse fault : Walk Tree Result).runFrom start) := by
  rw [runFrom_refuse stands]
  exact .refused stands.movesTo_self

/-- At an end marker nothing moves. -/
theorem arrives_advance (stands : start.At input unread) :
    Arrives start 0 ((advance : Walk Tree Token).runFrom start) := by
  cases unread with
  | nil =>
    rw [advance, runFrom_peek_nil stands, stands.wellFormed.isEnd]
    exact arrives_pure stands input.marker
  | cons token rest =>
    rw [runFrom_advance stands]
    exact .accepted (stands.movesTo_next.mono (Nat.zero_le 1))

/-- A token is passed before everything else. -/
theorem arrives_advance_bind
    {goOn : Token → Walk Tree Result}
    (stands : start.At input (token :: rest))
    (arrives : Arrives start.next least ((goOn token).runFrom start.next)) :
    Arrives start 1 ((advance >>= goOn).runFrom start) := by
  rw [runFrom_advance_bind stands]
  exact (arrives.after stands.movesTo_next).mono (Nat.le_add_right 1 least)

theorem arrives_expect
    {kind : TokenKind}
    (noMarker : kind ≠ .endOfInput)
    (fault : SyntaxFault)
    (stands : start.At input unread) :
    Arrives start 1 ((expect kind fault : Walk Tree Token).runFrom start) := by
  rcases runFrom_expect stands noMarker fault with
    ⟨token, rest, rfl, _, _, ran⟩ | ⟨_, _, ran⟩
  · rw [ran]
    exact .accepted stands.movesTo_next
  · rw [ran]
    exact .refused stands.movesTo_self

/-- A construct is closed by a token of the kind. -/
theorem Arrives.closed
    {Inner : Type}
    {walk : Walk Tree Inner}
    {kind : TokenKind}
    {fault : SyntaxFault}
    {build : Inner → Result}
    (inner : Arrives start least (walk.runFrom start))
    (stands : start.At input unread)
    (noMarker : kind ≠ .endOfInput) :
    Arrives start 1 ((walk >>= fun part => Walk.closed kind fault build part).runFrom start) := by
  refine (inner.bind stands fun part _ _ reached _ => ?_).mono (Nat.le_add_left 1 least)
  exact (arrives_expect noMarker fault reached).bind reached fun _ _ _ onward _ =>
    arrives_pure onward (build part)

theorem arrives_checkNesting (stands : start.At input unread) (levels : Nat) :
    Arrives start 0 ((checkNesting levels : Walk Tree Unit).runFrom start) := by
  rw [runFrom_checkNesting stands]
  split
  · exact .refused stands.movesTo_self
  · exact .accepted stands.movesTo_self

theorem runFrom_enter (stands : start.At input unread) :
    (enter : Walk Tree Unit).runFrom start =
      if maxNesting < start.depth + 1 then
        some (.error (.refused (input.errorOf ⟨.tooMuchNesting, unread⟩)), start)
      else some (.ok (), start.enter) := by
  rw [enter, runFrom_bind, runFrom_checkNesting stands]
  by_cases tooDeep : maxNesting < start.depth + 1
  · rw [if_pos tooDeep, if_pos tooDeep]
  · rw [if_neg tooDeep, if_neg tooDeep]
    rfl

/-- A walk one level deeper comes back to the depth where it started, also where it refuses. -/
theorem arrives_nested
    {walk : Walk Tree Result}
    (stands : start.At input unread)
    (inside : Arrives start.enter least (walk.runFrom start.enter)) :
    Arrives start least ((nested walk).runFrom start) := by
  rw [runFrom_nested, runFrom_enter stands]
  by_cases tooDeep : maxNesting < start.depth + 1
  · rw [if_pos tooDeep]
    exact .refused stands.movesTo_self
  · rw [if_neg tooDeep]
    dsimp only
    generalize walk.runFrom start.enter = ran at inside ⊢
    cases inside with
    | accepted moves => exact .accepted moves.leave
    | refused moves => exact .refused moves.leave

theorem arrives_assigned
    (builder : Builder Tree)
    (target : Tree)
    (equal : Token)
    (place : Nat)
    (value : Tree)
    (stands : start.At input unread) :
    Arrives start 0 ((assigned builder target equal place value).runFrom start) := by
  rw [runFrom_assigned]
  split
  · exact .accepted (stands.movesTo_record _)
  · exact .refused (stands.movesTo_record _)

end Steps

/-! ## Bounded families -/

section Families

variable {Key : Type}

/-- The walks of a family with at most so many of them open at the same time.  A walk that needs
more has no end. -/
def familyWithin (step : Step Key Tree Result) : (calls : Nat) → Family Key Tree Result
  | 0 => fun _ _ => none
  | calls + 1 => step.next (familyWithin step calls)

theorem below_familyWithin (step : Step Key Tree Result) (calls : Nat) (key : Key) :
    Below (familyWithin step calls key) (family step key) := by
  induction calls generalizing key with
  | zero => exact fun _ => .inl rfl
  | succ calls inductionHypothesis =>
    rw [family_eq, familyWithin]
    exact step.below inductionHypothesis key

/-- Where so many calls are more than are needed, the walks move on as they should. -/
def ArriveWithin (least : Key → Nat) (needed : Key → Nat → Nat) (input : TokenInput) (calls : Nat)
    (walks : Family Key Tree Result) : Prop :=
  ∀ (key : Key) ⦃unread : List Token⦄ ⦃start : Position Tree⦄, start.At input unread →
    needed key unread.length < calls → Arrives start (least key) ((walks key).runFrom start)

variable {step : Step Key Tree Result} {least : Key → Nat} {needed : Key → Nat → Nat}
variable {input : TokenInput}

/-- What a step with one call more keeps holds of the family with any number of calls. -/
theorem arriveWithin_familyWithin
    (kept : ∀ calls walks, ArriveWithin least needed input calls walks →
      ArriveWithin least needed input (calls + 1) (step.next walks))
    (calls : Nat) :
    ArriveWithin least needed input calls (familyWithin step calls) := by
  induction calls with
  | zero => exact fun _ _ _ _ enough => absurd enough (Nat.not_lt_zero _)
  | succ calls inductionHypothesis => exact kept calls _ inductionHypothesis

variable (within : ∀ calls, ArriveWithin least needed input calls (familyWithin step calls))
variable (key : Key) {unread : List Token} {start : Position Tree}

include within in
/-- With one call more than are needed the walks do what the family does. -/
theorem runFrom_familyWithin (stands : start.At input unread) :
    (familyWithin step (needed key unread.length + 1) key).runFrom start =
      (family step key).runFrom start := by
  have arrives := within _ key stands (Nat.lt_succ_self _)
  exact (below_familyWithin step _ key start).resolve_left arrives.ne_none

include within in
theorem arrives_family (stands : start.At input unread) :
    Arrives start (least key) ((family step key).runFrom start) := by
  rw [← runFrom_familyWithin within key stands]
  exact within _ key stands (Nat.lt_succ_self _)

end Families

/-! ## Expressions -/

/-- How many parts there are that are tighter than the operands of the level. -/
def operandLooseness : Level → Nat
  | .equality => 8
  | .comparison => 6
  | .term => 4
  | .factor => 2

/-- How many parts there are that are tighter.  A part begins with the next tighter one, or it looks
at a token first. -/
def Part.looseness : Part Tree → Nat
  | .assignment => 10
  | .chain level => operandLooseness level + 1
  | .tighter level => operandLooseness level
  | .operand => 1
  | .primary | .assignmentFrom _ | .chainFrom _ _ _ => 0

/-- How many calls of parts can be open below one of the part, in front of so many tokens.  Each of
them is for a tighter part, or it is behind a token and may be for any of the eleven loosenesses. -/
def Part.callsBelow (part : Part Tree) (remaining : Nat) : Nat :=
  11 * remaining + part.looseness

/-- How many tokens a part has at least.  What goes on with an expression may be nothing. -/
def Part.least : Part Tree → Nat
  | .assignmentFrom _ | .chainFrom _ _ _ => 0
  | _ => 1

theorem Part.looseness_le (part : Part Tree) : part.looseness ≤ 10 := by
  have operands (level : Level) : operandLooseness level + 1 ≤ 10 := by
    cases level <;> decide
  cases part with
  | chain level => exact operands level
  | tighter level => exact Nat.le_of_succ_le (operands level)
  | _ => simp [looseness]

/-- Behind a token every part needs fewer calls. -/
theorem Part.callsBelow_lt
    (part other : Part Tree)
    {fewer remaining : Nat}
    (passed : fewer + 1 ≤ remaining) :
    part.callsBelow fewer < other.callsBelow remaining := by
  have := part.looseness_le
  simp only [callsBelow]
  omega

section Expressions

variable (builder : Builder Tree)

section Parts

variable {walks : Family (Part Tree) Tree Tree} {input : TokenInput} {unread : List Token}
variable {start : Position Tree}

/-- All parts move on as they should where fewer tokens are left. -/
def ArriveBehind (walks : Family (Part Tree) Tree Tree) (input : TokenInput)
    (unread : List Token) : Prop :=
  ∀ (part : Part Tree) ⦃rest : List Token⦄ ⦃position : Position Tree⦄, position.At input rest →
    rest.length + 1 ≤ unread.length → Arrives position part.least ((walks part).runFrom position)

theorem arrives_assignmentFrom
    (stands : start.At input unread)
    (behind : ArriveBehind walks input unread)
    (target : Tree) :
    Arrives start 0
      ((expressionPartFrom builder walks (.assignmentFrom target)).runFrom start) := by
  cases unread with
  | nil =>
    rw [expressionPartFrom, runFrom_peek_nil stands, runFrom_get_bind, stands.kind_marker,
      if_neg (by decide)]
    exact arrives_pure stands target
  | cons equal inside =>
    rw [expressionPartFrom, runFrom_peek_cons stands, runFrom_get_bind]
    split
    · have value := arrives_nested stands.next
        (behind .assignment stands.next.enter (Nat.le_refl _))
      have whole := value.bind stands.next fun value _ _ reached _ =>
        arrives_assigned builder target equal start.current value reached
      exact (arrives_advance_bind stands whole).mono (Nat.zero_le 1)
    · exact arrives_pure stands target

theorem arrives_chainFrom
    (stands : start.At input unread)
    (behind : ArriveBehind walks input unread)
    (level : Level)
    (count : Nat)
    (left : Tree) :
    Arrives start 0
      ((expressionPartFrom builder walks (.chainFrom level count left)).runFrom start) := by
  cases unread with
  | nil =>
    rw [expressionPartFrom, runFrom_peek_nil stands, stands.kind_marker]
    exact arrives_pure stands left
  | cons token rest =>
    rw [expressionPartFrom, runFrom_peek_cons stands]
    cases Grammar.operatorAt? level token.kind with
    | none => exact arrives_pure stands left
    | some operator =>
      -- The operator is passed, so its operand and the rest of the chain are both behind a token.
      have operands {after : List Token} {middle : Position Tree}
          (reached : middle.At input after) (passed : after.length ≤ rest.length) :
          Arrives middle 1 ((walks (.tighter level) >>= fun right =>
            walks (.chainFrom level (count + 1) (builder.binary left operator right))).runFrom
              middle) :=
        (behind (.tighter level) reached (Nat.succ_le_succ passed)).bind reached
          fun right _ _ onward fewer =>
            behind (.chainFrom level (count + 1) (builder.binary left operator right)) onward
              (Nat.le_succ_of_le (Nat.le_trans fewer passed))
      have whole := (arrives_checkNesting stands.next (count + 1)).bind stands.next
        fun _ _ _ reached notMore => operands reached notMore
      exact (arrives_advance_bind stands whole).mono (Nat.zero_le 1)

theorem arrives_operand
    (stands : start.At input unread)
    (behind : ArriveBehind walks input unread)
    (primary : Arrives start 1 ((walks .primary).runFrom start)) :
    Arrives start 1 ((expressionPartFrom builder walks .operand).runFrom start) := by
  cases unread with
  | nil =>
    rw [expressionPartFrom, runFrom_peek_nil stands, stands.kind_marker]
    exact primary
  | cons token rest =>
    rw [expressionPartFrom, runFrom_peek_cons stands]
    cases UnaryOp.ofKind? token.kind with
    | some operator =>
      have inner := arrives_nested stands.next
        (behind .operand stands.next.enter (Nat.le_refl _))
      have whole := inner.bind stands.next fun inner _ _ reached _ =>
        arrives_pure reached (builder.unary operator inner)
      exact arrives_advance_bind stands whole
    | none => exact primary

theorem arrives_primary
    (stands : start.At input unread)
    (behind : ArriveBehind walks input unread) :
    Arrives start 1 ((expressionPartFrom builder walks .primary).runFrom start) := by
  cases unread with
  | nil =>
    rw [expressionPartFrom, runFrom_peek_nil stands, stands.kind_marker]
    exact arrives_refuse stands .expectedExpression
  | cons token rest =>
    rw [expressionPartFrom, runFrom_peek_cons stands]
    have single (tree : Tree) :
        Arrives start 1 ((advance >>= fun _ => pure tree).runFrom start) :=
      arrives_advance_bind stands (arrives_pure stands.next tree)
    split
    case h_7 =>
      have inner := arrives_nested stands.next
        (behind .assignment stands.next.enter (Nat.le_refl _))
      exact arrives_advance_bind stands (inner.closed stands.next (by decide))
    case h_8 => exact arrives_refuse stands .expectedExpression
    all_goals exact single _

/-- A part moves on as it should if all parts do that are tighter or behind a token. -/
theorem arriveWithin_expressionPartFrom
    (calls : Nat)
    (walks : Family (Part Tree) Tree Tree)
    (within : ArriveWithin Part.least Part.callsBelow input calls walks) :
    ArriveWithin Part.least Part.callsBelow input (calls + 1)
      (expressionPartFrom builder walks) := by
  intro part unread start stands enough
  have notMore : part.callsBelow unread.length ≤ calls := Nat.le_of_lt_succ enough
  have tighter (other : Part Tree) (less : other.looseness < part.looseness) :
      Arrives start other.least ((walks other).runFrom start) :=
    within other stands (Nat.lt_of_lt_of_le (Nat.add_lt_add_left less _) notMore)
  have behind : ArriveBehind walks input unread := fun other _ _ reached passed =>
    within other reached (Nat.lt_of_lt_of_le (other.callsBelow_lt part passed) notMore)
  cases part with
  | assignment =>
    exact (tighter (.chain .equality) (show 9 < 10 by decide)).bind stands
      fun target _ _ reached passed => behind (.assignmentFrom target) reached passed
  | assignmentFrom target => exact arrives_assignmentFrom builder stands behind target
  | chain level =>
    exact (tighter (.tighter level) (Nat.lt_succ_self _)).bind stands
      fun left _ _ reached passed => behind (.chainFrom level 0 left) reached passed
  | tighter level =>
    cases level with
    | equality => exact tighter (.chain .comparison) (show 7 < 8 by decide)
    | comparison => exact tighter (.chain .term) (show 5 < 6 by decide)
    | term => exact tighter (.chain .factor) (show 3 < 4 by decide)
    | factor => exact tighter .operand (show 1 < 2 by decide)
  | chainFrom level count left => exact arrives_chainFrom builder stands behind level count left
  | operand => exact arrives_operand builder stands behind (tighter .primary (show 0 < 1 by decide))
  | primary => exact arrives_primary builder stands behind

end Parts

/-- How a part of an expression goes on with others. -/
def expressionStep : Step (Part Tree) Tree Tree :=
  ⟨expressionPartFrom builder, expressionPartFrom_below builder⟩

theorem arriveWithin_expressionStep (input : TokenInput) (calls : Nat) :
    ArriveWithin Part.least Part.callsBelow input calls
      (familyWithin (expressionStep builder) calls) :=
  arriveWithin_familyWithin (arriveWithin_expressionPartFrom builder) calls

theorem arrives_expressionPart
    (part : Part Tree)
    {input : TokenInput}
    {unread : List Token}
    {start : Position Tree}
    (stands : start.At input unread) :
    Arrives start part.least ((expressionPart builder part).runFrom start) :=
  arrives_family (arriveWithin_expressionStep builder input) part stands

theorem arrives_assignment
    {input : TokenInput}
    {unread : List Token}
    {start : Position Tree}
    (stands : start.At input unread) :
    Arrives start 1 ((assignment builder).runFrom start) :=
  arrives_expressionPart builder .assignment stands

end Expressions

/-! ## Statements -/

section Statements

variable (builder : Builder Tree)

/-- A statement that is no declaration, chosen by its first token. -/
def statementFrom (block : Walk Tree (Statement Tree)) : Walk Tree (Statement Tree) := do
  let token ← peek
  match token.kind with
  | .keyword .printWord => let _ ← advance; printStatement builder
  | .symbol .leftBrace => let _ ← advance; nested block
  | _ => expressionStatement builder

/-- A statement that is no declaration. -/
def statement : Walk Tree (Statement Tree) :=
  statementFrom builder (block builder)

variable {input : TokenInput} {unread : List Token} {start : Position Tree}

/-- A declaration of a variable begins with its keyword, and everything else is a statement. -/
theorem runFrom_declarationFrom
    (block : Walk Tree (Statement Tree))
    (stands : start.At input unread) :
    (declarationFrom builder block).runFrom start =
      if (unread.head?.getD input.marker).kind = .keyword .varWord then
        (advance >>= fun _ => varDeclaration builder).runFrom start
      else (statementFrom builder block).runFrom start := by
  rw [declarationFrom, statementFrom, runFrom_peek_bind stands, runFrom_peek_bind stands]
  cases (unread.head?.getD input.marker).kind with
  | keyword word => cases word <;> rfl
  | symbol mark => cases mark <;> rfl
  | _ => rfl

theorem arrives_expressionStatement (stands : start.At input unread) :
    Arrives start 1 ((expressionStatement builder).runFrom start) :=
  (arrives_assignment builder stands).closed stands (by decide)

theorem arrives_printStatement (stands : start.At input unread) :
    Arrives start 1 ((printStatement builder).runFrom start) :=
  (arrives_assignment builder stands).closed stands (by decide)

theorem arrives_initializer (stands : start.At input unread) :
    Arrives start 0 ((initializer builder).runFrom start) := by
  cases unread with
  | nil =>
    rw [initializer, runFrom_peek_nil stands, stands.kind_marker, if_neg (by decide)]
    exact arrives_pure stands none
  | cons token rest =>
    rw [initializer, runFrom_peek_cons stands]
    split
    · have value := (arrives_assignment builder stands.next).bind stands.next
        fun tree _ _ reached _ => arrives_pure reached (some tree)
      exact (arrives_advance_bind stands value).mono (Nat.zero_le _)
    · exact arrives_pure stands none

theorem arrives_varDeclaration (stands : start.At input unread) :
    Arrives start 1 ((varDeclaration builder).runFrom start) := by
  have name := arrives_expect (show TokenKind.identifier ≠ .endOfInput by decide)
    .expectedVariableName stands
  exact (name.bind stands fun name _ _ reached _ =>
    (arrives_initializer builder reached).closed reached (by decide)).mono (Nat.le_add_left 1 1)

theorem arrives_blockFrom
    {body : Walk Tree (List (Statement Tree))}
    (stands : start.At input unread)
    (bodies : Arrives start 0 (body.runFrom start)) :
    Arrives start 1 ((blockFrom body).runFrom start) :=
  bodies.closed stands (by decide)

theorem arrives_statementFrom
    {block : Walk Tree (Statement Tree)}
    (stands : start.At input unread)
    (blocks : ∀ rest (inside : Position Tree), inside.At input rest →
      rest.length < unread.length → Arrives inside 1 (block.runFrom inside)) :
    Arrives start 1 ((statementFrom builder block).runFrom start) := by
  cases unread with
  | nil =>
    rw [statementFrom, runFrom_peek_nil stands, stands.kind_marker]
    exact arrives_expressionStatement builder stands
  | cons token rest =>
    rw [statementFrom, runFrom_peek_cons stands]
    split
    · exact arrives_advance_bind stands (arrives_printStatement builder stands.next)
    · have inside := blocks rest start.next.enter stands.next.enter (Nat.lt_succ_self _)
      exact arrives_advance_bind stands (arrives_nested stands.next inside)
    · exact arrives_expressionStatement builder stands

theorem arrives_declarationFrom
    {block : Walk Tree (Statement Tree)}
    (stands : start.At input unread)
    (blocks : ∀ rest (inside : Position Tree), inside.At input rest →
      rest.length < unread.length → Arrives inside 1 (block.runFrom inside)) :
    Arrives start 1 ((declarationFrom builder block).runFrom start) := by
  rw [runFrom_declarationFrom builder block stands]
  split
  · have passed : Arrives start 0 ((advance : Walk Tree Token).runFrom start) :=
      arrives_advance stands
    exact passed.bind stands fun _ _ _ reached _ => arrives_varDeclaration builder reached
  · exact arrives_statementFrom builder stands blocks

/-- How statements go on with others. -/
def statementStep : Step (Found Tree) Tree (List (Statement Tree)) :=
  ⟨moreStatementsFrom builder, moreStatementsFrom_below builder⟩

/-- Statements move on as they should if all do that are behind a token. -/
theorem arriveWithin_moreStatementsFrom
    (calls : Nat)
    (walks : Family (Found Tree) Tree (List (Statement Tree)))
    (within : ArriveWithin (fun _ => 0) (fun _ remaining => remaining) input calls walks) :
    ArriveWithin (fun _ => 0) (fun _ remaining => remaining) input (calls + 1)
      (moreStatementsFrom builder walks) := by
  rintro ⟨stops, found⟩ unread start stands enough
  have notMore : unread.length ≤ calls := Nat.le_of_lt_succ enough
  cases unread with
  | nil =>
    rw [moreStatementsFrom, runFrom_peek_nil stands, stands.wellFormed.isEnd, Bool.true_or,
      if_pos rfl]
    exact arrives_pure stands found.reverse
  | cons token rest =>
    rw [moreStatementsFrom, runFrom_peek_cons stands, stands.isEnd_eq_false, Bool.false_or]
    split
    · exact arrives_pure stands found.reverse
    · have statement : Arrives start 1 ((declarationFrom builder
          (blockFrom (walks ⟨Grammar.endsBlock, []⟩))).runFrom start) :=
        arrives_declarationFrom builder stands fun _ _ reached passed =>
          arrives_blockFrom reached (within _ reached (Nat.lt_of_lt_of_le passed notMore))
      exact (statement.bind stands fun statement _ _ reached passed =>
        within ⟨stops, statement :: found⟩ reached (Nat.lt_of_lt_of_le passed notMore)).mono
          (Nat.zero_le _)

theorem arriveWithin_statementStep (input : TokenInput) (calls : Nat) :
    ArriveWithin (fun _ => 0) (fun _ remaining => remaining) input calls
      (familyWithin (statementStep builder) calls) :=
  arriveWithin_familyWithin (arriveWithin_moreStatementsFrom builder) calls

theorem arrives_moreStatements
    (found : Found Tree)
    (stands : start.At input unread) :
    Arrives start 0 ((moreStatements builder found).runFrom start) :=
  arrives_family (arriveWithin_statementStep builder input) found stands

theorem arrives_block (stands : start.At input unread) :
    Arrives start 1 ((block builder).runFrom start) :=
  arrives_blockFrom stands (arrives_moreStatements builder _ stands)

end Statements

/-! ## Every walk -/

/-- How far each walk moves on from a position, and with how many calls it ends.  A refusal is an
end too, and it leaves the tokens and the depth as they were. -/
structure Progresses (builder : Builder Tree) (position : Position Tree) : Prop where
  advance : Arrives position 0 ((Walk.advance : Walk Tree Token).runFrom position)
  expect {kind : TokenKind} (noMarker : kind ≠ .endOfInput) (fault : SyntaxFault) :
    Arrives position 1 ((Walk.expect kind fault : Walk Tree Token).runFrom position)
  checkNesting (levels : Nat) :
    Arrives position 0 ((Walk.checkNesting levels : Walk Tree Unit).runFrom position)
  nested {Result : Type} {least : Nat} (walk : Walk Tree Result) :
    Arrives position.enter least (walk.runFrom position.enter) →
      Arrives position least ((Walk.nested walk).runFrom position)
  part (part : Part Tree) :
    Arrives position part.least ((expressionPart builder part).runFrom position)
  expressionStatement : Arrives position 1 ((Walk.expressionStatement builder).runFrom position)
  printStatement : Arrives position 1 ((Walk.printStatement builder).runFrom position)
  varDeclaration : Arrives position 1 ((Walk.varDeclaration builder).runFrom position)
  block : Arrives position 1 ((Walk.block builder).runFrom position)
  statement : Arrives position 1 ((Walk.statement builder).runFrom position)
  declaration : Arrives position 1 ((Walk.declaration builder).runFrom position)
  moreStatements (found : Found Tree) :
    Arrives position 0 ((Walk.moreStatements builder found).runFrom position)
  program : Arrives position 0 ((Walk.program builder).runFrom position)
  /-- The calls that are enough go down with the tokens that are left and, at the same token, with
  the level of the grammar. -/
  partEnds (part : Part Tree) :
    (familyWithin (expressionStep builder) (part.callsBelow position.remaining + 1) part).runFrom
        position =
      (expressionPart builder part).runFrom position
  /-- Every statement that is found, and every block that is entered, is behind a token. -/
  statementsEnd (found : Found Tree) :
    (familyWithin (statementStep builder) (position.remaining + 1) found).runFrom position =
      (Walk.moreStatements builder found).runFrom position

/-- From every position that can be reached along a list of tokens every walk moves on as it should,
and ends, at a position that can be reached.  Along the whole list walks come to what the readers
read. -/
theorem progresses_of_reachedAlong
    (builder : Builder Tree)
    {tokens : List Token}
    {position : Position Tree}
    (reached : position.ReachedAlong tokens) :
    Progresses builder position ∧
    (∀ least stop, position.MovesTo least stop → stop.ReachedAlong tokens) ∧
    ((assignment builder).along tokens).map Prod.fst =
      some ((Grammar.readExpression builder tokens).mapError .refused) ∧
    ((program builder).along tokens).map Prod.fst =
      some ((Grammar.readProgram builder tokens).mapError .refused) := by
  obtain ⟨unread, stands⟩ := reached.exists_at
  refine ⟨?_, fun _ _ moves => moves.reachedAlong reached, along_assignment builder tokens,
    along_program builder tokens⟩
  have blocks (rest : List Token) (inside : Position Tree)
      (reached : inside.At (.ofTokens tokens) rest) (_ : rest.length < unread.length) :
      Arrives inside 1 ((Walk.block builder).runFrom inside) :=
    arrives_block builder reached
  exact {
    advance := arrives_advance stands
    expect := fun noMarker fault => arrives_expect noMarker fault stands
    checkNesting := arrives_checkNesting stands
    nested := fun _ => arrives_nested stands
    part := fun part => arrives_expressionPart builder part stands
    expressionStatement := arrives_expressionStatement builder stands
    printStatement := arrives_printStatement builder stands
    varDeclaration := arrives_varDeclaration builder stands
    block := arrives_block builder stands
    statement := arrives_statementFrom builder stands blocks
    declaration := arrives_declarationFrom builder stands blocks
    moreStatements := fun found => arrives_moreStatements builder found stands
    program := arrives_moreStatements builder _ stands
    partEnds := fun part => by
      rw [stands.remaining_eq]
      exact runFrom_familyWithin (arriveWithin_expressionStep builder _) part stands
    statementsEnd := fun found => by
      rw [stands.remaining_eq]
      exact runFrom_familyWithin (arriveWithin_statementStep builder _) found stands }

/-- Behind a brace that nothing closes a block ends, at the depth of its inside. -/
theorem progresses_of_reachedAlong_openBlock :
    (Position.start [⟨.symbol .leftBrace, "\x7b", 1⟩] : Position Expr).next.enter.ReachedAlong
        [⟨.symbol .leftBrace, "\x7b", 1⟩] ∧
      Progresses Expr.builder
        (Position.start [⟨.symbol .leftBrace, "\x7b", 1⟩] : Position Expr).next.enter := by
  have reached : (Position.start [⟨.symbol .leftBrace, "\x7b", 1⟩] :
      Position Expr).next.enter.ReachedAlong [⟨.symbol .leftBrace, "\x7b", 1⟩] :=
    .enter (.next .start rfl rfl) (by decide)
  exact ⟨reached, (progresses_of_reachedAlong Expr.builder reached).1⟩

end Walk

end Lox
