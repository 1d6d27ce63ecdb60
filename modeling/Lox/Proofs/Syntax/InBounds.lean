import Lox.Proofs.Syntax.Simulation

/-!
Contract: walks by themselves.

Owns:
- that every builder is simulated by itself;
- that every walk ends without looking out of bounds, at any position before an end marker;
- that walks read expressions and programs as the grammar says.

Does not own: how walks with different builders compare.
-/

namespace Lox.Walk

open Grammar (Builder)

/-- Every builder is simulated by itself: the trees are the same, and no target offends. -/
def same {Tree : Type} (builder : Builder Tree) : Simulation builder builder where
  trees tree other _ := tree = other
  statements statement other _ := statement = other
  offends _ := False
  literal _ := rfl
  reference _ := rfl
  grouping related := related ▸ rfl
  unary _ _ _ _ related := related ▸ rfl
  binary _ _ _ _ _ _ _ first second := first ▸ second ▸ rfl
  assign unread entry target value _ _ targets values := by
    subst targets values
    cases built : builder.assign entry.target unread entry.value with
    | some tree => exact .inl ⟨tree, tree, rfl, rfl, id, rfl⟩
    | none => exact .inr (.inl ⟨rfl, rfl, id⟩)
  expression related := related ▸ rfl
  print related := related ▸ rfl
  declared _ := rfl
  initialized _ _ _ _ related := related ▸ rfl
  block related := by
    rw [← related.map_eq id (fun _ _ _ => id), List.map_id]

/-- Every walk runs. -/
theorem continues {Tree : Type} (builder : Builder Tree) : Continues builder := by
  have noneOffends (offends : ∃ target, (same builder).offends target) : Continues builder :=
    offends.elim fun _ => False.elim
  constructor
  case assignmentFrom =>
    intro target room input unread start stands depth
    cases unread with
    | nil =>
      rw [Ends, expressionPart_eq, expressionPartFrom, runFrom_peek_nil stands, runFrom_get_bind,
        stands.kind_marker, if_neg (by decide)]
      exact Simulation.ends_pure target stands
    | cons equal inside =>
      rw [Ends, expressionPart_eq, expressionPartFrom, runFrom_peek_cons stands, runFrom_get_bind]
      split
      · rename_i isEqual
        have values := (Simulation.follows_deeperReaders input noneOffends room).2
        refine (ends_advance stands).bind fun _ _ _ _ goes reached => ?_
        refine (values reached (by rw [goes.depth_eq, depth])).ends.bind
          fun _ _ _ _ onward ended => ?_
        have found := stands.getElem?_current
        rw [← (goes.trans onward).tokens_eq] at found
        exact Simulation.ends_assigned ⟨found, isEqual⟩ ended
      · exact Simulation.ends_pure target stands
  case chainFrom =>
    intro level count room within tree input unread start stands depth
    obtain ⟨inner, expressions⟩ :=
      Simulation.follows_deeperReaders input noneOffends room
    have operands := Simulation.follows_operandsOf noneOffends
      (Simulation.follows_operand inner expressions) level
    have itself : (same builder).trees tree tree [] := rfl
    exact (Simulation.follows_chainFrom noneOffends operands (Nat.add_sub_of_le within) itself
      stands depth).ends
  case moreStatements =>
    intro found room input unread start stands depth
    exact (Simulation.outcome_moreStatements noneOffends found.stops
      (Simulation.follows_declarationAt noneOffends room)
      (Sequence.refl (fun _ => rfl) found.statements) stands depth).ends

/-! ## What walks read -/

section Along

variable {Tree Result : Type} {builder : Builder Tree}

/-- A walk whose trees are those of the readers ends with what they read. -/
theorem along_of_reading
    {results : Result → Result → List (Completed Tree) → Prop}
    {read : Except SyntaxError Result}
    {ran : Option (Except Stop Result × List (Completed Tree))}
    (sameResult : ∀ result other completed, results result other completed → result = other)
    (reading : (same builder).Reading results read ran) :
    ran.map Prod.fst = some (read.mapError .refused) := by
  cases reading with
  | accepted related clean => rw [sameResult _ _ _ related]; rfl
  | refused clean => rfl
  | offended clean offends inBounds => exact offends.elim

theorem along_program (builder : Builder Tree) (tokens : List Token) :
    ((program builder).along tokens).map Prod.fst =
      some ((Grammar.readProgram builder tokens).mapError .refused) := by
  refine along_of_reading (fun body other completed related => ?_)
    (Simulation.reading_program (fun _ => continues builder) tokens : (same builder).Reading _ _ _)
  rw [← related.map_eq id (fun _ _ _ => id), List.map_id]

theorem along_assignment (builder : Builder Tree) (tokens : List Token) :
    ((assignment builder).along tokens).map Prod.fst =
      some ((Grammar.readExpression builder tokens).mapError .refused) :=
  along_of_reading (fun _ _ _ => id)
    (Simulation.reading_expression (fun _ => continues builder) tokens :
      (same builder).Reading _ _ _)

/-- The end marker that a list may get is no equals sign. -/
theorem isIn_of_isIn_start
    {tokens : List Token}
    {entry : Completed Tree}
    (isIn : entry.IsIn (Position.start tokens : Position Tree).tokens) :
    entry.IsIn tokens := by
  obtain ⟨found, isEqual⟩ := isIn
  refine ⟨?_, isEqual⟩
  dsimp only [Position.start] at found
  split at found
  · exact found
  · rw [List.getElem?_append] at found
    split at found
    · exact found
    · have isMarker := List.mem_singleton.1 (List.mem_of_getElem? found)
      rw [isMarker] at isEqual
      cases isEqual

/-- The equals signs of the assignments that a walk completes are where its record says. -/
theorem isIn_of_along_program
    {tokens : List Token}
    {result : Except Stop (List (Statement Tree))}
    {completed : List (Completed Tree)}
    (ran : (program builder).along tokens = some (result, completed))
    {entry : Completed Tree}
    (member : entry ∈ completed) :
    entry.IsIn tokens := by
  obtain ⟨_, stop, _, entries, ended, _, goes, _⟩ :=
    (continues builder).moreStatements ⟨fun _ => false, []⟩ Grammar.maxNesting
      (Position.at_start tokens) (Nat.zero_add Grammar.maxNesting)
  rw [along, program, ended, Option.map_some] at ran
  obtain ⟨-, rfl⟩ := Prod.mk.inj (Option.some.inj ran)
  rw [goes.completed_eq] at member
  exact isIn_of_isIn_start (goes.isIn member)

end Along

end Lox.Walk
