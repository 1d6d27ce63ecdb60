import Lox.Proofs.Syntax.Draft
import Lox.Proofs.Syntax.InBounds
import Lox.Proofs.Syntax.Writing

/-!
Contract: which assignments are refused for their target.

Owns:
- the assignments in drafts, in the order in which their values have been read;
- programs as drafts;
- that a draft is a program exactly if only names are assigned to, and that otherwise the first
  completed assignment to something else is the error, also where the draft itself is refused.

Does not own: which drafts there are.
-/

namespace Lox

open Walk (Simulation Sequence)

/-! ## Assignments -/

namespace Draft

/-- Whether the draft is a name and nothing else. -/
def isName : Draft → Bool
  | .reference _ => true
  | _ => false

/-- An assignment in a draft. -/
structure Assignment where
  target : Draft
  value : Draft

/-- The assignments in a draft: those in a target, those in the value, and then the assignment
itself. -/
def assignments : Draft → List Assignment
  | .literal _ | .reference _ => []
  | .grouping inner => inner.assignments
  | .unary _ operand => operand.assignments
  | .binary left _ right => left.assignments ++ right.assignments
  | .assign target value => target.assignments ++ value.assignments ++ [⟨target, value⟩]

end Draft

/-- The completed assignment without its place. -/
def Completed.assignment (entry : Completed Draft) : Draft.Assignment :=
  ⟨entry.target, entry.value⟩

/-- The assignments in a program of drafts, in order. -/
def Program.assignments (drafts : List (Statement Draft)) : List Draft.Assignment :=
  (Program.trees drafts).flatMap Draft.assignments

theorem Program.assignments_eq (drafts : List (Statement Draft)) :
    Program.assignments drafts =
      drafts.flatMap fun statement => statement.trees.flatMap Draft.assignments := by
  induction drafts with
  | nil => rfl
  | cons statement rest inductionHypothesis =>
    rw [assignments, Program.trees, List.flatMap_append, List.flatMap_cons,
      ← inductionHypothesis, assignments]

/-! ## Programs as drafts -/

/-- The expression as a draft. -/
def Expr.draft : Expr → Draft
  | .literal value => .literal value
  | .reference name => .reference name
  | .grouping inner => .grouping inner.draft
  | .unary operator operand => .unary operator operand.draft
  | .binary left operator right => .binary left.draft operator right.draft
  | .assign name value => .assign (.reference name) value.draft

mutual

/-- The statement with drafts for its expressions. -/
def Statement.draft : Statement Expr → Statement Draft
  | .expression tree => .expression tree.draft
  | .print tree => .print tree.draft
  | .var name none => .var name none
  | .var name (some initializer) => .var name (some initializer.draft)
  | .block body => .block (Program.draft body)

/-- The program with drafts for its expressions. -/
def Program.draft : List (Statement Expr) → List (Statement Draft)
  | [] => []
  | statement :: rest => statement.draft :: Program.draft rest

end

theorem Program.draft_eq_map (program : Program) :
    Program.draft program = program.map Statement.draft := by
  induction program with
  | nil => rfl
  | cons statement rest inductionHypothesis =>
    rw [draft, inductionHypothesis, List.map_cons]

/-! ## Simulations -/

/-- What a walk completes are the assignments in the sequence. -/
theorem Walk.Sequence.map_assignment
    {First Second : Type}
    {related : First → Second → List (Completed Draft) → Prop}
    {firsts : List First}
    {seconds : List Second}
    {entries : List (Completed Draft)}
    (sequence : Sequence related firsts seconds entries)
    (assignments : Second → List Draft.Assignment)
    (each : ∀ first second entries, related first second entries →
      entries.map Completed.assignment = assignments second) :
    entries.map Completed.assignment = seconds.flatMap assignments := by
  induction sequence with
  | nil => rfl
  | snoc before last inductionHypothesis =>
    rw [List.map_append, inductionHypothesis, each _ _ _ last, List.flatMap_append,
      List.flatMap_singleton]

namespace Draft

/-- A walk that reads drafts completes the assignments in them. -/
def recorded : Simulation builder builder where
  trees tree other entries := tree = other ∧ entries.map Completed.assignment = other.assignments
  statements statement other entries :=
    statement = other ∧
      entries.map Completed.assignment = other.trees.flatMap Draft.assignments
  offends _ := False
  literal _ := ⟨rfl, rfl⟩
  reference _ := ⟨rfl, rfl⟩
  grouping related := ⟨related.1 ▸ rfl, related.2⟩
  unary _ _ _ _ related := ⟨related.1 ▸ rfl, related.2⟩
  binary _ _ _ _ _ _ _ first second := by
    refine ⟨first.1 ▸ second.1 ▸ rfl, ?_⟩
    rw [List.map_append, first.2, second.2]
    rfl
  assign unread entry target value _ _ targets values := by
    obtain ⟨rfl, targetAssignments⟩ := targets
    obtain ⟨rfl, valueAssignments⟩ := values
    refine .inl ⟨_, _, rfl, rfl, id, rfl, ?_⟩
    rw [List.map_append, List.map_append, targetAssignments, valueAssignments]
    rfl
  expression related := ⟨related.1 ▸ rfl, by rw [related.2]; simp [Statement.trees]⟩
  print related := ⟨related.1 ▸ rfl, by rw [related.2]; simp [Statement.trees]⟩
  declared _ := ⟨rfl, rfl⟩
  initialized _ _ _ _ related := ⟨related.1 ▸ rfl, by rw [related.2]; simp [Statement.trees]⟩
  block {body otherBody entries} related := by
    have bodies : body = otherBody := by
      rw [← related.map_eq id (fun _ _ _ same => same.1), List.map_id]
    refine ⟨congrArg Statement.block bodies, ?_⟩
    rw [related.map_assignment _ (fun _ _ _ same => same.2), ← Program.assignments_eq]
    rfl

end Draft

/-- A program is read as its draft, except that only names are assigned to. -/
def Expr.asDraft : Simulation Expr.builder Draft.builder where
  trees tree other _ := tree.draft = other
  statements statement other _ := statement.draft = other
  offends target := target.isName = false
  literal _ := rfl
  reference _ := rfl
  grouping related := related ▸ rfl
  unary _ _ _ _ related := related ▸ rfl
  binary _ _ _ _ _ _ _ first second := first ▸ second ▸ rfl
  assign unread entry target value _ _ targets values := by
    cases target with
    | reference name =>
      refine .inl ⟨_, _, rfl, rfl, ?_, ?_⟩
      · rw [← targets]
        simp [draft, Draft.isName]
      · rw [← targets, ← values]
        rfl
    | _ =>
      refine .inr (.inr ⟨rfl, ?_⟩)
      rw [← targets]
      rfl
  expression related := related ▸ rfl
  print related := related ▸ rfl
  declared _ := rfl
  initialized _ _ _ _ related := related ▸ rfl
  block related := by
    rw [Statement.draft, Program.draft_eq_map, related.map_eq _ (fun _ _ _ => id)]

/-! ## Which assignments are refused -/

/-- A walk that reads drafts completes the assignments in the drafts that it ends with. -/
theorem Draft.exists_along (tokens : List Token) :
    ∃ completed,
      (Walk.program builder).along tokens =
        some ((programOfTokens tokens).mapError .refused, completed) ∧
      ∀ drafts, programOfTokens tokens = .ok drafts →
        completed.map Completed.assignment = Program.assignments drafts := by
  have reading : recorded.Reading _ (programOfTokens tokens) _ :=
    Simulation.reading_program (fun _ => Walk.continues builder) tokens
  generalize programOfTokens tokens = read, (Walk.program builder).along tokens = ran at reading
  cases reading with
  | @accepted drafts others completed related clean =>
    have same : drafts = others := by
      rw [← related.map_eq id (fun _ _ _ same => same.1), List.map_id]
    refine ⟨completed, by rw [same]; rfl, fun _ accepted => ?_⟩
    cases accepted
    rw [related.map_assignment _ (fun _ _ _ same => same.2), Program.assignments_eq, same]
  | @refused error completed clean => exact ⟨completed, rfl, fun _ accepted => nomatch accepted⟩
  | offended clean offends inBounds => exact offends.elim

section Along

variable {tokens : List Token} {drafts : Except SyntaxError (List (Statement Draft))}
variable {completed : List (Completed Draft)}

theorem not_forall_isName
    {offender : Completed Draft}
    (found : completed.find? (!·.target.isName) = some offender) :
    ¬ ∀ entry ∈ completed, entry.target.isName := by
  intro names
  have noName : ¬ offender.target.isName = true := by simpa using List.find?_some found
  exact noName (names offender (List.mem_of_find?_eq_some found))

variable (ran :
  (Walk.program Draft.builder).along tokens = some (drafts.mapError .refused, completed))

include ran

/-- Along a list of tokens, either only names are assigned to, and then the program is what its
drafts are, or the first completed assignment to anything else is the error. -/
theorem Program.ofTokens_of_along :
    ((∀ entry ∈ completed, entry.target.isName) ∧
      (Program.ofTokens tokens).map Program.draft = drafts) ∨
    ∃ offender, completed.find? (!·.target.isName) = some offender ∧
      Program.ofTokens tokens = .error offender.error := by
  have reading : Expr.asDraft.Reading _ (Program.ofTokens tokens) _ :=
    Simulation.reading_program (fun _ => Walk.continues Draft.builder) tokens
  rw [ran] at reading
  generalize Program.ofTokens tokens = read at reading ⊢
  have names (entries : List (Completed Draft)) (clean : Expr.asDraft.Clean entries) :
      ∀ entry ∈ entries, entry.target.isName = true :=
    fun entry member => Bool.of_not_eq_false (clean entry member)
  have first {before later : List (Completed Draft)} {offender : Completed Draft}
      (clean : Expr.asDraft.Clean before) (offends : offender.target.isName = false) :
      (before ++ offender :: later).find? (!·.target.isName) = some offender :=
    List.find?_eq_some_iff_append.2
      ⟨by simp [offends], before, later, rfl, by simpa using names before clean⟩
  cases drafts with
  | ok drafts =>
    cases reading with
    | accepted related clean =>
      refine .inl ⟨names _ clean, congrArg Except.ok ?_⟩
      rw [Program.draft_eq_map, related.map_eq _ (fun _ _ _ => id)]
    | offended clean offends _ => exact .inr ⟨_, first clean offends, rfl⟩
  | error error =>
    cases reading with
    | refused clean => exact .inl ⟨names _ clean, rfl⟩
    | offended clean offends _ => exact .inr ⟨_, first clean offends, rfl⟩

/-- Where only names are assigned to, the program is what its drafts are. -/
theorem Program.map_draft_ofTokens (names : ∀ entry ∈ completed, entry.target.isName) :
    (Program.ofTokens tokens).map Program.draft = drafts := by
  rcases Program.ofTokens_of_along ran with ⟨_, same⟩ | ⟨_, found, _⟩
  · exact same
  · exact absurd names (not_forall_isName found)

/-- The first completed assignment to anything but a name is the error. -/
theorem Program.ofTokens_of_offender
    {offender : Completed Draft}
    (found : completed.find? (!·.target.isName) = some offender) :
    Program.ofTokens tokens = .error offender.error := by
  rcases Program.ofTokens_of_along ran with ⟨names, _⟩ | ⟨other, otherFound, refused⟩
  · exact absurd names (not_forall_isName found)
  · rw [found] at otherFound
    cases otherFound
    exact refused

/-- The drafts are a program only where only names are assigned to. -/
theorem Program.names_of_ofTokens
    {program : Program}
    (read : Program.ofTokens tokens = .ok program) :
    ∀ entry ∈ completed, entry.target.isName := by
  rcases Program.ofTokens_of_along ran with ⟨names, _⟩ | ⟨_, _, refused⟩
  · exact names
  · rw [refused] at read
    cases read

end Along

/-- Along every list of tokens there is a walk that reads drafts, and it completes certain
assignments, each with its equals sign at its place in the list.  If the list is accepted as drafts,
these are the assignments in them, and the drafts are a program exactly if only names are assigned
to.  The first completed assignment to anything else is the error of the program; without one, the
error of the drafts is the error of the program too. -/
theorem Program.targets_checked (tokens : List Token) :
    ∃ completed : List (Completed Draft),
      (Walk.program Draft.builder).along tokens =
        some ((Draft.programOfTokens tokens).mapError .refused, completed) ∧
      (∀ entry ∈ completed, entry.IsIn tokens) ∧
      (∀ drafts, Draft.programOfTokens tokens = .ok drafts →
        completed.map Completed.assignment = Program.assignments drafts ∧
        ((∃ program, Program.ofTokens tokens = .ok program ∧ Program.draft program = drafts) ↔
          ∀ assignment ∈ Program.assignments drafts, assignment.target.isName)) ∧
      (∀ error, Draft.programOfTokens tokens = .error error →
        (∀ entry ∈ completed, entry.target.isName) → Program.ofTokens tokens = .error error) ∧
      ∀ offender, completed.find? (!·.target.isName) = some offender →
        Program.ofTokens tokens =
          .error ⟨.invalidAssignmentTarget, offender.place, offender.equal⟩ := by
  obtain ⟨completed, ran, assignments⟩ := Draft.exists_along tokens
  refine ⟨completed, ran, fun entry => Walk.isIn_of_along_program ran,
    fun drafts accepted => ⟨assignments drafts accepted, ?_⟩, fun error failed names => ?_,
    fun offender found => Program.ofTokens_of_offender ran found⟩
  · rw [← assignments drafts accepted, List.forall_mem_map]
    constructor
    · rintro ⟨program, read, _⟩
      exact Program.names_of_ofTokens ran read
    · intro names
      have same := Program.map_draft_ofTokens ran names
      rw [accepted] at same
      cases read : Program.ofTokens tokens with
      | error error =>
        rw [read] at same
        cases same
      | ok program =>
        rw [read] at same
        exact ⟨program, rfl, Except.ok.inj same⟩
  · have same := Program.map_draft_ofTokens ran names
    rw [failed] at same
    cases read : Program.ofTokens tokens with
    | error other =>
      rw [read] at same
      exact congrArg Except.error (Except.error.inj same)
    | ok program =>
      rw [read] at same
      cases same

-- Where the value breaks off, that is the error.  Where the value is complete, the target is the
-- error, although only the token behind it is wrong in the draft.
example :
    let target : List Token :=
      [⟨.symbol .leftParen, "(", 1⟩, ⟨.identifier, "a", 1⟩, ⟨.symbol .rightParen, ")", 1⟩,
        ⟨.symbol .equal, "=", 1⟩, ⟨.keyword .nilWord, "nil", 1⟩]
    Program.ofTokens (target ++ [⟨.symbol .plus, "+", 1⟩, ⟨.symbol .semicolon, ";", 1⟩]) =
        .error ⟨.expectedExpression, 6, ⟨.symbol .semicolon, ";", 1⟩⟩ ∧
      Program.ofTokens (target ++ [⟨.symbol .rightParen, ")", 1⟩]) =
        .error ⟨.invalidAssignmentTarget, 3, ⟨.symbol .equal, "=", 1⟩⟩ := by
  refine ⟨?_, ?_⟩ <;> with_unfolding_all rfl

end Lox
