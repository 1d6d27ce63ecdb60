import Lox.Proofs.Token.Slices

/-!
Contract: where cursors stand, whatever has been done with them.

Owns:
- looking ahead and reading on, in terms of reading one character;
- cursors with the characters that they have consumed, through any sequence of reading, looking
  ahead, cloning and resetting;
- that offset, rest and line of a cursor stay in step with what it has consumed;
- the order of the cursors on a source, and the texts between them.

Does not own: what the characters mean.
-/

namespace Lox

namespace Cursor

/-! ## Reading one character at a time -/

theorem peek_eq (cursor : Cursor) : cursor.peek = cursor.next.1 := by
  rw [peek, next]
  cases cursor.rest <;> rfl

theorem peekNext_eq (cursor : Cursor) : cursor.peekNext = cursor.next.2.next.1 := by
  rw [← peek_eq, peek, peekNext, next]
  split
  · rename_i atEnd
    rw [atEnd]
    rfl
  · rename_i first rest shape
    rw [shape]
    rfl

theorem consumeIf_eq (expected : Char) (cursor : Cursor) :
    cursor.consumeIf expected =
      if cursor.peek = some expected then (true, cursor.next.2) else (false, cursor) := by
  rw [consumeIf, peek, next]
  cases cursor.rest with
  | nil => rfl
  | cons first rest => simp

/-- Reads on as long as the next character is accepted, one character at a time.  The result is what
was read, and the cursor behind it. -/
def readWhile (accepts : Char → Bool) (cursor : Cursor) : List Char × Cursor :=
  if cursor.peek.any accepts then
    match _ : cursor.next with
    | (none, stop) => ([], stop)
    | (some first, onward) =>
      match readWhile accepts onward with
      | (more, stop) => (first :: more, stop)
  else ([], cursor)
termination_by cursor.rest.length
decreasing_by
  have length := (reaches_next ‹_›).length_eq
  rw [length, List.length_singleton]
  omega

/-- Reading on passes the accepted characters at the beginning of the rest. -/
theorem readWhile_eq (accepts : Char → Bool) (cursor : Cursor) :
    cursor.readWhile accepts = (cursor.rest.takeWhile accepts, cursor.consumeWhile accepts) := by
  -- The loop leaves a cursor whose rest is shorter by a character, whatever offset and line it has.
  generalize shape : cursor.rest = rest
  induction rest generalizing cursor with
  | nil =>
    have still : cursor.after [] cursor.rest = cursor := rfl
    rw [shape] at still
    rw [readWhile, if_neg (by simp [peek, shape]), consumeWhile, shape, List.takeWhile_nil,
      List.dropWhile_nil, still]
  | cons first rest inductionHypothesis =>
    have looked : cursor.peek.any accepts = accepts first := by
      rw [peek, shape]
      rfl
    by_cases accepted : accepts first
    · rw [readWhile, if_pos (looked.trans accepted)]
      have onward := inductionHypothesis (cursor.after [first] rest) rfl
      split
      · rename_i ended
        rw [next_eq shape] at ended
        cases ended
      · rename_i read
        rw [next_eq shape] at read
        cases read
        rw [onward, List.takeWhile_cons_of_pos accepted, consumeWhile, consumeWhile, shape,
          after_after, List.takeWhile_cons_of_pos accepted, List.dropWhile_cons_of_pos accepted]
        rfl
    · rw [readWhile, if_neg (by rwa [looked]), consumeWhile, shape,
        List.takeWhile_cons_of_neg accepted, List.dropWhile_cons_of_neg accepted, ← shape]
      rfl

/-- What is read on is the longest run of accepted characters. -/
theorem readWhile_longest (accepts : Char → Bool) (cursor : Cursor) :
    ∃ taken, cursor.readWhile accepts = (taken, cursor.consumeWhile accepts) ∧
      cursor.Reaches taken (cursor.consumeWhile accepts) ∧
      (∀ character ∈ taken, accepts character = true) ∧
      ∀ front, front <+: cursor.rest → (∀ character ∈ front, accepts character = true) →
        front <+: taken := by
  refine ⟨_, readWhile_eq accepts cursor, reaches_consumeWhile accepts cursor, ?_, ?_⟩
  · exact fun character member => List.all_eq_true.1 List.all_takeWhile character member
  · rintro front ⟨back, split⟩ accepted
    rw [← split, List.takeWhile_append_of_pos accepted]
    exact List.prefix_append _ _

/-! ## Cursors with what they have consumed -/

/-- What can be done with a cursor, and with the clones that have been made of it. -/
inductive Operation where
  | next
  | peek
  | peekNext
  | consumeIf (expected : Char)
  | consumeWhile (accepts : Char → Bool)
  | clone
  | reset (index : Nat)

/-- The operation looks ahead and does nothing else. -/
def Operation.looks : Operation → Bool
  | .peek | .peekNext => true
  | _ => false

/-- A cursor with the characters that were consumed on the way to it. -/
@[ext]
structure Tracked where
  cursor : Cursor
  consumed : List Char

/-- The cursor further on, with what was read on the way. -/
def Tracked.onTo (tracked : Tracked) (passed : List Char) (stop : Cursor) : Tracked :=
  ⟨stop, tracked.consumed ++ passed⟩

/-- The cursor in use, and the clones that have been made, in their order. -/
structure Desk where
  current : Tracked
  clones : List Tracked

namespace Desk

/-- A new cursor on the source. -/
def start (source : Source) : Desk :=
  ⟨⟨.start source, []⟩, []⟩

/-- All cursors there are. -/
def held (desk : Desk) : List Tracked :=
  desk.current :: desk.clones

/-- Performs an operation on the cursor in use.  What the operation says it has read is consumed; a
reset goes back to a clone with what that one had consumed. -/
def perform (desk : Desk) : Operation → Desk
  | .next =>
    let (read, stop) := desk.current.cursor.next
    { desk with current := desk.current.onTo read.toList stop }
  | .consumeIf expected =>
    let (found, stop) := desk.current.cursor.consumeIf expected
    { desk with current := desk.current.onTo (if found then [expected] else []) stop }
  | .consumeWhile accepts =>
    let (read, _) := desk.current.cursor.readWhile accepts
    { desk with current := desk.current.onTo read (desk.current.cursor.consumeWhile accepts) }
  | .peek | .peekNext => desk
  | .clone => { desk with clones := desk.clones ++ [desk.current] }
  | .reset index => { desk with current := desk.clones[index]?.getD desk.current }

/-- Performs operations in their order. -/
def run (desk : Desk) (operations : List Operation) : Desk :=
  operations.foldl perform desk

/-- Looking ahead changes no cursor. -/
theorem run_filter_looks (desk : Desk) (operations : List Operation) :
    desk.run (operations.filter (!·.looks)) = desk.run operations := by
  induction operations generalizing desk with
  | nil => rfl
  | cons operation operations inductionHypothesis =>
    cases operation with
    | peek => exact inductionHypothesis desk
    | peekNext => exact inductionHypothesis desk
    | _ => exact inductionHypothesis _

end Desk

/-- Some operations on a new cursor on the source make the cursor, or a clone that is it. -/
def Tracked.IsReached (source : Source) (tracked : Tracked) : Prop :=
  ∃ operations, tracked ∈ ((Desk.start source).run operations).held

/-- The cursor is where a new one on the source comes to by reading what was consumed. -/
def Tracked.IsOn (source : Source) (tracked : Tracked) : Prop :=
  (Cursor.start source).Reaches tracked.consumed tracked.cursor

section Runs

variable {source : Source} {tracked : Tracked} {desk : Desk}

theorem Tracked.IsOn.onTo
    {passed : List Char}
    {stop : Cursor}
    (isOn : tracked.IsOn source)
    (reaches : tracked.cursor.Reaches passed stop) :
    (tracked.onTo passed stop).IsOn source :=
  isOn.trans reaches

/-- The cursor in use is on the source after an operation. -/
theorem Desk.current_perform
    (allOn : ∀ tracked ∈ desk.held, tracked.IsOn source)
    (operation : Operation) :
    (desk.perform operation).current.IsOn source := by
  have isOn : desk.current.IsOn source := allOn _ List.mem_cons_self
  have stays : (desk.current.onTo [] desk.current.cursor).IsOn source := isOn.onTo (.refl _)
  cases operation with
  | next =>
    cases shape : desk.current.cursor.rest with
    | nil =>
      rw [perform, Cursor.next, shape]
      exact stays
    | cons first rest =>
      rw [perform, next_eq shape]
      exact isOn.onTo (.after shape)
  | consumeIf expected =>
    by_cases same : desk.current.cursor.rest.head? = some expected
    · obtain ⟨rest, shape⟩ := List.head?_eq_some_iff.1 same
      rw [perform, consumeIf_eq_true shape]
      exact isOn.onTo (.after shape)
    · rw [perform, consumeIf_eq_false same]
      exact stays
  | consumeWhile accepts =>
    rw [perform, readWhile_eq]
    exact isOn.onTo (reaches_consumeWhile accepts _)
  | reset index =>
    cases found : desk.clones[index]? with
    | none =>
      rw [perform, found]
      exact isOn
    | some clone =>
      rw [perform, found]
      exact allOn clone (List.mem_cons_of_mem _ (List.mem_of_getElem? found))
  | peek => exact isOn
  | peekNext => exact isOn
  | clone => exact isOn

/-- All cursors are on the source after an operation. -/
theorem Desk.perform_isOn
    (allOn : ∀ tracked ∈ desk.held, tracked.IsOn source)
    (operation : Operation) :
    ∀ tracked ∈ (desk.perform operation).held, tracked.IsOn source := by
  have clones : ∀ tracked ∈ (desk.perform operation).clones, tracked.IsOn source := by
    have before : ∀ tracked ∈ desk.clones, tracked.IsOn source :=
      fun tracked member => allOn tracked (List.mem_cons_of_mem _ member)
    cases operation with
    | clone =>
      intro tracked member
      rcases List.mem_append.1 member with old | new
      · exact before tracked old
      · exact List.mem_singleton.1 new ▸ allOn _ List.mem_cons_self
    | _ => exact before
  intro tracked member
  rcases List.mem_cons.1 member with rfl | isClone
  · exact Desk.current_perform allOn operation
  · exact clones tracked isClone

/-- All cursors are on the source after any operations. -/
theorem Desk.run_isOn
    (allOn : ∀ tracked ∈ desk.held, tracked.IsOn source)
    (operations : List Operation) :
    ∀ tracked ∈ (desk.run operations).held, tracked.IsOn source := by
  induction operations generalizing desk with
  | nil => exact allOn
  | cons operation operations inductionHypothesis =>
    exact inductionHypothesis (Desk.perform_isOn allOn operation)

theorem Tracked.IsReached.isOn (reached : tracked.IsReached source) : tracked.IsOn source := by
  obtain ⟨operations, member⟩ := reached
  refine Desk.run_isOn (fun tracked member => ?_) operations tracked member
  rw [List.mem_singleton.1 member]
  exact .refl _

end Runs

/-! ## In step -/

/-- Offset, rest and line of a cursor say what has been consumed of the source. -/
structure Tracked.InStep (source : Source) (tracked : Tracked) : Prop where
  source_eq : tracked.cursor.source = source
  split : source.text.toList = tracked.consumed ++ tracked.cursor.rest
  offset_eq : tracked.cursor.offset = (String.ofList tracked.consumed).utf8ByteSize
  offset_eq_sub : tracked.cursor.offset =
    source.text.utf8ByteSize - (String.ofList tracked.cursor.rest).utf8ByteSize
  boundary : String.Pos.Raw.IsValid source.text ⟨tracked.cursor.offset⟩
  rest_eq : sliceBetween? source.text tracked.cursor.offset source.text.utf8ByteSize =
    some (String.ofList tracked.cursor.rest)
  line_eq : tracked.cursor.line = 1 + tracked.consumed.count '\n'

section Order

variable {source : Source} {first second third : Tracked}

theorem Tracked.IsOn.inStep (isOn : first.IsOn source) : first.InStep source := by
  have split : source.text.toList = first.consumed ++ first.cursor.rest := isOn.rest_eq
  have text : source.text = String.ofList (first.consumed ++ first.cursor.rest) := by
    rw [← split, String.ofList_toList]
  have offset : first.cursor.offset = utf8Length first.consumed := by
    rw [isOn.stop_eq]
    exact Nat.zero_add _
  have size : source.text.utf8ByteSize =
      utf8Length first.consumed + utf8Length first.cursor.rest := by
    rw [text, utf8ByteSize_ofList, utf8Length_append]
  constructor
  case source_eq => rw [isOn.stop_eq]; rfl
  case split => exact split
  case offset_eq => rw [offset, utf8ByteSize_ofList]
  case offset_eq_sub => rw [offset, size, utf8ByteSize_ofList, Nat.add_sub_cancel]
  case boundary =>
    rw [offset, text]
    exact isValid_utf8Length _ _
  case rest_eq =>
    have between := sliceBetween?_eq first.consumed first.cursor.rest []
    rwa [List.append_nil, ← text, ← size, ← offset] at between
  case line_eq => rw [isOn.stop_eq]; rfl

/-- From a cursor on a source every cursor there that has not consumed less is reached. -/
theorem Tracked.IsOn.reaches
    (firstOn : first.IsOn source)
    (secondOn : second.IsOn source)
    (le : first.consumed.length ≤ second.consumed.length) :
    ∃ passed, second.consumed = first.consumed ++ passed ∧
      first.cursor.Reaches passed second.cursor := by
  -- What either of them has consumed is a beginning of the same text.
  have firstSplit := firstOn.inStep.split
  have secondSplit := secondOn.inStep.split
  obtain ⟨passed, same⟩ := List.prefix_of_prefix_length_le ⟨_, firstSplit.symm⟩
    ⟨_, secondSplit.symm⟩ le
  refine ⟨passed, same.symm, ?_, ?_⟩
  · rw [firstSplit, ← same, List.append_assoc] at secondSplit
    exact List.append_cancel_left secondSplit
  · rw [secondOn.stop_eq, ← same, firstOn.stop_eq, after_after]
    rfl

theorem utf8Length_pos {passed : List Char} (something : passed ≠ []) : 0 < utf8Length passed := by
  obtain ⟨character, characters, rfl⟩ := List.exists_cons_of_ne_nil something
  exact Nat.lt_of_lt_of_le character.utf8Size_pos (Nat.le_add_right _ _)

/-- A cursor that has consumed less is before the other. -/
theorem Tracked.IsOn.offset_lt
    (firstOn : first.IsOn source)
    (secondOn : second.IsOn source)
    (lt : first.consumed.length < second.consumed.length) :
    first.cursor.offset < second.cursor.offset := by
  obtain ⟨passed, same, reaches⟩ := firstOn.reaches secondOn (Nat.le_of_lt lt)
  have something : passed ≠ [] := by
    rintro rfl
    rw [same, List.append_nil] at lt
    exact Nat.lt_irrefl _ lt
  rw [reaches.stop_eq]
  exact Nat.lt_add_of_pos_right (utf8Length_pos something)

/-- There is a text from one cursor to another unless the other has consumed less. -/
theorem Tracked.IsOn.slice_eq
    (firstOn : first.IsOn source)
    (secondOn : second.IsOn source) :
    first.cursor.slice second.cursor =
      if second.consumed.length < first.consumed.length then .error .endBeforeStart
      else .ok (String.ofList (second.consumed.drop first.consumed.length)) := by
  split
  · rename_i behind
    have sameSource : first.cursor.source = second.cursor.source :=
      firstOn.inStep.source_eq.trans secondOn.inStep.source_eq.symm
    rw [slice, if_neg (fun differs => differs (congrArg Source.label sameSource)),
      if_pos (secondOn.offset_lt firstOn behind)]
  · rename_i notBehind
    obtain ⟨passed, same, reaches⟩ := firstOn.reaches secondOn (Nat.le_of_not_lt notBehind)
    rw [reaches.slice_eq, same, List.drop_left]

/-- The text from one cursor to another is what stands between their offsets. -/
theorem Tracked.IsOn.toOption_slice
    (firstOn : first.IsOn source)
    (secondOn : second.IsOn source) :
    (first.cursor.slice second.cursor).toOption =
      sliceBetween? source.text first.cursor.offset second.cursor.offset := by
  by_cases behind : second.consumed.length < first.consumed.length
  · have before := secondOn.offset_lt firstOn behind
    rw [firstOn.slice_eq secondOn, if_pos behind, sliceBetween?,
      if_neg fun inOrder => Nat.not_le_of_lt before inOrder.1]
    rfl
  · obtain ⟨passed, same, reaches⟩ := firstOn.reaches secondOn (Nat.le_of_not_lt behind)
    have between := sliceBetween?_eq first.consumed passed second.cursor.rest
    have firstOffset := firstOn.inStep.offset_eq
    have secondOffset := secondOn.inStep.offset_eq
    rw [utf8ByteSize_ofList] at firstOffset secondOffset
    rw [← same, ← secondOn.inStep.split, String.ofList_toList, ← utf8Length_append, ← same,
      ← firstOffset, ← secondOffset] at between
    rw [reaches.slice_eq, between]
    rfl

theorem Tracked.IsOn.reaches_of_slice
    (firstOn : first.IsOn source)
    (secondOn : second.IsOn source)
    {text : String}
    (sliced : first.cursor.slice second.cursor = .ok text) :
    first.cursor.Reaches text.toList second.cursor := by
  by_cases behind : second.consumed.length < first.consumed.length
  · rw [firstOn.slice_eq secondOn, if_pos behind] at sliced
    cases sliced
  · obtain ⟨passed, _, reaches⟩ := firstOn.reaches secondOn (Nat.le_of_not_lt behind)
    rw [reaches.slice_eq] at sliced
    cases sliced
    rwa [String.toList_ofList]

/-- Texts of adjacent stretches make up the text of the whole stretch. -/
theorem Tracked.IsOn.slice_append
    (firstOn : first.IsOn source)
    (secondOn : second.IsOn source)
    (thirdOn : third.IsOn source)
    {front back : String}
    (fronts : first.cursor.slice second.cursor = .ok front)
    (backs : second.cursor.slice third.cursor = .ok back) :
    first.cursor.slice third.cursor = .ok (front ++ back) := by
  have whole := (firstOn.reaches_of_slice secondOn fronts).trans
    (secondOn.reaches_of_slice thirdOn backs)
  rw [whole.slice_eq, String.ofList_append, String.ofList_toList, String.ofList_toList]

/-- Cursors at the same place are the same, and have consumed the same. -/
theorem Tracked.IsOn.eq_of_beq
    (firstOn : first.IsOn source)
    (secondOn : second.IsOn source)
    (equal : (first.cursor == second.cursor) = true) :
    first = second := by
  have offsets : first.cursor.offset = second.cursor.offset :=
    beq_iff_eq.1 (Bool.and_eq_true_iff.1 equal).2
  have lengths : first.consumed.length = second.consumed.length := by
    rcases Nat.lt_trichotomy first.consumed.length second.consumed.length with
      before | same | behind
    · exact absurd offsets (Nat.ne_of_lt (firstOn.offset_lt secondOn before))
    · exact same
    · exact absurd offsets.symm (Nat.ne_of_lt (secondOn.offset_lt firstOn behind))
  obtain ⟨passed, same, reaches⟩ := firstOn.reaches secondOn (Nat.le_of_eq lengths)
  have nothing : passed = [] := by
    rw [same, List.length_append] at lengths
    exact List.eq_nil_of_length_eq_zero (by omega)
  rw [nothing] at same reaches
  have cursors : second.cursor = first.cursor := by
    rw [reaches.stop_eq, show second.cursor.rest = first.cursor.rest from reaches.rest_eq.symm]
    rfl
  rw [List.append_nil] at same
  exact Tracked.ext cursors.symm same.symm

end Order

/-- Whatever has been done with a cursor on a source and with its clones, each of them is in step
with what it has consumed, looks at what it reads next, and reads on over the longest run of
accepted characters.  Between any of them there is a text unless the second is before the first, the
texts of adjacent stretches make up one text, and cursors at the same place are the same. -/
theorem inStep_of_isReached
    {source : Source}
    {first second third : Tracked}
    (firstReached : first.IsReached source)
    (secondReached : second.IsReached source)
    (thirdReached : third.IsReached source) :
    first.InStep source ∧
    (first.cursor.peek = first.cursor.next.1 ∧
      first.cursor.peekNext = first.cursor.next.2.next.1 ∧
      ∀ operations, (Desk.start source).run (operations.filter (!·.looks)) =
        (Desk.start source).run operations) ∧
    (∀ expected, first.cursor.consumeIf expected =
      if first.cursor.peek = some expected then (true, first.cursor.next.2)
      else (false, first.cursor)) ∧
    (∀ accepts, ∃ taken,
      first.cursor.readWhile accepts = (taken, first.cursor.consumeWhile accepts) ∧
      first.cursor.Reaches taken (first.cursor.consumeWhile accepts) ∧
      (∀ character ∈ taken, accepts character = true) ∧
      ∀ front, front <+: first.cursor.rest →
        (∀ character ∈ front, accepts character = true) → front <+: taken) ∧
    ((∃ fault, first.cursor.slice second.cursor = .error fault) ↔
      second.consumed.length < first.consumed.length) ∧
    (first.cursor.slice second.cursor).toOption =
      sliceBetween? source.text first.cursor.offset second.cursor.offset ∧
    (∀ front back, first.cursor.slice second.cursor = .ok front →
      second.cursor.slice third.cursor = .ok back →
        first.cursor.slice third.cursor = .ok (front ++ back)) ∧
    ((first.cursor == second.cursor) = true →
      first.cursor.line = second.cursor.line ∧ first.cursor.rest = second.cursor.rest) := by
  have firstOn := firstReached.isOn
  have secondOn := secondReached.isOn
  refine ⟨firstOn.inStep, ⟨peek_eq _, peekNext_eq _, Desk.run_filter_looks _⟩,
    fun expected => consumeIf_eq expected _, fun accepts => readWhile_longest accepts _, ?_,
    firstOn.toOption_slice secondOn,
    fun _ _ => firstOn.slice_append secondOn thirdReached.isOn, fun equal => ?_⟩
  · rw [firstOn.slice_eq secondOn]
    split
    · exact ⟨fun _ => ‹_›, fun _ => ⟨_, rfl⟩⟩
    · exact ⟨fun ⟨_, fault⟩ => (nomatch fault), fun behind => absurd behind ‹_›⟩
  · rw [firstOn.eq_of_beq secondOn equal]
    exact ⟨rfl, rfl⟩

/-- A clone that is made behind a letter of two bytes is the end of one stretch and the beginning of
another. -/
theorem inStep_of_isReached_clone :
    Tracked.IsReached ⟨0, "é\n1"⟩ ⟨⟨⟨0, "é\n1"⟩, ['\n', '1'], 2, 1⟩, ['é']⟩ ∧
      (Cursor.start ⟨0, "é\n1"⟩).slice ⟨⟨0, "é\n1"⟩, [], 4, 2⟩ = .ok ("é" ++ "\n1") := by
  have started : Tracked.IsReached ⟨0, "é\n1"⟩ ⟨.start ⟨0, "é\n1"⟩, []⟩ :=
    ⟨[], List.mem_cons_self⟩
  have cloned : Tracked.IsReached ⟨0, "é\n1"⟩ ⟨⟨⟨0, "é\n1"⟩, ['\n', '1'], 2, 1⟩, ['é']⟩ :=
    ⟨[.next, .clone, .next, .next], List.mem_cons_of_mem _ (List.mem_singleton.2 rfl)⟩
  have ended : Tracked.IsReached ⟨0, "é\n1"⟩ ⟨⟨⟨0, "é\n1"⟩, [], 4, 2⟩, ['é', '\n', '1']⟩ :=
    ⟨[.next, .clone, .next, .next], List.mem_cons.2 (.inl rfl)⟩
  obtain ⟨_, _, _, _, _, _, adjacent, _⟩ := inStep_of_isReached started cloned ended
  exact ⟨cloned, adjacent "é" "\n1" rfl rfl⟩

end Cursor

end Lox
