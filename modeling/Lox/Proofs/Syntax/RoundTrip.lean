import Lox.Proofs.Syntax.Completeness

/-!
Contract: token lists and the trees that they are a writing of.

Owns:
- when the tokens before an end marker are the writing of an expression or of a program;
- that exactly those trees are read, if their nesting is within the limit, and that too much
  nesting is found if it is not;
- reading as the inverse of writing, in both directions.

Does not own: how high an accepted tree can be.
-/

namespace Lox

/-! ## The input of the grammar -/

theorem TokenInput.read_eq_ok_iff
    {Result : Type}
    {reader : Grammar.Reader Result}
    {input : TokenInput}
    {result : Result} :
    input.read reader = .ok result ↔ ∃ rest, reader input.tokens = .ok (result, rest) := by
  unfold read
  split
  · rename_i found rest taken
    simp [taken]
  · rename_i refusal refused
    simp [refused]

theorem TokenInput.exists_error_of_refused
    {Result : Type}
    (reader : Grammar.Reader Result)
    (input : TokenInput)
    {refusal : Grammar.Refusal}
    (refused : reader input.tokens = .error refusal) :
    ∃ error, input.read reader = .error error ∧ error.fault = refusal.fault := by
  refine ⟨input.errorOf refusal, ?_, rfl⟩
  rw [read, refused]

/-! ## End markers -/

theorem Expr.endOfInput_notMem_pieces (tree : Expr) : .mark .endOfInput ∉ tree.pieces := by
  induction tree with
  | literal value =>
    cases value with
    | boolean truth => cases truth <;> simp [pieces, Value.kind]
    | _ => simp [pieces, Value.kind]
  | _ => simp_all [pieces]

mutual

theorem Statement.endOfInput_notMem_pieces :
    (statement : Statement Expr) → .mark .endOfInput ∉ statement.pieces
  | .expression tree => by simp [Statement.pieces, tree.endOfInput_notMem_pieces]
  | .print tree => by simp [Statement.pieces, tree.endOfInput_notMem_pieces]
  | .var name none => by simp [Statement.pieces]
  | .var name (some tree) => by simp [Statement.pieces, tree.endOfInput_notMem_pieces]
  | .block body => by simp [Statement.pieces, Program.endOfInput_notMem_pieces body]

theorem Program.endOfInput_notMem_pieces :
    (program : List (Statement Expr)) → .mark .endOfInput ∉ Program.pieces program
  | [] => by simp [Program.pieces]
  | statement :: rest => by
    simp [Program.pieces, statement.endOfInput_notMem_pieces,
      Program.endOfInput_notMem_pieces rest]

end

theorem takeWhile_append_of_noEnd
    {front : List Token}
    (noEnd : ∀ token ∈ front, token.isEnd = false)
    (rest : List Token) :
    (front ++ rest).takeWhile (!·.isEnd) = front ++ rest.takeWhile (!·.isEnd) := by
  apply List.takeWhile_append_of_pos
  intro token member
  rw [noEnd token member]
  rfl

theorem takeWhile_of_noEnd
    {tokens : List Token}
    (noEnd : ∀ token ∈ tokens, token.isEnd = false) :
    tokens.takeWhile (!·.isEnd) = tokens := by
  have whole := takeWhile_append_of_noEnd noEnd []
  rwa [List.append_nil, List.takeWhile_nil, List.append_nil] at whole

theorem takeWhile_append_of_map_piece
    {front : List Token}
    {pieces : List Piece}
    (written : front.map Token.piece = pieces)
    (noEnd : .mark .endOfInput ∉ pieces)
    (rest : List Token) :
    (front ++ rest).takeWhile (!·.isEnd) = front ++ rest.takeWhile (!·.isEnd) := by
  refine takeWhile_append_of_noEnd (fun token member => ?_) rest
  have other : token.kind ≠ .endOfInput := by
    intro isEnd
    refine noEnd (written ▸ List.mem_map.2 ⟨token, member, ?_⟩)
    exact Token.piece_of_kind_eq isEnd (by simp)
  simp [Token.isEnd, other]

/-! ## Writings -/

/-- The tokens before the first end marker begin with a writing of the expression, and it does
not go on after that. -/
structure Expr.WrittenBy (tree : Expr) (tokens : List Token) : Prop where
  respects : tree.RespectsPrecedence
  written : ∃ rest, BeginsWith (tokens.takeWhile (!·.isEnd)) tree.pieces rest ∧ EndsAt 0 rest

/-- The tokens before the first end marker are a writing of the program. -/
structure Program.WrittenBy (program : Program) (tokens : List Token) : Prop where
  respects : ∀ tree ∈ Program.trees program, tree.RespectsPrecedence
  written : (tokens.takeWhile (!·.isEnd)).map Token.piece = Program.pieces program

private theorem endsAt_takeWhile
    {rank : Nat}
    {tokens : List Token}
    (ends : EndsAt rank tokens)
    (keeps : Token → Bool) :
    EndsAt rank (tokens.takeWhile keeps) := by
  intro next member
  refine ends next ?_
  cases tokens with
  | nil => cases member
  | cons first others =>
    rw [List.takeWhile_cons] at member
    split at member
    · exact member
    · cases member

/-- Tokens that are seen as the pieces of an expression write it, before what it does not go on
with. -/
theorem Expr.writtenBy_append
    {tree : Expr}
    {tokens rest : List Token}
    (respects : tree.RespectsPrecedence)
    (written : tokens.map Token.piece = tree.pieces)
    (ends : EndsAt 0 rest) :
    tree.WrittenBy (tokens ++ rest) :=
  ⟨respects, rest.takeWhile (!·.isEnd),
    ⟨tokens, takeWhile_append_of_map_piece written tree.endOfInput_notMem_pieces rest, written⟩,
    endsAt_takeWhile ends _⟩

/-- Tokens that are seen as the pieces of a program write it, before an end marker or without
one. -/
theorem Program.writtenBy_append
    {program : Program}
    {tokens rest : List Token}
    (respects : ∀ tree ∈ Program.trees program, tree.RespectsPrecedence)
    (written : tokens.map Token.piece = Program.pieces program)
    (ends : ∀ marker ∈ rest.head?, marker.isEnd = true) :
    program.WrittenBy (tokens ++ rest) := by
  refine ⟨respects, ?_⟩
  rw [takeWhile_append_of_map_piece written (Program.endOfInput_notMem_pieces program)]
  cases rest with
  | nil => simpa using written
  | cons marker rest =>
    rw [List.takeWhile_cons_of_neg (by simp [ends marker rfl]), List.append_nil, written]

/-- Tokens after tokens without an end marker write the statements of both. -/
theorem Program.WrittenBy.append
    {first second : Program}
    {front back : List Token}
    (firstWrites : first.WrittenBy front)
    (noEnd : ∀ token ∈ front, token.isEnd = false)
    (secondWrites : second.WrittenBy back) :
    Program.WrittenBy (first ++ second) (front ++ back) := by
  obtain ⟨firstRespects, firstWritten⟩ := firstWrites
  obtain ⟨secondRespects, secondWritten⟩ := secondWrites
  constructor
  · intro tree member
    rw [Program.trees_append] at member
    rcases List.mem_append.1 member with here | later
    · exact firstRespects tree here
    · exact secondRespects tree later
  · rw [takeWhile_of_noEnd noEnd] at firstWritten
    rw [takeWhile_append_of_noEnd noEnd, List.map_append, firstWritten, secondWritten,
      Program.pieces_append]

theorem Program.writtenBy_append_endAt_iff
    {program : Program}
    {tokens : List Token}
    {line : Nat}
    (noEnd : ∀ token ∈ tokens, token.isEnd = false) :
    program.WrittenBy (tokens ++ [Token.endAt line]) ↔ program.WrittenBy tokens := by
  have before : (tokens ++ [Token.endAt line]).takeWhile (!·.isEnd) =
      tokens.takeWhile (!·.isEnd) := by
    rw [takeWhile_append_of_noEnd noEnd, takeWhile_of_noEnd noEnd]
    exact List.append_nil tokens
  constructor
  · rintro ⟨respects, written⟩
    exact ⟨respects, before ▸ written⟩
  · rintro ⟨respects, written⟩
    exact ⟨respects, before ▸ written⟩

/-- An expression is accepted exactly if the tokens write it and its nesting is within the
limit. -/
theorem Expr.ofTokens_eq_ok_iff {tokens : List Token} {tree : Expr} :
    Expr.ofTokens tokens = .ok tree ↔
      tree.WrittenBy tokens ∧ tree.nesting ≤ Grammar.maxNesting := by
  refine TokenInput.read_eq_ok_iff.trans ⟨?_, ?_⟩
  · rintro ⟨rest, read⟩
    obtain ⟨written, ends, fits⟩ := Grammar.sound_expression Grammar.maxNesting read
    exact ⟨⟨fits.respects, rest, written, ends⟩, Nat.le_of_lt_succ fits.nesting_lt⟩
  · rintro ⟨⟨respects, rest, written, ends⟩, within⟩
    exact ⟨rest, (Grammar.complete_expression Grammar.maxNesting (Nat.zero_le _) respects written
      ends).1 (Nat.lt_succ_of_le within)⟩

/-- Where the nesting of a written expression exceeds the limit, that is the fault. -/
theorem Expr.exists_tooMuchNesting
    {tokens : List Token}
    {tree : Expr}
    (writes : tree.WrittenBy tokens)
    (exceeds : Grammar.maxNesting < tree.nesting) :
    ∃ error, Expr.ofTokens tokens = .error error ∧ error.fault = .tooMuchNesting := by
  obtain ⟨rest, written, ends⟩ := writes.written
  obtain ⟨unread, refused⟩ := (Grammar.complete_expression Grammar.maxNesting (Nat.zero_le _)
    writes.respects written ends).2 (by omega)
  exact TokenInput.exists_error_of_refused _ (.ofTokens tokens) refused

theorem Program.ofTokens_eq_ok_iff {tokens : List Token} {program : Program} :
    Program.ofTokens tokens = .ok program ↔
      program.WrittenBy tokens ∧ Program.nesting program ≤ Grammar.maxNesting := by
  refine TokenInput.read_eq_ok_iff.trans ⟨?_, ?_⟩
  · rintro ⟨rest, read⟩
    obtain ⟨written, fits⟩ := Grammar.sound_program read
    exact ⟨⟨fits.respects, written⟩, Nat.le_of_lt_succ fits.nesting_lt⟩
  · rintro ⟨⟨respects, written⟩, within⟩
    exact ⟨[], (Grammar.complete_program respects written).1 within⟩

theorem Program.exists_tooMuchNesting
    {tokens : List Token}
    {program : Program}
    (writes : program.WrittenBy tokens)
    (exceeds : Grammar.maxNesting < Program.nesting program) :
    ∃ error, Program.ofTokens tokens = .error error ∧ error.fault = .tooMuchNesting := by
  obtain ⟨unread, refused⟩ := (Grammar.complete_program writes.respects writes.written).2
    (Nat.not_le_of_lt exceeds)
  exact TokenInput.exists_error_of_refused _ (.ofTokens tokens) refused

/-! ## Reading is the inverse of writing -/

/-- A product of a negated grouping, with an assignment inside, compared for equality. -/
def sampleTree : Expr :=
  .binary
    (.binary
      (.unary .negate (.grouping (.assign ⟨"a", 1⟩ (.literal (.string "text")))))
      .multiply
      (.reference ⟨"b", 1⟩))
    .equal
    (.reference ⟨"c", 2⟩)

/-- Tokens of the expression, with its names on their lines. -/
def sampleTreeTokens : List Token :=
  [⟨.symbol .minus, "-", 1⟩, ⟨.symbol .leftParen, "(", 1⟩, ⟨.identifier, "a", 1⟩,
    ⟨.symbol .equal, "=", 1⟩, ⟨.string "text", "\"text\"", 1⟩, ⟨.symbol .rightParen, ")", 1⟩,
    ⟨.symbol .star, "*", 1⟩, ⟨.identifier, "b", 1⟩, ⟨.symbol .equalEqual, "==", 2⟩,
    ⟨.identifier, "c", 2⟩]

/-- A block that prints the expression, and a declaration after it. -/
def sampleProgram : Program :=
  [.block [.print sampleTree], .var ⟨"a", 3⟩ none]

/-- Tokens of the program, without an end marker. -/
def sampleProgramTokens : List Token :=
  [⟨.symbol .leftBrace, "\x7b", 1⟩, ⟨.keyword .printWord, "print", 1⟩] ++ sampleTreeTokens ++
    [⟨.symbol .semicolon, ";", 2⟩, ⟨.symbol .rightBrace, "\x7d", 2⟩, ⟨.keyword .varWord, "var", 3⟩,
      ⟨.identifier, "a", 3⟩, ⟨.symbol .semicolon, ";", 3⟩]

/-- An accepted program is written with exactly the pieces of the tokens before the first end
marker, its expressions respect precedence, and its nesting is within the limit. -/
theorem Program.sound_ofTokens
    {tokens : List Token}
    {program : Program}
    (read : Program.ofTokens tokens = .ok program) :
    (tokens.takeWhile (!·.isEnd)).map Token.piece = Program.pieces program ∧
      (∀ tree ∈ Program.trees program, tree.RespectsPrecedence) ∧
      Program.nesting program ≤ Grammar.maxNesting := by
  obtain ⟨⟨respects, written⟩, within⟩ := Program.ofTokens_eq_ok_iff.1 read
  exact ⟨written, respects, within⟩

theorem Program.sound_ofTokens_sample :
    Program.ofTokens (sampleProgramTokens ++ [Token.endAt 3, Token.endAt 4]) = .ok sampleProgram ∧
      ((sampleProgramTokens ++ [Token.endAt 3, Token.endAt 4]).takeWhile (!·.isEnd)).map
        Token.piece = Program.pieces sampleProgram ∧
      (∀ tree ∈ Program.trees sampleProgram, tree.RespectsPrecedence) ∧
      Program.nesting sampleProgram ≤ Grammar.maxNesting := by
  have read : Program.ofTokens (sampleProgramTokens ++ [Token.endAt 3, Token.endAt 4]) =
      .ok sampleProgram := by
    with_unfolding_all rfl
  exact ⟨read, Program.sound_ofTokens read⟩

/-- Every program that respects precedence and is within the limit of nesting is read back from
any tokens that it is written with, also before an end marker with anything after it.  Every such
expression is read back before anything that it does not go on with. -/
theorem complete_ofTokens :
    (∀ (program : Program) (tokens : List Token),
      (∀ tree ∈ Program.trees program, tree.RespectsPrecedence) →
      Program.nesting program ≤ Grammar.maxNesting →
      tokens.map Token.piece = Program.pieces program →
        Program.ofTokens tokens = .ok program ∧
        ∀ (marker : Token) (rest : List Token), marker.isEnd = true →
          Program.ofTokens (tokens ++ marker :: rest) = .ok program) ∧
    (∀ (tree : Expr) (tokens rest : List Token),
      tree.RespectsPrecedence →
      tree.nesting ≤ Grammar.maxNesting →
      tokens.map Token.piece = tree.pieces →
      (∀ next ∈ rest.head?, next.kind ≠ .symbol .equal ∧ BinaryOp.ofKind? next.kind = none) →
        Expr.ofTokens (tokens ++ rest) = .ok tree) := by
  constructor
  · intro program tokens respects within written
    constructor
    · have writes : program.WrittenBy (tokens ++ []) :=
        Program.writtenBy_append respects written (by simp)
      rw [List.append_nil] at writes
      exact Program.ofTokens_eq_ok_iff.2 ⟨writes, within⟩
    · intro marker rest isEnd
      have writes : program.WrittenBy (tokens ++ marker :: rest) :=
        Program.writtenBy_append respects written (by simpa using isEnd)
      exact Program.ofTokens_eq_ok_iff.2 ⟨writes, within⟩
  · intro tree tokens rest respects within written stops
    have writes := Expr.writtenBy_append respects written (endsAt_zero_iff.2 stops)
    exact Expr.ofTokens_eq_ok_iff.2 ⟨writes, within⟩

theorem complete_ofTokens_sample :
    Program.ofTokens sampleProgramTokens = .ok sampleProgram ∧
      Program.ofTokens (sampleProgramTokens ++ [.endAt 3, ⟨.symbol .dot, ".", 4⟩]) =
        .ok sampleProgram ∧
      Expr.ofTokens (sampleTreeTokens ++ [⟨.symbol .rightParen, ")", 2⟩]) = .ok sampleTree := by
  have programs := complete_ofTokens.1 sampleProgram sampleProgramTokens (by decide) (by decide)
    (by decide)
  have tree := complete_ofTokens.2 sampleTree sampleTreeTokens [⟨.symbol .rightParen, ")", 2⟩]
    (by decide) (by decide) (by decide) (by decide)
  exact ⟨programs.1, programs.2 (.endAt 3) [⟨.symbol .dot, ".", 4⟩] rfl, tree⟩

end Lox
