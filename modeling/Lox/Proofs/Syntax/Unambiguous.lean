import Lox.Proofs.Session.Layout
import Lox.Proofs.Token.Listing
import Lox.Syntax.Rendering

/-!
Contract: canonical texts of expressions, and the trees that they are texts of.

Owns:
- atoms, the texts of literals and names, which are the texts of their tokens;
- the heading of a text, by which the outermost construct of the tree is known;
- that trees of sources with the same text are the same but for lines, unless they have a string
  or infinity as a literal.

Does not own: the texts of strings, in which anything can stand.
-/

namespace Lox

/-! ## Atoms -/

/-- The text is that of a token of the kind and has neither blanks nor parentheses in it. -/
structure Atom (text : List Char) (kind : TokenKind) : Prop where
  spells : ∃ rest, Spells text rest (.token kind)
  bare : ∀ character ∈ text, character ∉ [' ', '(', ')']

namespace Atom

variable {text : List Char} {kind : TokenKind}

/-- The text of an atom says which token it is. -/
theorem kind_unique {other : TokenKind} (atom : Atom text kind) (otherAtom : Atom text other) :
    kind = other := by
  obtain ⟨_, spells⟩ := atom.spells
  obtain ⟨_, otherSpells⟩ := otherAtom.spells
  exact spells.kind_unique otherSpells

theorem of_numeral {decimal : Number.Decimal} (numeral : Numeral text decimal) :
    Atom text (.number decimal.nearestDouble) := by
  refine ⟨⟨[], .number numeral⟩, fun character member => ?_⟩
  rcases numeral.isDigit_or_eq_of_mem character member with digit | rfl
  · intro listed
    simp only [List.mem_cons, List.not_mem_nil, or_false] at listed
    rcases listed with rfl | rfl | rfl <;> contradiction
  · decide

/-- Words have neither blanks nor parentheses in them. -/
private theorem bare_of_isWord
    {first : Char}
    {others : List Char}
    (starts : startsWord first = true)
    (continues : ∀ character ∈ others, continuesWord character = true) :
    ∀ character ∈ first :: others, character ∉ [' ', '(', ')'] := by
  intro character member listed
  have goesOn : continuesWord character = true := by
    rcases List.mem_cons.1 member with rfl | inOthers
    · rw [continuesWord, starts, Bool.true_or]
    · exact continues character inOthers
  simp only [List.mem_cons, List.not_mem_nil, or_false] at listed
  rcases listed with rfl | rfl | rfl <;>
    · rw [continuesWord, startsWord_of_ascii (by decide)] at goesOn
      contradiction

theorem of_keyword (word : Keyword) : Atom word.spelling.toList (.keyword word) := by
  refine ⟨⟨[], .keyword word⟩, ?_⟩
  obtain ⟨first, others, spelling, starts, continues⟩ := word.spelling_isWord
  rw [spelling]
  exact bare_of_isWord starts continues

theorem of_identifier {rest : List Char} (spells : Spells text rest (.token .identifier)) :
    Atom text .identifier := by
  refine ⟨⟨rest, spells⟩, ?_⟩
  cases spells with
  | identifier starts continues _ => exact bare_of_isWord starts continues

end Atom

/-! ## Headings -/

/-- What a canonical text with a parenthesis in front is the text of. -/
inductive Construct where
  | group
  | operator (mark : Symbol)
  | assign
deriving DecidableEq

/-- The word behind the parenthesis. -/
def Construct.word : Construct → List Char
  | group => "group".toList
  | operator mark => mark.spelling.toList
  | assign => "assign".toList

/-- The word says which construct it is. -/
theorem Construct.word_injective
    {construct other : Construct}
    (same : construct.word = other.word) :
    construct = other := by
  have noSymbol (mark : Symbol) :
      mark.spelling.toList ≠ "group".toList ∧ mark.spelling.toList ≠ "assign".toList := by
    cases mark <;> decide
  cases construct with
  | group =>
    cases other with
    | group => rfl
    | operator mark => exact absurd same.symm (noSymbol mark).1
    | assign => exact absurd same (by decide)
  | operator mark =>
    cases other with
    | group => exact absurd same (noSymbol mark).1
    | operator otherMark =>
      have spells : Spells mark.spelling.toList [] (.token (.symbol mark)) := .symbol mark
      have otherSpells : Spells otherMark.spelling.toList [] (.token (.symbol otherMark)) :=
        .symbol otherMark
      rw [← (show mark.spelling.toList = otherMark.spelling.toList from same)] at otherSpells
      rw [TokenKind.symbol.inj (spells.kind_unique otherSpells)]
    | assign => exact absurd same (noSymbol mark).2
  | assign =>
    cases other with
    | group => exact absurd same (by decide)
    | operator mark => exact absurd same.symm (noSymbol mark).2
    | assign => rfl

theorem Value.kind_ne_identifier (value : Value) : value.kind ≠ .identifier := by
  cases value with
  | boolean truth => cases truth <;> exact nofun
  | _ => exact nofun

theorem Value.kind_injective {value other : Value} (same : value.kind = other.kind) :
    value = other := by
  cases value with
  | boolean truth =>
    cases other with
    | boolean otherTruth => cases truth <;> cases otherTruth <;> first | rfl | cases same
    | _ => cases truth <;> cases same
  | _ =>
    cases other with
    | boolean truth => cases truth <;> cases same
    | _ => cases same <;> rfl

namespace Expr

/-- The construct that is outermost in an expression other than a literal and a name. -/
def construct? : Expr → Option Construct
  | .literal _ | .reference _ => none
  | .grouping _ => some .group
  | .unary operator _ => some (.operator operator.symbol)
  | .binary _ operator _ => some (.operator operator.symbol)
  | .assign _ _ => some .assign

/-- The text of the expression up to the first blank that separates parts of it. -/
def heading : Expr → List Char
  | .literal value => value.rendering.toList
  | .reference name => name.lexeme.toList
  | .grouping _ => '(' :: Construct.group.word
  | .unary operator _ => '(' :: (Construct.operator operator.symbol).word
  | .binary _ operator _ => '(' :: (Construct.operator operator.symbol).word
  | .assign _ _ => '(' :: Construct.assign.word

/-- The text behind the heading, in front of `tail`. -/
def behind (tail : List Char) : Expr → List Char
  | .literal _ | .reference _ => tail
  | .grouping inner => ' ' :: renderBefore (')' :: tail) inner
  | .unary _ operand => ' ' :: renderBefore (')' :: tail) operand
  | .binary left _ right => ' ' :: renderBefore (' ' :: renderBefore (')' :: tail) right) left
  | .assign name value => ' ' :: (name.lexeme.toList ++ ' ' :: renderBefore (')' :: tail) value)

theorem renderBefore_eq (tail : List Char) (tree : Expr) :
    renderBefore tail tree = tree.heading ++ tree.behind tail := by
  cases tree <;> rfl

/-- The literals and names of the tree are atoms. -/
def IsPlain : Expr → Prop
  | .literal value => Atom value.rendering.toList value.kind
  | .reference name => Atom name.lexeme.toList .identifier
  | .grouping inner => inner.IsPlain
  | .unary _ operand => operand.IsPlain
  | .binary left _ right => left.IsPlain ∧ right.IsPlain
  | .assign name value => Atom name.lexeme.toList .identifier ∧ value.IsPlain

/-- An operator is the one that its symbol stands for. -/
theorem unaryOperator_eq_of_construct?_eq
    {operator otherOperator : UnaryOp}
    {operand otherOperand : Expr}
    (same : (unary operator operand).construct? = (unary otherOperator otherOperand).construct?) :
    operator = otherOperator := by
  have symbols : operator.symbol = otherOperator.symbol :=
    Construct.operator.inj (Option.some.inj same)
  have found := UnaryOp.ofKind?_eq_some_iff.2 (congrArg TokenKind.symbol symbols)
  rw [UnaryOp.ofKind?_eq_some_iff.2 rfl] at found
  exact Option.some.inj found

theorem binaryOperator_eq_of_construct?_eq
    {operator otherOperator : BinaryOp}
    {left right otherLeft otherRight : Expr}
    (same : (binary left operator right).construct? =
      (binary otherLeft otherOperator otherRight).construct?) :
    operator = otherOperator := by
  have symbols : operator.symbol = otherOperator.symbol :=
    Construct.operator.inj (Option.some.inj same)
  have found := BinaryOp.ofKind?_eq_some_iff.2 (congrArg TokenKind.symbol symbols)
  rw [BinaryOp.ofKind?_eq_some_iff.2 rfl] at found
  exact Option.some.inj found

/-- A tail that stands behind an expression: nothing, another part, or the end of one. -/
def IsTail (tail : List Char) : Prop :=
  ∀ next ∈ tail.head?, next = ' ' ∨ next = ')'

theorem isTail_behind {tail : List Char} (isTail : IsTail tail) (tree : Expr) :
    IsTail (tree.behind tail) := by
  cases tree with
  | literal value => exact isTail
  | reference name => exact isTail
  | _ =>
    intro next first
    cases first
    exact .inl rfl

/-- Whether a tail cannot begin with the character. -/
def inHeading (character : Char) : Bool :=
  character != ' ' && character != ')'

theorem inHeading_of_mem_heading {tree : Expr} (plain : tree.IsPlain) :
    ∀ character ∈ tree.heading, inHeading character = true := by
  have ofAtom {text : List Char} {kind : TokenKind} (atom : Atom text kind) :
      ∀ character ∈ text, inHeading character = true := by
    intro character member
    have bare := atom.bare character member
    simp only [List.mem_cons, List.not_mem_nil, or_false, not_or] at bare
    simp [inHeading, bare]
  have ofAll {text : List Char} (all : text.all inHeading = true) :
      ∀ character ∈ text, inHeading character = true :=
    List.all_eq_true.1 all
  cases tree with
  | literal value => exact ofAtom plain
  | reference name => exact ofAtom plain
  | grouping inner =>
    rw [heading]
    exact ofAll (by decide)
  | unary operator operand =>
    rw [heading]
    cases operator <;> exact ofAll (by decide)
  | binary left operator right =>
    rw [heading]
    cases operator <;> exact ofAll (by decide)
  | assign name value =>
    rw [heading]
    exact ofAll (by decide)

variable {tree other : Expr}

/-- Headings and what is behind them can be told apart. -/
theorem heading_eq_and_behind_eq
    {tail otherTail : List Char}
    (plain : tree.IsPlain)
    (otherPlain : other.IsPlain)
    (isTail : IsTail tail)
    (otherIsTail : IsTail otherTail)
    (same : renderBefore tail tree = renderBefore otherTail other) :
    tree.heading = other.heading ∧ tree.behind tail = other.behind otherTail := by
  have taken {tree : Expr} {tail : List Char} (plain : tree.IsPlain) (isTail : IsTail tail) :
      (tree.heading ++ tree.behind tail).takeWhile inHeading = tree.heading := by
    have stops := isTail_behind isTail tree
    rw [List.takeWhile_append_of_pos (inHeading_of_mem_heading plain)]
    cases shape : tree.behind tail with
    | nil => simp
    | cons next rest =>
      rw [shape] at stops
      rcases stops next rfl with rfl | rfl <;> simp [inHeading]
  rw [renderBefore_eq, renderBefore_eq] at same
  have headings : tree.heading = other.heading := by
    rw [← taken plain isTail, same, taken otherPlain otherIsTail]
  rw [headings] at same
  exact ⟨headings, List.append_cancel_left same⟩

theorem heading_of_construct?
    {construct : Construct}
    (found : tree.construct? = some construct) :
    tree.heading = '(' :: construct.word := by
  cases tree <;> cases found <;> rfl

theorem parenthesis_notMem_heading (plain : tree.IsPlain) (atom : tree.construct? = none) :
    '(' ∉ tree.heading := by
  have notMem {text : List Char} {kind : TokenKind} (atom : Atom text kind) : '(' ∉ text :=
    fun member => atom.bare '(' member (by decide)
  cases tree with
  | literal value => exact notMem plain
  | reference name => exact notMem plain
  | _ => cases atom

/-- The heading shows the outermost construct. -/
theorem construct?_eq
    (plain : tree.IsPlain)
    (otherPlain : other.IsPlain)
    (same : tree.heading = other.heading) :
    tree.construct? = other.construct? := by
  cases found : tree.construct? with
  | none =>
    cases otherFound : other.construct? with
    | none => rfl
    | some construct =>
      have noParenthesis := parenthesis_notMem_heading plain found
      rw [same, heading_of_construct? otherFound] at noParenthesis
      exact absurd List.mem_cons_self noParenthesis
  | some construct =>
    rw [heading_of_construct? found] at same
    cases otherFound : other.construct? with
    | none =>
      have noParenthesis := parenthesis_notMem_heading otherPlain otherFound
      rw [← same] at noParenthesis
      exact absurd List.mem_cons_self noParenthesis
    | some otherConstruct =>
      rw [heading_of_construct? otherFound] at same
      rw [Construct.word_injective (List.cons.inj same).2]

/-- Literals and names with the same text are the same but for lines. -/
theorem sameButLines_of_heading_eq
    (atom : tree.construct? = none)
    (otherAtom : other.construct? = none)
    (plain : tree.IsPlain)
    (otherPlain : other.IsPlain)
    (same : tree.heading = other.heading) :
    tree.SameButLines other := by
  cases tree with
  | literal value =>
    cases other with
    | literal otherValue =>
      have texts : value.rendering.toList = otherValue.rendering.toList := same
      rw [IsPlain, texts] at plain
      rw [Value.kind_injective (plain.kind_unique otherPlain)]
      rfl
    | reference otherName =>
      have texts : value.rendering.toList = otherName.lexeme.toList := same
      rw [IsPlain, texts] at plain
      exact absurd (plain.kind_unique otherPlain) value.kind_ne_identifier
    | _ => cases otherAtom
  | reference name =>
    cases other with
    | literal otherValue =>
      have texts : name.lexeme.toList = otherValue.rendering.toList := same
      rw [IsPlain, texts] at plain
      exact absurd (otherPlain.kind_unique plain) otherValue.kind_ne_identifier
    | reference otherName =>
      have texts : name.lexeme = otherName.lexeme := String.toList_injective same
      simp [SameButLines, relocate, Name.relocate, texts]
    | _ => cases otherAtom
  | _ => cases atom

/-- Nothing of an atom stands behind its heading. -/
theorem behind_of_construct?_eq_none {tail : List Char} (atom : tree.construct? = none) :
    tree.behind tail = tail := by
  cases tree with
  | literal value => rfl
  | reference name => rfl
  | _ => cases atom

theorem isTail_separator (tail : List Char) : IsTail (' ' :: tail) := by
  intro next first
  cases first
  exact .inl rfl

theorem isTail_end (tail : List Char) : IsTail (')' :: tail) := by
  intro next first
  cases first
  exact .inr rfl

/-- Trees with the same text, in front of anything, are the same but for lines. -/
theorem sameButLines_of_renderBefore_eq
    {tail otherTail : List Char}
    (plain : tree.IsPlain)
    (otherPlain : other.IsPlain)
    (isTail : IsTail tail)
    (otherIsTail : IsTail otherTail)
    (same : renderBefore tail tree = renderBefore otherTail other) :
    tree.SameButLines other ∧ tail = otherTail := by
  -- The tails are not fixed: a part of the tree stands in front of the parts behind it.
  induction tree generalizing other tail otherTail with
  | literal value =>
    obtain ⟨sameHeading, sameBehind⟩ :=
      heading_eq_and_behind_eq plain otherPlain isTail otherIsTail same
    have otherAtom := (construct?_eq plain otherPlain sameHeading).symm
    exact ⟨sameButLines_of_heading_eq rfl otherAtom plain otherPlain sameHeading,
      sameBehind.trans (behind_of_construct?_eq_none otherAtom)⟩
  | reference name =>
    obtain ⟨sameHeading, sameBehind⟩ :=
      heading_eq_and_behind_eq plain otherPlain isTail otherIsTail same
    have otherAtom := (construct?_eq plain otherPlain sameHeading).symm
    exact ⟨sameButLines_of_heading_eq rfl otherAtom plain otherPlain sameHeading,
      sameBehind.trans (behind_of_construct?_eq_none otherAtom)⟩
  | grouping inner inductionHypothesis =>
    obtain ⟨sameHeading, sameBehind⟩ :=
      heading_eq_and_behind_eq plain otherPlain isTail otherIsTail same
    have sameConstruct := construct?_eq plain otherPlain sameHeading
    cases other with
    | grouping otherInner =>
      obtain ⟨inners, tails⟩ := @inductionHypothesis otherInner _ _ plain otherPlain
        (isTail_end _) (isTail_end _) (List.cons.inj sameBehind).2
      exact ⟨congrArg Expr.grouping inners, (List.cons.inj tails).2⟩
    | _ => cases sameConstruct
  | unary operator operand inductionHypothesis =>
    obtain ⟨sameHeading, sameBehind⟩ :=
      heading_eq_and_behind_eq plain otherPlain isTail otherIsTail same
    have sameConstruct := construct?_eq plain otherPlain sameHeading
    cases other with
    | unary otherOperator otherOperand =>
      obtain ⟨operands, tails⟩ := @inductionHypothesis otherOperand _ _ plain otherPlain
        (isTail_end _) (isTail_end _) (List.cons.inj sameBehind).2
      rw [unaryOperator_eq_of_construct?_eq sameConstruct]
      exact ⟨congrArg (Expr.unary otherOperator) operands, (List.cons.inj tails).2⟩
    | binary left otherOperator right =>
      -- What stands behind the first operand shows that another follows it.
      obtain ⟨_, tails⟩ := inductionHypothesis plain otherPlain.1 (isTail_end _)
        (isTail_separator _) (List.cons.inj sameBehind).2
      cases (List.cons.inj tails).1
    | _ => cases sameConstruct
  | binary left operator right leftHypothesis rightHypothesis =>
    obtain ⟨sameHeading, sameBehind⟩ :=
      heading_eq_and_behind_eq plain otherPlain isTail otherIsTail same
    have sameConstruct := construct?_eq plain otherPlain sameHeading
    cases other with
    | unary otherOperator operand =>
      obtain ⟨_, tails⟩ := @leftHypothesis operand _ _ plain.1 otherPlain (isTail_separator _)
        (isTail_end _) (List.cons.inj sameBehind).2
      cases (List.cons.inj tails).1
    | binary otherLeft otherOperator otherRight =>
      obtain ⟨lefts, middle⟩ := leftHypothesis plain.1 otherPlain.1 (isTail_separator _)
        (isTail_separator _) (List.cons.inj sameBehind).2
      obtain ⟨rights, tails⟩ := rightHypothesis plain.2 otherPlain.2 (isTail_end _)
        (isTail_end _) (List.cons.inj middle).2
      rw [binaryOperator_eq_of_construct?_eq sameConstruct]
      exact ⟨congrArg₂ (Expr.binary · otherOperator ·) lefts rights, (List.cons.inj tails).2⟩
    | _ => cases sameConstruct
  | assign name value inductionHypothesis =>
    obtain ⟨sameHeading, sameBehind⟩ :=
      heading_eq_and_behind_eq plain otherPlain isTail otherIsTail same
    have sameConstruct := construct?_eq plain otherPlain sameHeading
    cases other with
    | assign otherName otherValue =>
      -- The name stands in front of the value as the text of a reference does.
      obtain ⟨names, middle⟩ := @heading_eq_and_behind_eq (.reference name)
        (.reference otherName) _ _ plain.1 otherPlain.1 (isTail_separator _) (isTail_separator _)
        (List.cons.inj sameBehind).2
      obtain ⟨values, tails⟩ := inductionHypothesis plain.2 otherPlain.2 (isTail_end _)
        (isTail_end _) (List.cons.inj middle).2
      have texts : name.lexeme = otherName.lexeme := String.toList_injective names
      refine ⟨congrArg₂ Expr.assign ?_ values, (List.cons.inj tails).2⟩
      simp [Name.relocate, texts]
    | _ => cases sameConstruct

end Expr

/-! ## Trees of sources -/

/-- The literal is neither a string nor infinity. -/
def Value.IsPlain : Value → Prop
  | .string _ => False
  | .number value => value.isInf = false
  | _ => True

/-- The literals of an expression, in order. -/
def Expr.literals : Expr → List Value
  | .literal value => [value]
  | .reference _ => []
  | .grouping inner => inner.literals
  | .unary _ operand => operand.literals
  | .binary left _ right => left.literals ++ right.literals
  | .assign _ value => value.literals

namespace Token.Scanned

variable {token : Token}

/-- A plain literal that is a token of a source is written as an atom. -/
theorem atom_rendering
    {value : Value}
    (scanned : token.Scanned)
    (isLiteral : token.kind = value.kind)
    (plain : value.IsPlain) :
    Atom value.rendering.toList value.kind := by
  cases value with
  | nil => exact Atom.of_keyword .nilWord
  | boolean truth =>
    cases truth with
    | true => exact Atom.of_keyword .trueWord
    | false => exact Atom.of_keyword .falseWord
  | string content => exact plain.elim
  | number number =>
    obtain ⟨decimal, _, rfl⟩ := scanned.exists_numeral isLiteral
    rcases decimal.exists_ofDouble_nearestDouble with infinite | ⟨magnitude, exact⟩
    · rw [Value.IsPlain, Number.Exact.isInf_of_ofDouble infinite] at plain
      cases plain
    · have written : (Value.number decimal.nearestDouble).rendering = magnitude.shortest.text := by
        refine (Number.Format.shortest.write_of_ofDouble exact).trans ?_
        rw [Number.Format.sign, if_neg Bool.false_ne_true, String.empty_append]
        rfl
      have atom := Atom.of_numeral magnitude.shortest.numeral_chars
      rw [Number.Exact.nearestDouble_shortest exact] at atom
      rw [written, Number.Decimal.text, String.toList_ofList]
      exact atom

/-- So is a name. -/
theorem atom_lexeme
    {name : Name}
    (scanned : token.Scanned)
    (isName : token.piece = .name name) :
    Atom name.lexeme.toList .identifier := by
  rw [Token.piece_eq_name_iff] at isName
  subst isName
  obtain ⟨_, spells⟩ := scanned.spells
  exact Atom.of_identifier spells

end Token.Scanned

namespace Expr

variable {tree other : Expr}

/-- A tree that is written with tokens of sources is plain if its literals are. -/
theorem isPlain_of_scanned
    (scanned : ∀ piece ∈ tree.pieces, ∃ token : Token, token.Scanned ∧ token.piece = piece)
    (plain : ∀ value ∈ tree.literals, value.IsPlain) :
    tree.IsPlain := by
  induction tree with
  | literal value =>
    obtain ⟨token, isScanned, seen⟩ := scanned _ List.mem_cons_self
    exact isScanned.atom_rendering (Token.kind_of_piece_eq_mark seen).1
      (plain value List.mem_cons_self)
  | reference name =>
    obtain ⟨token, isScanned, seen⟩ := scanned _ List.mem_cons_self
    exact isScanned.atom_lexeme seen
  | grouping inner inductionHypothesis =>
    exact inductionHypothesis (fun piece member => scanned piece
      (List.mem_cons_of_mem _ (List.mem_append_left _ member))) plain
  | unary operator operand inductionHypothesis =>
    exact inductionHypothesis (fun piece member => scanned piece
      (List.mem_cons_of_mem _ member)) plain
  | binary left operator right leftHypothesis rightHypothesis =>
    obtain ⟨leftPlain, rightPlain⟩ := List.forall_mem_append.1 plain
    exact ⟨leftHypothesis (fun piece member => scanned piece (List.mem_append_left _ member))
      leftPlain, rightHypothesis (fun piece member => scanned piece
        (List.mem_append_right _ (List.mem_cons_of_mem _ member))) rightPlain⟩
  | assign name value inductionHypothesis =>
    obtain ⟨token, isScanned, seen⟩ := scanned _ List.mem_cons_self
    exact ⟨isScanned.atom_lexeme seen, inductionHypothesis (fun piece member => scanned piece
      (List.mem_cons_of_mem _ (List.mem_cons_of_mem _ member))) plain⟩

/-- An expression of a source is written with tokens of it. -/
theorem scanned_of_ofSource
    {source : String}
    (read : Expr.ofSource source = .ok tree) :
    ∀ piece ∈ tree.pieces, ∃ token : Token, token.Scanned ∧ token.piece = piece := by
  obtain ⟨_, parsed⟩ := Expr.ofSource_eq_ok_iff.1 read
  obtain ⟨_, ⟨front, tokens, written⟩, _⟩ := (Expr.ofTokens_eq_ok_iff.1 parsed).1.written
  intro piece member
  rw [← written] at member
  obtain ⟨token, inFront, seen⟩ := List.mem_map.1 member
  have inTokens : token ∈ (lex source).tokens.takeWhile (!·.isEnd) := by
    rw [tokens]
    exact List.mem_append_left _ inFront
  have notEnd := List.mem_takeWhile_imp inTokens
  rw [Bool.not_eq_true'] at notEnd
  exact ⟨token, ⟨notEnd, source, (List.takeWhile_prefix _).mem inTokens⟩, seen⟩

/-- Trees of sources with the same canonical text are the same but for the lines of their names,
if no literal in them is a string or infinity. -/
theorem sameButLines_of_text_eq
    {first second : String}
    (read : Expr.ofSource first = .ok tree)
    (otherRead : Expr.ofSource second = .ok other)
    (plain : ∀ value ∈ tree.literals, value.IsPlain)
    (otherPlain : ∀ value ∈ other.literals, value.IsPlain)
    (same : tree.text = other.text) :
    tree.SameButLines other := by
  have nothingBehind : IsTail [] := fun _ found => nomatch found
  exact (sameButLines_of_renderBefore_eq (isPlain_of_scanned (scanned_of_ofSource read) plain)
    (isPlain_of_scanned (scanned_of_ofSource otherRead) otherPlain) nothingBehind nothingBehind
    (String.ofList_injective same)).1

/-- A name like the word of a grouping, on two lines, and a number with two numerals. -/
theorem sameButLines_of_text_eq_sample :
    Expr.ofSource "-group+1.50" =
        .ok (.binary (.unary .negate (.reference ⟨"group", 1⟩)) .add
          (.literal (.number (Number.Decimal.nearestDouble ⟨150, 2⟩)))) ∧
      Expr.ofSource "- \ngroup + 1.5" =
        .ok (.binary (.unary .negate (.reference ⟨"group", 2⟩)) .add
          (.literal (.number (Number.Decimal.nearestDouble ⟨15, 1⟩)))) ∧
      SameButLines
        (.binary (.unary .negate (.reference ⟨"group", 1⟩)) .add
          (.literal (.number (Number.Decimal.nearestDouble ⟨150, 2⟩))))
        (.binary (.unary .negate (.reference ⟨"group", 2⟩)) .add
          (.literal (.number (Number.Decimal.nearestDouble ⟨15, 1⟩)))) := by
  have read : Expr.ofSource "-group+1.50" =
      .ok (.binary (.unary .negate (.reference ⟨"group", 1⟩)) .add
        (.literal (.number (Number.Decimal.nearestDouble ⟨150, 2⟩)))) := by
    with_unfolding_all rfl
  have otherRead : Expr.ofSource "- \ngroup + 1.5" =
      .ok (.binary (.unary .negate (.reference ⟨"group", 2⟩)) .add
        (.literal (.number (Number.Decimal.nearestDouble ⟨15, 1⟩)))) := by
    with_unfolding_all rfl
  refine ⟨read, otherRead, sameButLines_of_text_eq read otherRead ?_ ?_ ?_⟩
  · exact List.forall_mem_singleton.2 (by with_unfolding_all rfl)
  · exact List.forall_mem_singleton.2 (by with_unfolding_all rfl)
  · with_unfolding_all rfl

end Expr

end Lox
