import Frontend.Proofs.Classification
import Frontend.Proofs.Spacing
import Frontend.Proofs.StatementOutcome

/-!
# The lexemes of a tree's text

The text of a tree is scanned as the lexemes of its tokens, in the order in which they were read,
with parentheses around each operation and a semicolon behind a binding or a return
(`Expression.lexemesOf_text`, `Statement.SpelledBy.lexemesOf_text`). Without this punctuation, what
is left are the tokens that the tree was read from (`Statement.SpelledBy.withoutPunctuation_lexemes`).
-/
namespace Frontend

/-- The lexeme that is the character by itself. -/
def Lexeme.ofSymbol (c : Char) : Lexeme := ⟨(Kind.ofSymbol? c).getD .illegal, [c]⟩

theorem lexemesOf_append {c : Char} (noLetter : isLetter c = false) (noDigit : c.isDigit = false)
    (noEqual : c ≠ '=') (text more : List Char) :
    lexemesOf (text ++ c :: more) = lexemesOf text ++ lexemesOf (c :: more) := by
  rw [lexemesOf, scan_append, List.map_append, map_lexeme_scan_eq_lexemesOf,
    map_lexeme_scan_eq_lexemesOf]
  rintro token - next following
  obtain rfl := Option.some.inj following
  exact Kind.not_goesOnWith noLetter noDigit noEqual

theorem lexemesOf_layout {c : Char} (layout : isLayout c = true) (rest : List Char) :
    lexemesOf (c :: rest) = lexemesOf rest := by
  have blank : ∀ d ∈ [c], isLayout d = true := by simpa using layout
  exact lexemesOf_gap blank rest

theorem lexemesOf_lexeme_layout {lexeme : Lexeme} {c : Char} (formed : lexeme.Formed)
    (layout : isLayout c = true) (rest : List Char) :
    lexemesOf (lexeme.text ++ c :: rest) = lexeme :: lexemesOf rest := by
  have ends : lexeme.EndsBefore (c :: rest) := by
    intro next following
    obtain rfl := Option.some.inj following
    exact Kind.not_goesOnWith_of_isLayout layout
  rw [lexemesOf_lexeme formed ends, lexemesOf_layout layout]

/-- The characters that a tree's text is punctuated with. -/
inductive IsMark : Char → Prop
  | openParen : IsMark '('
  | closeParen : IsMark ')'
  | semicolon : IsMark ';'

/-- Such a character is a token by itself, whatever stands behind it. -/
theorem scan_mark {c : Char} (mark : IsMark c) (offset : Nat) (rest : List Char) :
    scan offset (c :: rest) =
      ⟨(Lexeme.ofSymbol c).kind, String.singleton c, Position.ofOffset offset⟩ ::
        scan (offset + c.utf8Size) rest := by
  have formed : (Lexeme.ofSymbol c).Formed := by
    cases mark <;> exact .single (by decide) (by decide) (by decide)
  have ends : (Lexeme.ofSymbol c).EndsBefore rest := by
    intro next _ more
    have symbol : ¬ (Lexeme.ofSymbol c).kind.IsWord ∧ (Lexeme.ofSymbol c).kind ≠ .integer ∧
        ¬ ((Lexeme.ofSymbol c).kind = .assignment ∨ (Lexeme.ofSymbol c).kind = .not) := by
      cases mark <;> decide
    exact symbol.2.2 (more.eq_of_symbol symbol.1 symbol.2.1).1
  rw [String.singleton_eq_ofList]
  exact scan_lexeme formed ends offset

theorem lexemesOf_mark {c : Char} (mark : IsMark c) (rest : List Char) :
    lexemesOf (c :: rest) = .ofSymbol c :: lexemesOf rest := by
  rw [lexemesOf, scan_mark mark, List.map_cons, map_lexeme_scan_eq_lexemesOf,
    Token.lexeme, String.toList_singleton]
  rfl

theorem lexemesOf_append_mark {c : Char} (mark : IsMark c) (text : List Char) :
    lexemesOf (text ++ [c]) = lexemesOf text ++ [.ofSymbol c] := by
  have apart : isLetter c = false ∧ c.isDigit = false ∧ c ≠ '=' := by cases mark <;> decide
  rw [lexemesOf_append apart.1 apart.2.1 apart.2.2, lexemesOf_mark mark, lexemesOf_nil]

namespace Expression

/-- The lexemes of the expression's text. -/
def lexemes : Expression → List Lexeme
  | identifier name => [name.token.lexeme]
  | integer token _ => [token.lexeme]
  | unary token _ operand => .ofSymbol '(' :: token.lexeme :: (operand.lexemes ++ [.ofSymbol ')'])
  | binary token left _ right =>
    .ofSymbol '(' :: (left.lexemes ++ token.lexeme :: (right.lexemes ++ [.ofSymbol ')']))

theorem toList_text_unary {token : Token} {operator : String} {operand : Expression} :
    (unary token operator operand).text.toList =
      '(' :: (operator.toList ++ (operand.text.toList ++ [')'])) := by
  simp [text]

theorem toList_text_binary {token : Token} {left right : Expression} {operator : String} :
    (binary token left operator right).text.toList =
      '(' :: (left.text.toList ++ ' ' :: (operator.toList ++ ' ' ::
        (right.text.toList ++ [')']))) := by
  simp [text]

/-- A sign in front of an expression is not half of a pair. -/
theorem exists_text_eq_cons {e : Expression} (faithful : e.Faithful)
    (formed : ∀ token ∈ e.tokens, token.lexeme.Formed) :
    ∃ c rest, e.text.toList = c :: rest ∧ c ≠ '=' := by
  cases e with
  | identifier name =>
    obtain ⟨some_left, letters⟩ :=
      (formed name.token List.mem_cons_self).isWord_iff.mp (.inl faithful.1)
    obtain ⟨c, rest, split⟩ := List.exists_cons_of_ne_nil some_left
    refine ⟨c, rest, by rw [text, faithful.2]; exact split, ?_⟩
    rintro rfl
    exact absurd (letters '=' (by simp [split])) (by decide)
  | integer token value =>
    obtain ⟨some_left, digits⟩ :=
      (formed token List.mem_cons_self).kind_eq_integer_iff.mp faithful.1
    obtain ⟨c, rest, split⟩ := List.exists_cons_of_ne_nil some_left
    refine ⟨c, rest, split, ?_⟩
    rintro rfl
    exact absurd (digits '=' (by simp [split])) (by decide)
  | unary token operator operand => exact ⟨'(', _, toList_text_unary, by decide⟩
  | binary token left operator right => exact ⟨'(', _, toList_text_binary, by decide⟩

theorem lexemesOf_text {e : Expression} (faithful : e.Faithful)
    (formed : ∀ token ∈ e.tokens, token.lexeme.Formed) : lexemesOf e.text.toList = e.lexemes := by
  have atEnd (lexeme : Lexeme) : lexeme.EndsBefore [] := by simp [Lexeme.EndsBefore]
  induction e with
  | identifier name =>
    have alone := lexemesOf_lexeme (formed name.token List.mem_cons_self) (atEnd _)
    rw [lexemesOf_nil, List.append_nil] at alone
    rw [text, faithful.2]
    exact alone
  | integer token value =>
    have alone := lexemesOf_lexeme (formed token List.mem_cons_self) (atEnd _)
    rwa [lexemesOf_nil, List.append_nil] at alone
  | unary token operator operand ih =>
    obtain ⟨sign, rfl, inner⟩ := faithful
    obtain ⟨own, behind⟩ := List.forall_mem_cons.mp formed
    have ends : token.lexeme.EndsBefore (operand.text.toList ++ [')']) := by
      obtain ⟨c, rest, begins, noEqual⟩ := exists_text_eq_cons inner behind
      rw [begins]
      intro next following more
      obtain rfl := Option.some.inj following
      have other : ¬ token.kind.IsWord ∧ token.kind ≠ .integer := by
        revert sign
        cases token.kind <;> decide
      exact noEqual (more.eq_of_symbol other.1 other.2).2
    have scanned := lexemesOf_lexeme own ends
    rw [lexemesOf_append_mark .closeParen, ih inner behind] at scanned
    rw [toList_text_unary, lexemesOf_mark .openParen, lexemes, ← scanned]
    rfl
  | binary token left operator right leftIh rightIh =>
    obtain ⟨-, rfl, leftInner, rightInner⟩ := faithful
    obtain ⟨inLeft, behind⟩ := List.forall_mem_append.mp formed
    obtain ⟨own, inRight⟩ := List.forall_mem_cons.mp behind
    have scanned := lexemesOf_lexeme_layout own (c := ' ') (by decide) (right.text.toList ++ [')'])
    rw [lexemesOf_append_mark .closeParen, rightIh rightInner inRight] at scanned
    rw [toList_text_binary, lexemesOf_mark .openParen,
      lexemesOf_append (by decide) (by decide) (by decide), leftIh leftInner inLeft,
      lexemesOf_layout (by decide)]
    exact congrArg (fun rest => _ :: (left.lexemes ++ rest)) scanned

theorem eq_of_mem_lexemes {e : Expression} {lexeme : Lexeme} (member : lexeme ∈ e.lexemes) :
    lexeme = .ofSymbol '(' ∨ lexeme = .ofSymbol ')' ∨ lexeme ∈ e.tokens.map Token.lexeme := by
  induction e with
  | identifier name => exact .inr (.inr member)
  | integer token value => exact .inr (.inr member)
  | unary token operator operand ih =>
    simp only [lexemes, tokens, List.mem_cons, List.mem_append, List.map_cons] at member ⊢
    grind
  | binary token left operator right leftIh rightIh =>
    simp only [lexemes, tokens, List.mem_cons, List.mem_append, List.map_append,
      List.map_cons] at member ⊢
    grind

/-- The number of the nodes that are operations. -/
def operations : Expression → Nat
  | identifier _ => 0
  | integer _ _ => 0
  | unary _ _ operand => operand.operations + 1
  | binary _ left _ right => left.operations + right.operations + 1

theorem Faithful.kind_cases {e : Expression} (faithful : e.Faithful) :
    ∀ token ∈ e.tokens,
      token.kind.IsSign ∨ token.IsAtom ∨ token.kind ∈ Handlers.standardJoining := by
  induction e with
  | identifier name =>
    intro token member
    rw [List.mem_singleton.mp member]
    exact .inr (.inl (.inl faithful.1))
  | integer token value =>
    intro other member
    rw [List.mem_singleton.mp member]
    exact .inr (.inl (Token.isAtom_of_integerValue? faithful.1 faithful.2))
  | unary token operator operand ih =>
    exact List.forall_mem_cons.mpr ⟨.inl faithful.1, ih faithful.2.2⟩
  | binary token left operator right leftIh rightIh =>
    exact List.forall_mem_append.mpr ⟨leftIh faithful.2.2.1,
      List.forall_mem_cons.mpr ⟨.inr (.inr faithful.1), rightIh faithful.2.2.2⟩⟩

end Expression

/-! ### Without the punctuation -/

/-- Lexemes of the kind show the structure of a tree in its text. The tree has no such tokens. -/
def Kind.isPunctuation (kind : Kind) : Bool :=
  kind == .openParen || kind == .closeParen || kind == .semicolon

theorem Kind.ne_of_not_isPunctuation {kind : Kind} (plain : kind.isPunctuation = false) :
    kind ≠ .openParen ∧ kind ≠ .closeParen ∧ kind ≠ .semicolon := by
  refine ⟨?_, ?_, ?_⟩ <;> rintro rfl <;> cases plain

/-- The lexemes without those that only show the structure. -/
def withoutPunctuation (lexemes : List Lexeme) : List Lexeme :=
  lexemes.filter fun lexeme => !lexeme.kind.isPunctuation

theorem withoutPunctuation_append (lexemes others : List Lexeme) :
    withoutPunctuation (lexemes ++ others) =
      withoutPunctuation lexemes ++ withoutPunctuation others :=
  List.filter_append lexemes others

theorem withoutPunctuation_mark {c : Char} (mark : IsMark c) (rest : List Lexeme) :
    withoutPunctuation (.ofSymbol c :: rest) = withoutPunctuation rest := by
  have symbol : (Lexeme.ofSymbol c).kind.isPunctuation = true := by cases mark <;> rfl
  rw [withoutPunctuation, List.filter_cons_of_neg (by simp [symbol])]
  rfl

theorem withoutPunctuation_of_plain {lexemes : List Lexeme}
    (plain : ∀ lexeme ∈ lexemes, lexeme.kind.isPunctuation = false) :
    withoutPunctuation lexemes = lexemes :=
  List.filter_eq_self.mpr fun lexeme member => by simp [plain lexeme member]

theorem withoutPunctuation_cons {lexeme : Lexeme} (plain : lexeme.kind.isPunctuation = false)
    (rest : List Lexeme) :
    withoutPunctuation (lexeme :: rest) = lexeme :: withoutPunctuation rest := by
  rw [withoutPunctuation, List.filter_cons_of_pos (by simp [plain])]
  rfl

theorem Expression.Faithful.not_isPunctuation {e : Expression} (faithful : e.Faithful) :
    ∀ token ∈ e.tokens, token.kind.isPunctuation = false := by
  have plain (kind : Kind) (sort : kind.IsSign ∨ kind = .identifier ∨ kind = .integer ∨
      kind ∈ Handlers.standardJoining) : kind.isPunctuation = false := by
    revert sort
    cases kind <;> decide
  intro token member
  apply plain
  rcases faithful.kind_cases token member with sign | (name | ⟨integer, -⟩) | joins
  · exact .inl sign
  · exact .inr (.inl name)
  · exact .inr (.inr (.inl integer))
  · exact .inr (.inr (.inr joins))

theorem Expression.withoutPunctuation_lexemes {e : Expression}
    (plain : ∀ token ∈ e.tokens, token.kind.isPunctuation = false) :
    withoutPunctuation e.lexemes = e.tokens.map Token.lexeme := by
  induction e with
  | identifier name => exact withoutPunctuation_cons (plain name.token List.mem_cons_self) []
  | integer token value => exact withoutPunctuation_cons (plain token List.mem_cons_self) []
  | unary token operator operand ih =>
    obtain ⟨own, inner⟩ := List.forall_mem_cons.mp plain
    rw [lexemes, withoutPunctuation_mark .openParen, withoutPunctuation_cons own,
      withoutPunctuation_append, ih inner, withoutPunctuation_mark .closeParen]
    simp [withoutPunctuation, tokens]
  | binary token left operator right leftIh rightIh =>
    obtain ⟨inLeft, behind⟩ := List.forall_mem_append.mp plain
    obtain ⟨own, inRight⟩ := List.forall_mem_cons.mp behind
    rw [lexemes, withoutPunctuation_mark .openParen, withoutPunctuation_append, leftIh inLeft,
      withoutPunctuation_cons own, withoutPunctuation_append, rightIh inRight,
      withoutPunctuation_mark .closeParen]
    simp [withoutPunctuation, tokens]

/-! ### Statements -/

namespace Statement

/-- What stands before the value in the text of a statement. -/
def opening : Statement → String
  | binding token name _ => token.literal ++ " " ++ name.value ++ " = "
  | returning token _ => token.literal ++ " "
  | bare _ _ => ""

/-- What stands behind the value. -/
def closing : Statement → String
  | binding _ _ _ => ";"
  | returning _ _ => ";"
  | bare _ _ => ""

theorem text_eq (s : Statement) : s.text = s.opening ++ s.value.text ++ s.closing := by
  cases s with
  | binding token name value => rfl
  | returning token value => rfl
  | bare token e =>
    rw [opening, closing, String.empty_append, String.append_empty]
    rfl

def openingLexemes : Statement → List Lexeme
  | binding token name _ => [token.lexeme, name.token.lexeme, .ofSymbol '=']
  | returning token _ => [token.lexeme]
  | bare _ _ => []

def closingLexemes : Statement → List Lexeme
  | binding _ _ _ => [.ofSymbol ';']
  | returning _ _ => [.ofSymbol ';']
  | bare _ _ => []

/-- The lexemes of the statement's text. -/
def lexemes (s : Statement) : List Lexeme :=
  s.openingLexemes ++ (s.value.lexemes ++ s.closingLexemes)

variable {s : Statement} {own : List Token}

theorem SpelledBy.lexemesOf_opening (spelled : s.SpelledBy own)
    (formed : ∀ token ∈ own, token.lexeme.Formed) (rest : List Char) :
    lexemesOf (s.opening.toList ++ rest) = s.openingLexemes ++ lexemesOf rest := by
  cases spelled with
  | @binding keyword name sign value isLet isName isSign faithful =>
    obtain ⟨first, behind⟩ := List.forall_mem_cons.mp formed
    obtain ⟨second, -⟩ := List.forall_mem_cons.mp behind
    have third : (Lexeme.ofSymbol '=').Formed := .single (by decide) (by decide) (by decide)
    have split : (Statement.binding keyword ⟨name, name.literal⟩ value).opening.toList ++ rest =
        keyword.lexeme.text ++ ' ' :: (name.lexeme.text ++ ' ' ::
          ((Lexeme.ofSymbol '=').text ++ ' ' :: rest)) := by
      simp [Statement.opening, Token.lexeme, Lexeme.ofSymbol]
    rw [split, lexemesOf_lexeme_layout first (by decide),
      lexemesOf_lexeme_layout second (by decide), lexemesOf_lexeme_layout third (by decide)]
    rfl
  | @returning keyword value isReturn faithful =>
    obtain ⟨first, -⟩ := List.forall_mem_cons.mp formed
    have split : (Statement.returning keyword value).opening.toList ++ rest =
        keyword.lexeme.text ++ ' ' :: rest := by
      simp [Statement.opening, Token.lexeme]
    rw [split, lexemesOf_lexeme_layout first (by decide)]
    rfl
  | bare head faithful => rfl

theorem SpelledBy.map_lexeme (spelled : s.SpelledBy own)
    (formed : ∀ token ∈ own, token.lexeme.Formed) :
    own.map Token.lexeme = s.openingLexemes ++ s.value.tokens.map Token.lexeme := by
  cases spelled with
  | @binding keyword name sign value isLet isName isSign faithful =>
    have third : sign.lexeme.Formed := formed sign (by simp)
    have same : sign.lexeme = .ofSymbol '=' :=
      third.eq_of_text_eq (.single (by decide) (by decide) (by decide))
        ((third.kind_eq_symbol_iff (c := '=') (by decide)).mp isSign)
    rw [List.map_cons, List.map_cons, List.map_cons, same]
    rfl
  | returning isReturn faithful => rfl
  | bare head faithful => rfl

theorem SpelledBy.mem_of_mem_value (spelled : s.SpelledBy own) {token : Token}
    (member : token ∈ s.value.tokens) : token ∈ own := by
  obtain ⟨opening, split, -⟩ := spelled.exists_opens
  rw [split]
  exact List.mem_append_right opening member

theorem SpelledBy.lexemesOf_text (spelled : s.SpelledBy own)
    (formed : ∀ token ∈ own, token.lexeme.Formed) : lexemesOf s.text.toList = s.lexemes := by
  obtain ⟨-, -, faithful, -⟩ := spelled.exists_opens
  have value := Expression.lexemesOf_text faithful fun token member =>
    formed token (spelled.mem_of_mem_value member)
  have behind : lexemesOf (s.value.text.toList ++ s.closing.toList) =
      s.value.lexemes ++ s.closingLexemes := by
    have semicolon : ";".toList = [';'] := rfl
    rw [← value]
    cases s with
    | binding => rw [closing, semicolon, lexemesOf_append_mark .semicolon, closingLexemes]
    | returning => rw [closing, semicolon, lexemesOf_append_mark .semicolon, closingLexemes]
    | bare => simp [closing, closingLexemes]
  rw [text_eq, String.toList_append, String.toList_append, List.append_assoc,
    spelled.lexemesOf_opening formed, behind, lexemes]

/-- A statement has no punctuation but its semicolon. -/
theorem SpelledBy.not_isPunctuation (spelled : s.SpelledBy own) :
    ∀ token ∈ own, token.kind.isPunctuation = false := by
  cases spelled with
  | binding isLet isName isSign faithful =>
    simpa [isLet, isName, isSign, Kind.isPunctuation] using faithful.not_isPunctuation
  | returning isReturn faithful =>
    simpa [isReturn, Kind.isPunctuation] using faithful.not_isPunctuation
  | bare head faithful => exact faithful.not_isPunctuation

theorem SpelledBy.not_semicolon (spelled : s.SpelledBy own) :
    ∀ token ∈ own, token.kind ≠ .semicolon := by
  intro token member
  exact (Kind.ne_of_not_isPunctuation (spelled.not_isPunctuation token member)).2.2

theorem SpelledBy.not_isPunctuation_opening (spelled : s.SpelledBy own)
    (formed : ∀ token ∈ own, token.lexeme.Formed) :
    ∀ lexeme ∈ s.openingLexemes, lexeme.kind.isPunctuation = false := by
  intro lexeme member
  have inside : lexeme ∈ own.map Token.lexeme := by
    rw [spelled.map_lexeme formed]
    exact List.mem_append_left _ member
  obtain ⟨token, inOwn, rfl⟩ := List.mem_map.mp inside
  exact spelled.not_isPunctuation token inOwn

/-- Without the punctuation, a statement's text has the tokens that the statement was read from,
but for its semicolon. -/
theorem SpelledBy.withoutPunctuation_lexemes (spelled : s.SpelledBy own)
    (formed : ∀ token ∈ own, token.lexeme.Formed) :
    withoutPunctuation s.lexemes = own.map Token.lexeme := by
  obtain ⟨opening, split, faithful, -⟩ := spelled.exists_opens
  have ended : withoutPunctuation s.closingLexemes = [] := by cases s <;> rfl
  have opened : withoutPunctuation s.openingLexemes = s.openingLexemes :=
    withoutPunctuation_of_plain (spelled.not_isPunctuation_opening formed)
  rw [spelled.map_lexeme formed, lexemes, withoutPunctuation_append, withoutPunctuation_append,
    opened, ended, List.append_nil,
    Expression.withoutPunctuation_lexemes faithful.not_isPunctuation]

end Statement

end Frontend
