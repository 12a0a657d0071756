import Frontend.Proofs.ReadSegments
import Frontend.Proofs.Rereading

/-!
# The tokens of a statement's text

The text of a statement has the tokens that the statement was read from, in their order, and none
but punctuation besides: a pair of parentheses for each operation, and the semicolon of a binding
or a return (`text_keeps_tokens`).
-/
namespace Frontend

@[simp] theorem Token.kind_lexeme (token : Token) : token.lexeme.kind = token.kind := rfl

@[simp] theorem Lexeme.kind_ofSymbol_openParen : (Lexeme.ofSymbol '(').kind = .openParen := rfl

@[simp] theorem Lexeme.kind_ofSymbol_closeParen : (Lexeme.ofSymbol ')').kind = .closeParen := rfl

/-! ### Counting the parentheses -/

theorem count_parenthesized {paren : Kind} (isParen : paren = .openParen ∨ paren = .closeParen)
    (inside : List Kind) :
    (Kind.openParen :: (inside ++ [.closeParen])).count paren = inside.count paren + 1 := by
  rcases isParen with rfl | rfl <;> simp [List.count_append]

section

variable {paren : Kind} (isParen : paren = .openParen ∨ paren = .closeParen)

include isParen

theorem Kind.ne_paren {kind : Kind} (plain : kind.isPunctuation = false) : kind ≠ paren := by
  obtain ⟨noOpen, noClose, -⟩ := ne_of_not_isPunctuation plain
  rcases isParen with rfl | rfl
  · exact noOpen
  · exact noClose

theorem count_paren_eq_zero {lexemes : List Lexeme}
    (plain : ∀ lexeme ∈ lexemes, lexeme.kind.isPunctuation = false) :
    (lexemes.map Lexeme.kind).count paren = 0 := by
  apply List.count_eq_zero_of_not_mem
  intro member
  obtain ⟨lexeme, inside, kind⟩ := List.mem_map.mp member
  exact Kind.ne_paren isParen (plain lexeme inside) kind

/-- An expression is written with one pair of parentheses for each of its operations. -/
theorem Expression.count_lexemes {e : Expression}
    (plain : ∀ token ∈ e.tokens, token.kind.isPunctuation = false) :
    (e.lexemes.map Lexeme.kind).count paren = e.operations := by
  induction e with
  | identifier name => exact count_paren_eq_zero isParen (by simpa [lexemes, tokens] using plain)
  | integer token value => exact count_paren_eq_zero isParen (by simpa [lexemes, tokens] using plain)
  | unary token operator operand ih =>
    obtain ⟨own, inner⟩ := List.forall_mem_cons.mp plain
    have kinds : (unary token operator operand).lexemes.map Lexeme.kind =
        .openParen :: ((token.kind :: operand.lexemes.map Lexeme.kind) ++ [.closeParen]) := by
      simp [lexemes]
    rw [kinds, count_parenthesized isParen, List.count_cons_of_ne (Kind.ne_paren isParen own),
      ih inner, operations]
  | binary token left operator right leftIh rightIh =>
    obtain ⟨inLeft, behind⟩ := List.forall_mem_append.mp plain
    obtain ⟨own, inRight⟩ := List.forall_mem_cons.mp behind
    have kinds : (binary token left operator right).lexemes.map Lexeme.kind =
        .openParen :: ((left.lexemes.map Lexeme.kind ++ token.kind ::
          right.lexemes.map Lexeme.kind) ++ [.closeParen]) := by
      simp [lexemes]
    rw [kinds, count_parenthesized isParen, List.count_append,
      List.count_cons_of_ne (Kind.ne_paren isParen own), leftIh inLeft, rightIh inRight, operations]

theorem Statement.ReadFrom.count_lexemes {s : Statement} {own : List Token}
    (read : s.ReadFrom own) : (s.lexemes.map Lexeme.kind).count paren = s.value.operations := by
  have opened : (s.openingLexemes.map Lexeme.kind).count paren = 0 :=
    count_paren_eq_zero isParen (read.spelled.not_isPunctuation_opening read.formed)
  have ended : (s.closingLexemes.map Lexeme.kind).count paren = 0 := by
    cases s <;> rcases isParen with rfl | rfl <;> rfl
  have value := Expression.count_lexemes isParen read.sound_value.faithful.not_isPunctuation
  rw [lexemes, List.map_append, List.map_append, List.count_append, List.count_append, opened,
    value, ended]
  omega

end

/-! ### The text of a statement -/

/-- The text of the statement has the tokens, and none but punctuation besides. -/
structure Statement.TextKeeps (s : Statement) (own : List Token) : Prop where
  kept : ((tokenize s.text).filter fun token =>
    !token.isEnd && !token.kind.isPunctuation).map Token.lexeme = own.map Token.lexeme
  opened : ((tokenize s.text).map Token.kind).count .openParen = s.value.operations
  closed : ((tokenize s.text).map Token.kind).count .closeParen = s.value.operations
  /-- A binding or a return ends with the one semicolon that it has. -/
  ended : s.isBare = false → ∃ front semicolon, (tokenize s.text).dropLast = front ++ [semicolon] ∧
    semicolon.kind = .semicolon ∧ ∀ token ∈ front, token.kind ≠ .semicolon
  bare : s.isBare = true → ∀ token ∈ tokenize s.text, token.kind ≠ .semicolon

namespace Statement.ReadFrom

variable {s : Statement} {own : List Token}

theorem map_lexeme_tokenize_text (read : s.ReadFrom own) :
    (tokenize s.text).map Token.lexeme = s.lexemes ++ [⟨.endOfInput, []⟩] := by
  rw [lexemes_tokenize, read.spelled.lexemesOf_text read.formed]

theorem count_tokenize_text (read : s.ReadFrom own) {paren : Kind}
    (isParen : paren = .openParen ∨ paren = .closeParen) :
    ((tokenize s.text).map Token.kind).count paren = s.value.operations := by
  have kinds : (tokenize s.text).map Token.kind = s.lexemes.map Lexeme.kind ++ [.endOfInput] := by
    have same := congrArg (List.map Lexeme.kind) read.map_lexeme_tokenize_text
    simpa [Function.comp_def] using same
  have noEnd : Kind.endOfInput ≠ paren := by rcases isParen with rfl | rfl <;> decide
  rw [kinds, List.count_append, read.count_lexemes isParen, List.count_cons_of_ne noEnd,
    List.count_nil, Nat.add_zero]

/-- The semicolon of a statement is the only one in its text. -/
theorem not_semicolon_of_mem (read : s.ReadFrom own) :
    ∀ lexeme ∈ s.openingLexemes ++ s.value.lexemes, lexeme.kind ≠ .semicolon := by
  have plain {kind : Kind} (plain : kind.isPunctuation = false) : kind ≠ .semicolon :=
    (Kind.ne_of_not_isPunctuation plain).2.2
  intro lexeme member
  rcases List.mem_append.mp member with inOpening | inValue
  · exact plain (read.spelled.not_isPunctuation_opening read.formed lexeme inOpening)
  · rcases Expression.eq_of_mem_lexemes inValue with rfl | rfl | own
    · decide
    · decide
    · obtain ⟨token, inTokens, rfl⟩ := List.mem_map.mp own
      exact plain (read.sound_value.faithful.not_isPunctuation token inTokens)

/-- The text of a statement that was read keeps the tokens. -/
theorem textKeeps (read : s.ReadFrom own) : s.TextKeeps own where
  kept := by
    have noEnd : ∀ lexeme ∈ own.map Token.lexeme,
        (!(lexeme.kind == .endOfInput)) = true := by
      intro lexeme member
      obtain ⟨token, inOwn, rfl⟩ := List.mem_map.mp member
      have other : token.kind ≠ .endOfInput := (read.formed token inOwn).kind_ne_endOfInput
      simp [other]
    calc ((tokenize s.text).filter fun token =>
            !token.isEnd && !token.kind.isPunctuation).map Token.lexeme
        = ((tokenize s.text).map Token.lexeme).filter fun lexeme =>
            !(lexeme.kind == .endOfInput) && !lexeme.kind.isPunctuation := by
          rw [List.filter_map]
          rfl
      _ = s.lexemes.filter fun lexeme =>
            !(lexeme.kind == .endOfInput) && !lexeme.kind.isPunctuation := by
          simp [read.map_lexeme_tokenize_text]
      _ = (withoutPunctuation s.lexemes).filter fun lexeme => !(lexeme.kind == .endOfInput) := by
          rw [withoutPunctuation, List.filter_filter]
      _ = own.map Token.lexeme := by
          rw [read.spelled.withoutPunctuation_lexemes read.formed]
          exact List.filter_eq_self.mpr noEnd
  opened := read.count_tokenize_text (.inl rfl)
  closed := read.count_tokenize_text (.inr rfl)
  ended noBare := by
    have closing : s.closingLexemes = [.ofSymbol ';'] := by
      cases s with
      | binding token name value => rfl
      | returning token value => rfl
      | bare token value => cases noBare
    have same : (tokenize s.text).dropLast.map Token.lexeme =
        (s.openingLexemes ++ s.value.lexemes) ++ [.ofSymbol ';'] := by
      rw [List.map_dropLast, read.map_lexeme_tokenize_text, List.dropLast_concat, lexemes, closing,
        List.append_assoc]
    obtain ⟨front, back, split, inside, last⟩ := List.map_eq_append_iff.mp same
    obtain ⟨semicolon, rfl, lexeme⟩ := List.map_eq_singleton_iff.mp last
    refine ⟨front, semicolon, split, congrArg Lexeme.kind lexeme, fun token member => ?_⟩
    exact read.not_semicolon_of_mem token.lexeme (inside ▸ List.mem_map_of_mem member)
  bare isBare token member := by
    have closing : s.closingLexemes = [] := by
      cases s with
      | binding token name value => cases isBare
      | returning token value => cases isBare
      | bare token value => rfl
    have inside := List.mem_map_of_mem (f := Token.lexeme) member
    rw [read.map_lexeme_tokenize_text, lexemes, closing, List.append_nil] at inside
    rcases List.mem_append.mp inside with inLexemes | atEnd
    · exact read.not_semicolon_of_mem token.lexeme inLexemes
    · rw [show token.kind = .endOfInput from congrArg Lexeme.kind (List.mem_singleton.mp atEnd)]
      decide

end Statement.ReadFrom

/-- The text of every statement of a program has the tokens that the statement was read from,
without its semicolon, in their order. Besides them it has a pair of parentheses for each operation
and, behind a binding or a return only, a semicolon. -/
theorem text_keeps_tokens (source : String) :
    (parse source).1.statements =
        (segmentsOf source).filterMap (fun segment => segment.item.statement?) ∧
      (segmentsOf source).flatMap Segment.tokens = (tokenize source).dropLast ∧
      ∀ segment ∈ segmentsOf source, ∀ s, segment.item = .ok s →
        ∃ own closing, segment.tokens = own ++ closing ∧
          (closing = [] ∨
            ∃ semicolon : Token, closing = [semicolon] ∧ semicolon.kind = .semicolon) ∧
          (∀ token ∈ own, token.kind ≠ .semicolon) ∧ s.TextKeeps own := by
  refine ⟨statements_eq_filterMap_segmentsOf source, flatMap_tokens_segmentsOf source,
    fun segment member s sound => ?_⟩
  obtain ⟨before, after, split⟩ := List.append_of_mem member
  have stands := Handlers.standsBefore_of_ok split sound
  have formed : ∀ token ∈ segment.tokens, token.lexeme.Formed := by
    intro token inSegment
    have inText : token ∈ (segmentsOf source).flatMap Segment.tokens :=
      List.mem_flatMap.mpr ⟨segment, member, inSegment⟩
    rw [flatMap_tokens_segmentsOf, ← ahead_ofSource] at inText
    exact formed_of_mem_scan inText
  cases stands with
  | @sound t own closing spelled grouped ends =>
    obtain rfl := Except.ok.inj sound
    have read : t.ReadFrom own :=
      ⟨spelled, grouped, fun token inOwn => formed token (List.mem_append_left closing inOwn)⟩
    exact ⟨own, closing, rfl, ends.closing_cases, spelled.not_semicolon, read.textKeeps⟩
  | broken => cases sound

theorem text_keeps_tokens_of_signs :
    ∃ segment ∈ segmentsOf "x + ; let y = !-a==b;", ∃ s, segment.item = .ok s ∧
      s.text = "let y = ((!(-a)) == b);" ∧
      ∃ own closing, segment.tokens = own ++ closing ∧
        (closing = [] ∨
          ∃ semicolon : Token, closing = [semicolon] ∧ semicolon.kind = .semicolon) ∧
        (∀ token ∈ own, token.kind ≠ .semicolon) ∧ s.TextKeeps own := by
  have texts : (segmentsOf "x + ; let y = !-a==b;").map
      (fun segment => segment.item.statement?.map Statement.text) =
        [none, some "let y = ((!(-a)) == b);"] := by
    decide +kernel
  have member : some "let y = ((!(-a)) == b);" ∈ (segmentsOf "x + ; let y = !-a==b;").map
      fun segment => segment.item.statement?.map Statement.text := by simp [texts]
  obtain ⟨segment, inside, shown⟩ := List.mem_map.mp member
  obtain ⟨s, sound, text⟩ := Option.map_eq_some_iff.mp shown
  have read : segment.item = .ok s := by
    cases item : segment.item with
    | ok t => rw [item] at sound; rw [Option.some.inj sound]
    | error d => rw [item] at sound; cases sound
  exact ⟨segment, inside, s, read, text, (text_keeps_tokens _).2.2 segment inside s read⟩

end Frontend
