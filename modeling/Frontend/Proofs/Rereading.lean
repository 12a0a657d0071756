import Frontend.Proofs.Containment
import Frontend.Proofs.UnambiguousText

/-!
# Reading a text again

The text of a program of bindings and returns can be read again, statement by statement
(`parse_text_again`). A value that is no operation is written as in the source, so the statement
comes out as it was. A value that is an operation is written with parentheses, which the language
does not have: the statement is broken at the first of them, and it is skipped up to its own
semicolon, since nothing inside it ends a statement.
-/
namespace Frontend

/-! ### Trees over tokens of the same lexemes -/

/-- Tokens of the same lexemes make up the same tree. -/
theorem Expression.exists_of_lexemes {e : Expression} (faithful : e.Faithful)
    (grouped : e.Grouped) {tokens : List Token}
    (same : tokens.map Token.lexeme = e.tokens.map Token.lexeme) :
    ∃ f : Expression, f.tokens = tokens ∧ f.Faithful ∧ f.Grouped ∧ f.power? = e.power? := by
  induction e generalizing tokens with
  | identifier name =>
    obtain ⟨token, rfl, lexeme⟩ := List.map_eq_singleton_iff.mp same
    have kind : token.kind = name.token.kind := congrArg Lexeme.kind lexeme
    exact ⟨identifier ⟨token, token.literal⟩, rfl, ⟨kind.trans faithful.1, rfl⟩, trivial, rfl⟩
  | integer own value =>
    obtain ⟨token, rfl, lexeme⟩ := List.map_eq_singleton_iff.mp same
    have kind : token.kind = own.kind := congrArg Lexeme.kind lexeme
    have literal : token.literal = own.literal := String.toList_inj.mp (congrArg Lexeme.text lexeme)
    exact ⟨integer token value, rfl, ⟨kind.trans faithful.1, literal ▸ faithful.2⟩, trivial, rfl⟩
  | unary own operator operand ih =>
    obtain ⟨sign, -, inner⟩ := faithful
    obtain ⟨outer, innerGrouped⟩ := grouped
    obtain ⟨token, rest, rfl, lexeme, others⟩ := List.map_eq_cons_iff.mp same
    have kind : token.kind = own.kind := congrArg Lexeme.kind lexeme
    obtain ⟨f, rfl, fits, fGrouped, power⟩ := ih inner innerGrouped others
    exact ⟨unary token token.literal f, rfl, ⟨kind ▸ sign, rfl, fits⟩,
      ⟨power.trans outer, fGrouped⟩, rfl⟩
  | binary own left operator right leftIh rightIh =>
    obtain ⟨joins, -, leftInner, rightInner⟩ := faithful
    obtain ⟨looser, tighter, leftGrouped, rightGrouped⟩ := grouped
    rw [Expression.tokens, List.map_append] at same
    obtain ⟨front, back, rfl, first, second⟩ := List.map_eq_append_iff.mp same
    obtain ⟨token, rest, rfl, lexeme, others⟩ := List.map_eq_cons_iff.mp second
    have kind : token.kind = own.kind := congrArg Lexeme.kind lexeme
    obtain ⟨l, rfl, lFits, lGrouped, lPower⟩ := leftIh leftInner leftGrouped first
    obtain ⟨r, rfl, rFits, rGrouped, rPower⟩ := rightIh rightInner rightGrouped others
    refine ⟨binary token l token.literal r, rfl, ⟨kind ▸ joins, rfl, lFits, rFits⟩,
      ⟨?_, ?_, lGrouped, rGrouped⟩, by rw [power?, power?, kind]⟩
    · rwa [lPower, kind]
    · rwa [rPower, kind]

theorem Statement.ReadFrom.exists_of_lexemes {s : Statement} {own tokens : List Token}
    (read : s.ReadFrom own) (formed : ∀ token ∈ tokens, token.lexeme.Formed)
    (same : tokens.map Token.lexeme = own.map Token.lexeme) :
    ∃ t : Statement, t.ReadFrom tokens ∧ t.unplaced = s.unplaced := by
  obtain ⟨t, spelled, grouped⟩ : ∃ t : Statement, t.SpelledBy tokens ∧ t.value.Grouped := by
    cases read.spelled with
    | binding isLet isName isSign faithful =>
      obtain ⟨keyword, _, rfl, first, rest⟩ := List.map_eq_cons_iff.mp same
      obtain ⟨name, _, rfl, second, rest⟩ := List.map_eq_cons_iff.mp rest
      obtain ⟨sign, _, rfl, third, rest⟩ := List.map_eq_cons_iff.mp rest
      obtain ⟨f, rfl, fits, grouped, -⟩ :=
        Expression.exists_of_lexemes faithful read.grouped rest
      exact ⟨_, .binding ((congrArg Lexeme.kind first).trans isLet)
        ((congrArg Lexeme.kind second).trans isName)
        ((congrArg Lexeme.kind third).trans isSign) fits, grouped⟩
    | returning isReturn faithful =>
      obtain ⟨keyword, _, rfl, first, rest⟩ := List.map_eq_cons_iff.mp same
      obtain ⟨f, rfl, fits, grouped, -⟩ :=
        Expression.exists_of_lexemes faithful read.grouped rest
      exact ⟨_, .returning ((congrArg Lexeme.kind first).trans isReturn) fits, grouped⟩
    | bare head faithful =>
      obtain ⟨f, rfl, fits, grouped, -⟩ :=
        Expression.exists_of_lexemes faithful read.grouped same
      obtain ⟨first, rest, split, -⟩ := fits.exists_tokens_eq_cons
      exact ⟨_, .bare (by rw [split, List.head?_cons]) fits, grouped⟩
  have again : t.ReadFrom tokens := ⟨spelled, grouped, formed⟩
  exact ⟨t, again, again.unplaced_eq read same⟩

/-! ### The tokens of a value's text -/

theorem Expression.lexemes_of_operations_eq_zero {e : Expression} (plain : e.operations = 0) :
    e.lexemes = e.tokens.map Token.lexeme := by
  cases e with
  | identifier name => rfl
  | integer token value => rfl
  | unary token operator operand => exact absurd plain (Nat.succ_ne_zero _)
  | binary token left operator right => exact absurd plain (Nat.succ_ne_zero _)

/-- The text of an operation begins with a parenthesis. -/
theorem Expression.exists_scan_text_eq_cons {e : Expression} (operation : e.operations ≠ 0)
    (offset : Nat) :
    ∃ paren later, scan offset e.text.toList = paren :: later ∧ paren.kind = .openParen ∧
      paren.position = .ofOffset offset := by
  obtain ⟨rest, begins⟩ : ∃ rest, e.text.toList = '(' :: rest := by
    cases e with
    | identifier name => exact absurd rfl operation
    | integer token value => exact absurd rfl operation
    | unary token operator operand => exact ⟨_, toList_text_unary⟩
    | binary token left operator right => exact ⟨_, toList_text_binary⟩
  rw [begins, scan_mark .openParen]
  exact ⟨_, _, rfl, rfl, rfl⟩

namespace Expression.Sound

variable {e : Expression}

theorem map_lexeme_scan_text (sound : e.Sound) (offset : Nat) :
    (scan offset e.text.toList).map Token.lexeme = e.lexemes := by
  rw [map_lexeme_scan_eq_lexemesOf, lexemesOf_text sound.faithful sound.formed]

/-- Nothing inside the text of a value ends a statement. -/
theorem not_isBoundary_of_mem_scan (sound : e.Sound) (offset : Nat) :
    ∀ token ∈ scan offset e.text.toList, ¬ token.kind.IsBoundary := by
  intro token member
  have inside : token.lexeme ∈ e.lexemes := by
    rw [← sound.map_lexeme_scan_text offset]
    exact List.mem_map_of_mem member
  rcases eq_of_mem_lexemes inside with opening | closing | own
  · rw [show token.kind = _ from congrArg Lexeme.kind opening]
    decide
  · rw [show token.kind = _ from congrArg Lexeme.kind closing]
    decide
  · obtain ⟨other, inTokens, same⟩ := List.mem_map.mp own
    rw [← show other.kind = token.kind from congrArg Lexeme.kind same]
    rcases sound.faithful.kind_cases other inTokens with sign | atom | joins
    · exact sign.not_isBoundary
    · exact atom.not_isBoundary
    · exact not_isBoundary_of_mem_standardJoining joins

end Expression.Sound

/-! ### The text of one statement -/

/-- Whether the statement is an expression by itself. -/
def Statement.isBare : Statement → Bool
  | binding _ _ _ => false
  | returning _ _ => false
  | bare _ _ => true

/-- Whether the value of the statement is no operation. -/
def Statement.isPlain (s : Statement) : Bool := s.value.operations == 0

theorem scan_append_of_layout {c : Char} (layout : isLayout c = true) (offset : Nat)
    (text more : List Char) :
    scan offset (text ++ [c] ++ more) =
      scan offset (text ++ [c]) ++ scan (offset + Text.byteLength (text ++ [c])) more := by
  have alone := scan_append_layout layout offset text []
  rw [scan_nil, List.append_nil] at alone
  rw [alone, List.append_assoc, List.singleton_append, scan_append_layout layout,
    Text.byteLength_append, Text.byteLength_cons, Text.byteLength_nil, Nat.add_zero,
    Nat.add_assoc]

/-- Nothing goes on with a semicolon, so a text may be cut behind one. -/
theorem scan_append_of_closed {offset : Nat} {text : List Char}
    (closed : Closed (scan offset text)) (more : List Char) :
    scan offset (text ++ more) =
      scan offset text ++ scan (offset + Text.byteLength text) more := by
  apply scan_append
  intro last isLast next _ goesOn
  have kind := closed last isLast
  rw [kind] at goesOn
  exact absurd (goesOn.eq_of_symbol (by decide) (by decide)).1 (by decide)

/-- A broken statement that lacks something ahead of tokens inside it takes them up to its
semicolon. -/
theorem Breaks.afterBroken_eq {tokens inside rest : List Token} {gap : Gap} {semicolon : Token}
    (breaks : Breaks tokens gap (inside ++ semicolon :: rest))
    (noBoundary : ∀ token ∈ inside, ¬ token.kind.IsBoundary)
    (isSemicolon : semicolon.kind = .semicolon) : afterBroken tokens = rest := by
  obtain ⟨before, split, noSemicolon, noKeyword⟩ := breaks.exists_before
  have ended : toBoundary (semicolon :: rest) = rest := by rw [toBoundary, if_pos isSemicolon]
  rw [split]
  cases before with
  | cons first before =>
    rw [List.tail_cons] at noKeyword
    rw [List.cons_append, afterBroken, if_neg (noSemicolon first List.mem_cons_self),
      toBoundary_of_inside _ noKeyword, toBoundary_of_inside _ noBoundary, ended]
  | nil =>
    cases inside with
    | nil => rw [List.nil_append, List.nil_append, afterBroken, if_pos isSemicolon]
    | cons first inside =>
      obtain ⟨inner, later⟩ := List.forall_mem_cons.mp noBoundary
      rw [List.nil_append, List.cons_append, afterBroken,
        if_neg (fun semicolon => inner (.inl semicolon)), toBoundary_of_inside _ later, ended]

namespace Statement

variable {s : Statement} {own : List Token}

theorem exists_opening_eq (noBare : s.isBare = false) :
    ∃ front, s.opening.toList = front ++ [' '] := by
  cases s with
  | binding token name e =>
    exact ⟨(token.literal ++ " " ++ name.value ++ " =").toList, by simp [opening]⟩
  | returning token e => exact ⟨token.literal.toList, by simp [opening]⟩
  | bare token e => cases noBare

theorem toList_text (noBare : s.isBare = false) :
    s.text.toList = s.opening.toList ++ (s.value.text.toList ++ [';']) := by
  cases s with
  | binding token name e => simp [text_eq, closing]
  | returning token e => simp [text_eq, closing]
  | bare token e => cases noBare

/-- The offset behind the opening of a statement that begins at the offset. -/
def valueOffset (offset : Nat) (s : Statement) : Nat := offset + s.opening.utf8ByteSize

theorem utf8ByteSize_opening_le (s : Statement) :
    s.opening.utf8ByteSize ≤ s.text.utf8ByteSize := by
  rw [text_eq, String.utf8ByteSize_append, String.utf8ByteSize_append]
  omega

theorem exists_scan_text (noBare : s.isBare = false) (offset : Nat) :
    ∃ semicolon : Token, semicolon.kind = .semicolon ∧
      scan offset s.text.toList =
        scan offset s.opening.toList ++
          (scan (s.valueOffset offset) s.value.text.toList ++ [semicolon]) := by
  obtain ⟨front, split⟩ := exists_opening_eq noBare
  have value := scan_append_semicolon (s.valueOffset offset) s.value.text.toList []
  rw [scan_nil] at value
  refine ⟨_, rfl, Eq.trans ?_ (congrArg (scan offset s.opening.toList ++ ·) value)⟩
  rw [toList_text noBare, valueOffset, ← byteLength_toList, split,
    scan_append_of_layout (by decide)]

theorem closed_scan_text (noBare : s.isBare = false) (offset : Nat) :
    Closed (scan offset s.text.toList) := by
  obtain ⟨semicolon, kind, scanned⟩ := exists_scan_text noBare offset
  rw [scanned, ← List.append_assoc]
  exact closed_concat _ kind

namespace ReadFrom

theorem map_lexeme_scan_opening (read : s.ReadFrom own) (offset : Nat) :
    (scan offset s.opening.toList).map Token.lexeme = s.openingLexemes := by
  have alone := read.spelled.lexemesOf_opening read.formed []
  rwa [List.append_nil, lexemesOf_nil, List.append_nil,
    ← map_lexeme_scan_eq_lexemesOf offset] at alone

theorem opens_scan_opening (read : s.ReadFrom own) (noBare : s.isBare = false) (offset : Nat)
    (following : List Token) : Opens (scan offset s.opening.toList) following := by
  have same := read.map_lexeme_scan_opening offset
  cases read.spelled with
  | binding isLet isName isSign =>
    obtain ⟨first, _, split, one, rest⟩ := List.map_eq_cons_iff.mp same
    obtain ⟨second, _, rfl, two, rest⟩ := List.map_eq_cons_iff.mp rest
    obtain ⟨third, rfl, three⟩ := List.map_eq_singleton_iff.mp rest
    rw [split]
    exact .binding ((congrArg Lexeme.kind one).trans isLet)
      ((congrArg Lexeme.kind two).trans isName) (congrArg Lexeme.kind three)
  | returning isReturn =>
    obtain ⟨first, split, one⟩ := List.map_eq_singleton_iff.mp same
    rw [split]
    exact .returning ((congrArg Lexeme.kind one).trans isReturn)
  | bare => cases noBare

/-- A statement whose value is no operation comes out of its text as it was. -/
theorem account_of_isPlain (read : s.ReadFrom own) (noBare : s.isBare = false)
    (plain : s.isPlain = true) (finish : Position) (offset : Nat) :
    ∃ t : Statement, t.unplaced = s.unplaced ∧
      Account finish (scan offset s.text.toList) [.ok t] := by
  obtain ⟨semicolon, kind, scanned⟩ := exists_scan_text noBare offset
  rw [← List.append_assoc] at scanned
  have same : (scan offset s.opening.toList ++
      scan (s.valueOffset offset) s.value.text.toList).map Token.lexeme =
        own.map Token.lexeme := by
    rw [List.map_append, read.map_lexeme_scan_opening, read.sound_value.map_lexeme_scan_text,
      Expression.lexemes_of_operations_eq_zero (beq_iff_eq.mp plain),
      read.spelled.map_lexeme read.formed]
  obtain ⟨t, again, kept⟩ := read.exists_of_lexemes (fun token member => by
    rcases List.mem_append.mp member with inOpening | inValue
    · exact formed_of_mem_scan inOpening
    · exact formed_of_mem_scan inValue) same
  rw [scanned]
  exact ⟨t, kept, .sound again.spelled again.grouped (.closed kind) .nil⟩

/-- A statement whose value is an operation is broken where its text has the first parenthesis, and
all of the text is skipped. -/
theorem account_of_not_isPlain (read : s.ReadFrom own) (noBare : s.isBare = false)
    (operation : s.isPlain = false) (finish : Position) {offset : Nat}
    (fits : s.valueOffset offset ≤ Position.limit) :
    Account finish (scan offset s.text.toList)
      [.error ⟨.missingOperand .openParen, ⟨s.valueOffset offset⟩⟩] := by
  obtain ⟨semicolon, kind, scanned⟩ := exists_scan_text noBare offset
  obtain ⟨paren, later, value, isParen, position⟩ :=
    Expression.exists_scan_text_eq_cons (beq_eq_false_iff_ne.mp operation) (s.valueOffset offset)
  have noBoundary := read.sound_value.not_isBoundary_of_mem_scan (s.valueOffset offset)
  rw [value] at scanned noBoundary
  have walk : chainEnd .default .operand (paren :: later ++ [semicolon]) =
      .error (paren :: later ++ [semicolon]) := by
    apply chainEnd_stuck
    intro token first
    obtain rfl := Option.some.inj first
    constructor
    · rw [isParen]
      decide
    · simp [Token.IsAtom, isParen]
  have breaks := Breaks.operand (read.opens_scan_opening noBare offset _) walk
  have blamed : Gap.operand.diagnostic paren =
      ⟨.missingOperand .openParen, ⟨s.valueOffset offset⟩⟩ := by
    simp [Gap.diagnostic, operandDiagnostic, missingOperand, isParen, position,
      Position.ofOffset_of_le fits]
  have skipped := breaks.afterBroken_eq noBoundary kind
  rw [scanned, ← blamed]
  refine .broken breaks ?_
  rw [skipped]
  exact .nil

end ReadFrom

end Statement

/-! ### The text of a program -/

/-- The diagnostics of the statements' text that begins at the offset: one for each value that is
an operation, where its first parenthesis stands. -/
def refusals (offset : Nat) : List Statement → List Diagnostic
  | [] => []
  | s :: rest =>
    (if s.isPlain then [] else [⟨.missingOperand .openParen, ⟨s.valueOffset offset⟩⟩]) ++
      refusals (offset + s.text.utf8ByteSize) rest

/-- The program's text read again. -/
def Program.reread (program : Program) : Program × List Diagnostic := parse program.text

theorem exists_account_text {statements : List Statement}
    (read : ∀ s ∈ statements, ∃ own, s.ReadFrom own)
    (noBare : ∀ s ∈ statements, s.isBare = false) {offset : Nat}
    (fits : offset + (String.join (statements.map Statement.text)).utf8ByteSize ≤ Position.limit)
    (finish : Position) :
    ∃ items, Account finish (scan offset (String.join (statements.map Statement.text)).toList)
        items ∧
      (Program.ofItems items).statements.map Statement.unplaced =
        (statements.filter Statement.isPlain).map Statement.unplaced ∧
      diagnosticsOfItems items = refusals offset statements := by
  -- statement by statement, each up to its own semicolon
  induction statements generalizing offset with
  | nil =>
    refine ⟨[], ?_, rfl, rfl⟩
    rw [List.map_nil, String.join_nil, String.toList_empty, scan_nil]
    exact .nil
  | cons s rest ih =>
    obtain ⟨⟨own, first⟩, others⟩ := List.forall_mem_cons.mp read
    obtain ⟨firstNoBare, othersNoBare⟩ := List.forall_mem_cons.mp noBare
    have closed := Statement.closed_scan_text firstNoBare offset
    rw [List.map_cons, String.join_cons, String.utf8ByteSize_append, ← Nat.add_assoc] at fits
    obtain ⟨items, account, kept, refused⟩ := ih others othersNoBare fits
    rw [List.map_cons, String.join_cons, String.toList_append, scan_append_of_closed closed,
      byteLength_toList]
    cases plain : s.isPlain with
    | true =>
      obtain ⟨t, same, sound⟩ := first.account_of_isPlain firstNoBare plain finish offset
      refine ⟨[.ok t] ++ items, sound.append closed account, ?_, ?_⟩
      · rw [statements_append, List.map_append, kept, List.filter_cons_of_pos plain,
          List.map_cons, ← same]
        rfl
      · rw [diagnosticsOfItems_append, refused, refusals, plain]
        rfl
    | false =>
      have within : s.valueOffset offset ≤ Position.limit := by
        have inside := s.utf8ByteSize_opening_le
        rw [Statement.valueOffset]
        omega
      have broken := first.account_of_not_isPlain firstNoBare plain finish within
      refine ⟨[.error _] ++ items, broken.append closed account, ?_, ?_⟩
      · rw [statements_append, List.map_append, kept, List.filter_cons_of_neg (by simp [plain])]
        rfl
      · rw [diagnosticsOfItems_append, refused, refusals, plain]
        rfl

/-! ### What positions make no difference to -/

@[simp] theorem Expression.operations_relocate (f : Position → Position) (e : Expression) :
    (e.relocate f).operations = e.operations := by
  induction e with
  | identifier name => rfl
  | integer token value => rfl
  | unary token operator operand ih => rw [relocate, operations, operations, ih]
  | binary token left operator right leftIh rightIh =>
    rw [relocate, operations, operations, leftIh, rightIh]

namespace Statement

variable {s t : Statement}

theorem isBare_eq_of_unplaced_eq (same : s.unplaced = t.unplaced) : s.isBare = t.isBare := by
  have moved (s : Statement) : s.unplaced.isBare = s.isBare := by cases s <;> rfl
  rw [← moved s, same, moved]

theorem isPlain_eq_of_unplaced_eq (same : s.unplaced = t.unplaced) : s.isPlain = t.isPlain := by
  have moved (s : Statement) : s.unplaced.isPlain = s.isPlain := by
    cases s <;> simp [isPlain, unplaced, relocate, value]
  rw [← moved s, same, moved]

end Statement

theorem Program.text_eq_of_map_unplaced_eq {program other : Program}
    (same : program.statements.map Statement.unplaced = other.statements.map Statement.unplaced) :
    program.text = other.text := by
  have texts := congrArg (List.map Statement.text) same
  simp only [List.map_map, Function.comp_def, Statement.unplaced, Statement.text_relocate] at texts
  exact congrArg String.join texts

theorem utf8ByteSize_join_filter_le (statements : List Statement) (p : Statement → Bool) :
    (String.join ((statements.filter p).map Statement.text)).utf8ByteSize ≤
      (String.join (statements.map Statement.text)).utf8ByteSize := by
  induction statements with
  | nil => exact Nat.le_refl _
  | cons s rest ih =>
    rw [List.map_cons, String.join_cons, String.utf8ByteSize_append, List.filter_cons]
    split
    · rw [List.map_cons, String.join_cons, String.utf8ByteSize_append]
      omega
    · omega

theorem refusals_eq_nil {statements : List Statement}
    (plain : ∀ s ∈ statements, s.isPlain = true) (offset : Nat) :
    refusals offset statements = [] := by
  induction statements generalizing offset with
  | nil => rfl
  | cons s rest ih =>
    obtain ⟨first, others⟩ := List.forall_mem_cons.mp plain
    rw [refusals, if_pos first, ih others, List.append_nil]

/-! ### Reading a program's text -/

/-- The program was read, its statements all end in semicolons, and its text is not too long. -/
structure Program.Rereadable (program : Program) : Prop where
  read : ∀ s ∈ program.statements, ∃ own, s.ReadFrom own
  noBare : ∀ s ∈ program.statements, s.isBare = false
  fits : program.text.utf8ByteSize ≤ Position.limit

namespace Program.Rereadable

variable {program : Program}

theorem statements_reread_and_diagnostics (readable : program.Rereadable) :
    program.reread.1.statements.map Statement.unplaced =
        (program.statements.filter Statement.isPlain).map Statement.unplaced ∧
      program.reread.2 = refusals 0 program.statements := by
  obtain ⟨items, account, kept, refused⟩ :=
    exists_account_text readable.read readable.noBare (by rw [Nat.zero_add]; exact readable.fits)
      (Window.ofSource program.text).finish
  obtain rfl := itemsOf_eq_of_account account readable.fits
  exact ⟨kept, refused⟩

theorem mem_reread (readable : program.Rereadable) {t : Statement}
    (member : t ∈ program.reread.1.statements) :
    ∃ s ∈ program.statements, s.isPlain = true ∧ s.unplaced = t.unplaced := by
  have moved := List.mem_map_of_mem (f := Statement.unplaced) member
  rw [readable.statements_reread_and_diagnostics.1] at moved
  obtain ⟨s, kept, same⟩ := List.mem_map.mp moved
  obtain ⟨inProgram, plain⟩ := List.mem_filter.mp kept
  exact ⟨s, inProgram, plain, same⟩

theorem isPlain_of_mem_reread (readable : program.Rereadable) :
    ∀ t ∈ program.reread.1.statements, t.isPlain = true := by
  intro t member
  obtain ⟨s, -, plain, same⟩ := readable.mem_reread member
  rw [← Statement.isPlain_eq_of_unplaced_eq same, plain]

/-- What is left can be read again in turn. -/
theorem rereadable_reread (readable : program.Rereadable) : program.reread.1.Rereadable where
  read _ member := exists_readFrom member
  noBare t member := by
    obtain ⟨s, inProgram, -, same⟩ := readable.mem_reread member
    rw [← Statement.isBare_eq_of_unplaced_eq same, readable.noBare s inProgram]
  fits := by
    have kept : program.reread.1.text =
        Program.text ⟨program.statements.filter Statement.isPlain⟩ :=
      text_eq_of_map_unplaced_eq readable.statements_reread_and_diagnostics.1
    rw [kept]
    exact Nat.le_trans (utf8ByteSize_join_filter_le _ _) readable.fits

end Program.Rereadable

/-- The text of bindings and returns is read as those of them whose values are no operations, and
each of the others has one diagnostic, for the parenthesis that its value begins with. The text of
what was read is then read and written as it is. -/
theorem parse_text_again (source : String)
    (noBare : ∀ s ∈ (parse source).1.statements, s.isBare = false)
    (fits : (parse source).1.text.utf8ByteSize ≤ Position.limit) :
    (parse source).1.reread.1.statements.map Statement.unplaced =
        ((parse source).1.statements.filter Statement.isPlain).map Statement.unplaced ∧
      (parse source).1.reread.2 = refusals 0 (parse source).1.statements ∧
      (parse source).1.reread.1.reread.2 = [] ∧
      (parse source).1.reread.1.reread.1.text = (parse source).1.reread.1.text := by
  have readable : (parse source).1.Rereadable := ⟨fun _ => exists_readFrom, noBare, fits⟩
  obtain ⟨kept, refused⟩ := readable.statements_reread_and_diagnostics
  obtain ⟨keptAgain, refusedAgain⟩ := readable.rereadable_reread.statements_reread_and_diagnostics
  have plain := readable.isPlain_of_mem_reread
  refine ⟨kept, refused, ?_, ?_⟩
  · rw [refusedAgain, refusals_eq_nil plain]
  · rw [List.filter_eq_self.mpr plain] at keptAgain
    exact Program.text_eq_of_map_unplaced_eq keptAgain

theorem parse_text_again_of_broken :
    (∀ s ∈ (parse "let x 6; return -x; let x = 007 return y * 2").1.statements,
        s.isBare = false) ∧
      (parse "let x 6; return -x; let x = 007 return y * 2").1.text.utf8ByteSize ≤
        Position.limit ∧
      (parse "let x 6; return -x; let x = 007 return y * 2").1.reread.1.statements.map
          Statement.unplaced =
        ((parse "let x 6; return -x; let x = 007 return y * 2").1.statements.filter
          Statement.isPlain).map Statement.unplaced ∧
      (parse "let x 6; return -x; let x = 007 return y * 2").1.reread.2 =
        [⟨.missingOperand .openParen, ⟨7⟩⟩, ⟨.missingOperand .openParen, ⟨31⟩⟩] ∧
      (parse "let x 6; return -x; let x = 007 return y * 2").1.reread.1.reread.2 = [] ∧
      (parse "let x 6; return -x; let x = 007 return y * 2").1.reread.1.reread.1.text =
        (parse "let x 6; return -x; let x = 007 return y * 2").1.reread.1.text := by
  have noBare : ∀ s ∈ (parse "let x 6; return -x; let x = 007 return y * 2").1.statements,
      s.isBare = false := by decide +kernel
  have fits : (parse "let x 6; return -x; let x = 007 return y * 2").1.text.utf8ByteSize ≤
      Position.limit := by decide +kernel
  obtain ⟨kept, refused, clean, same⟩ := parse_text_again _ noBare fits
  exact ⟨noBare, fits, kept, refused.trans (by decide +kernel), clean, same⟩

end Frontend
