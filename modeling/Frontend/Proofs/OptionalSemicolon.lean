import Frontend.Proofs.Interruption
import Frontend.Proofs.ReadSegments
import Frontend.Proofs.StatementSequence
import Frontend.Proofs.UnambiguousText
import Frontend.Proofs.ViablePrefix

/-!
# When a semicolon may be missing

In a text without diagnostics, a semicolon makes a difference exactly where a dash follows it
(`semicolon_redundant_iff`). Among the tokens that begin a statement, the dash alone is also an
operator between operands, so without the semicolon it goes on with the statement before it, and
two statements become one (`Statement.Sequence.exists_joined`). Everywhere else the statement ends
by itself, and there a semicolon may be put as well (`Statement.Sequence.insert_semicolon`).
-/
namespace Frontend

/-- What begins a statement neither ends one nor goes on with one, unless it is a dash. -/
theorem Statement.SpelledBy.exists_eq_cons {s : Statement} {own : List Token}
    (spelled : s.SpelledBy own) :
    ∃ first rest, own = first :: rest ∧ first.kind ≠ .semicolon ∧
      (first.kind ∈ Handlers.standardJoining → first.kind = .dash) := by
  have begins (kind : Kind) (sort : kind = .letKeyword ∨ kind = .returnKeyword ∨ kind.IsSign ∨
      kind = .identifier ∨ kind = .integer) :
      kind ≠ .semicolon ∧ (kind ∈ Handlers.standardJoining → kind = .dash) := by
    revert sort
    cases kind <;> decide
  cases spelled with
  | binding isLet isName isSign faithful => exact ⟨_, _, rfl, begins _ (.inl isLet)⟩
  | returning isReturn faithful => exact ⟨_, _, rfl, begins _ (.inr (.inl isReturn))⟩
  | bare head faithful =>
    obtain ⟨first, rest, split, sign | name | ⟨integer, -⟩⟩ := faithful.exists_tokens_eq_cons
    · exact ⟨first, rest, split, begins _ (.inr (.inr (.inl sign)))⟩
    · exact ⟨first, rest, split, begins _ (.inr (.inr (.inr (.inl name))))⟩
    · exact ⟨first, rest, split, begins _ (.inr (.inr (.inr (.inr integer))))⟩

/-- A statement that begins with a dash is an expression by itself, and the dash a sign in it. -/
theorem Statement.SpelledBy.exists_sign_of_dash {s : Statement} {own following : List Token}
    (spelled : s.SpelledBy own)
    (dash : (own ++ following).head?.map Token.kind = some .dash) :
    s.value.Faithful ∧ own = s.value.tokens ∧
      ∃ sign more, s.value.tokens = sign :: more ∧ sign.kind = .dash := by
  cases spelled with
  | binding isLet => simp [isLet] at dash
  | returning isReturn => simp [isReturn] at dash
  | bare head faithful =>
    obtain ⟨sign, more, split, -⟩ := faithful.exists_tokens_eq_cons
    rw [split] at dash
    exact ⟨faithful, rfl, sign, more, split, Option.some.inj dash⟩

/-- A token that is not in the first part of a list is in what follows that part. -/
theorem exists_of_append_eq_append_cons {own following before after : List Token} {token : Token}
    (same : own ++ following = before ++ token :: after) (outside : token ∉ own) :
    ∃ more, before = own ++ more ∧ following = more ++ token :: after := by
  rcases List.append_eq_append_iff.mp same with ⟨more, front, back⟩ | ⟨more, front, back⟩
  · exact ⟨more, front, back⟩
  · cases more with
    | nil => exact ⟨[], by simpa using front.symm, by simpa using back.symm⟩
    | cons first more =>
      obtain ⟨rfl, -⟩ := List.cons.inj back
      exact absurd (by simp [front]) outside

/-- Where a statement ends ahead of some tokens, it does so whatever comes behind these. -/
theorem Ends.change_behind {front behind rest : List Token} (some_left : front ≠ [])
    (ends : Ends (front ++ behind) rest) :
    ∃ left, rest = left ++ behind ∧ ∀ other, Ends (front ++ other) (left ++ other) := by
  obtain ⟨first, front, rfl⟩ := List.exists_cons_of_ne_nil some_left
  cases ends with
  | closed semicolon => exact ⟨front, rfl, fun other => .closed semicolon⟩
  | unclosed stops => exact ⟨first :: front, rfl, fun other => .unclosed stops⟩

namespace Statement.Sequence

variable {tokens before after : List Token} {semicolon : Token} {statements : List Statement}

/-- A statement may end by itself ahead of others, unless they begin with a dash. -/
theorem ends_self (sequence : Sequence tokens statements)
    (noDash : tokens.head?.map Token.kind ≠ some .dash) : Ends tokens tokens := by
  apply Ends.unclosed
  intro token isFirst
  cases sequence with
  | nil => cases isFirst
  | cons spelled grouped ends _ =>
    obtain ⟨first, rest, rfl, noSemicolon, joins⟩ := spelled.exists_eq_cons
    obtain rfl := Option.some.inj isFirst
    exact ⟨noSemicolon, fun member => noDash (congrArg some (joins member))⟩

/-- Ahead of a dash, a statement goes on with the next one, and the two become one. -/
theorem exists_joined {s : Statement} {own : List Token} (spelled : s.SpelledBy own)
    (dash : tokens.head?.map Token.kind = some .dash) (sequence : Sequence tokens statements) :
    ∃ joined, Sequence (own ++ tokens) joined ∧ joined.length = statements.length := by
  cases sequence with
  | nil => cases dash
  | @cons t others following rest statements second grouped ends sequence =>
    obtain ⟨faithful, expression, sign, more, split, isDash⟩ := second.exists_sign_of_dash dash
    have isSign : sign.kind.IsSign := .inr isDash
    have joins : sign.Continues .default := by
      rw [Token.Continues, isDash]
      decide
    -- as an operator it goes on with the first one, and the rest is walked over as before
    obtain ⟨opening, ownSplit, ownFaithful, opens⟩ := spelled.exists_opens
    have walk : chainEnd .default .operand (s.value.tokens ++ (others ++ following)) =
        .ok following := by
      rw [chainEnd_tokens ownFaithful, expression, split, List.cons_append,
        chainEnd_continue joins, ← chainEnd_sign isSign, ← List.cons_append, ← split,
        chainEnd_tokens faithful, ends.chainEnd_eq]
    have ahead : (Window.mk (own ++ (others ++ following)) .start).ahead =
        opening ++ (s.value.tokens ++ (others ++ following)) := by
      rw [ownSplit, List.append_assoc]
    obtain ⟨joined, taken, sound⟩ := Handlers.sound_of_opens (opens _) ahead walk
    have behind := sound.ends_resume
    rw [behind.unique ends] at behind
    have all := sound.ahead
    dsimp only at all
    rw [all]
    exact ⟨joined :: statements, .cons sound.spelled sound.grouped behind sequence, rfl⟩

/-- Without one of its semicolons, a sequence of statements is the same sequence, unless a dash
follows. Then it is one statement shorter. -/
theorem exists_erase_semicolon (isSemicolon : semicolon.kind = .semicolon)
    (sequence : Sequence (before ++ semicolon :: after) statements) :
    ∃ others, Sequence (before ++ after) others ∧
      (after.head?.map Token.kind ≠ some .dash → others = statements) ∧
      (after.head?.map Token.kind = some .dash → others.length + 1 = statements.length) := by
  generalize whole : before ++ semicolon :: after = tokens at sequence
  induction sequence generalizing before with
  | nil => simp at whole
  | @cons s own following rest statements spelled grouped ends sequence ih =>
    have outside : semicolon ∉ own := fun member => spelled.not_semicolon _ member isSemicolon
    obtain ⟨more, rfl, rfl⟩ := exists_of_append_eq_append_cons whole.symm outside
    cases more with
    | nil =>
      -- the semicolon is that of the first statement
      cases ends with
      | unclosed stops => exact absurd isSemicolon (stops semicolon rfl).1
      | closed =>
        rw [List.append_nil]
        by_cases dash : after.head?.map Token.kind = some .dash
        · obtain ⟨joined, shorter, length⟩ := exists_joined spelled dash sequence
          exact ⟨joined, shorter, absurd dash, fun _ => congrArg (· + 1) length⟩
        · exact ⟨s :: statements, .cons spelled grouped (sequence.ends_self dash) sequence,
            fun _ => rfl, fun other => absurd other dash⟩
    | cons next more =>
      obtain ⟨left, rfl, change⟩ := ends.change_behind (List.cons_ne_nil next more)
      obtain ⟨others, erased, same, shorter⟩ := ih rfl
      refine ⟨s :: others, ?_, fun noDash => congrArg (s :: ·) (same noDash),
        fun dash => congrArg (· + 1) (shorter dash)⟩
      rw [List.append_assoc]
      exact .cons spelled grouped (change after) erased

/-- With a semicolon behind a statement that has none, a sequence of statements is the same
sequence. -/
theorem insert_semicolon (isSemicolon : semicolon.kind = .semicolon) {w : Window}
    {earlier later : List Segment} {segment : Segment}
    (clean : diagnosticsOfItems (Handlers.standard.readItems w).1 = [])
    (split : Handlers.standard.readSegments w = earlier ++ segment :: later)
    (lacks : ∀ token ∈ segment.tokens, token.kind ≠ .semicolon) :
    Sequence ((earlier ++ [segment]).flatMap Segment.tokens ++
        semicolon :: later.flatMap Segment.tokens)
      (Program.ofItems (Handlers.standard.readItems w).1).statements := by
  induction earlier generalizing w with
  | nil =>
    obtain ⟨s, own, closing, v, rfl, spelled, grouped, ends, rfl, cleanBehind, statements⟩ :=
      Handlers.sound_of_readSegments_eq_cons clean split
    -- the statement has no semicolon of its own, so it ends with the new one
    obtain rfl : closing = [] := by
      rcases ends.closing_cases with none | ⟨other, rfl, kind⟩
      · exact none
      · exact absurd kind (lacks other (by simp))
    rw [statements, Handlers.flatMap_tokens_readSegments, List.nil_append, List.flatMap_singleton,
      List.append_nil]
    exact .cons spelled grouped (.closed isSemicolon) (of_readItems cleanBehind)
  | cons first earlier ih =>
    obtain ⟨s, own, closing, v, rfl, spelled, grouped, ends, behind, cleanBehind, statements⟩ :=
      Handlers.sound_of_readSegments_eq_cons clean split
    -- it ends ahead of the next one, whose first token is still there
    have some_tokens : (earlier ++ [segment]).flatMap Segment.tokens ≠ [] := by
      have member : segment ∈ Handlers.standard.readSegments v := by simp [behind]
      simp [Handlers.tokens_ne_nil_of_mem_readSegments member]
    have ahead : v.ahead = (earlier ++ [segment]).flatMap Segment.tokens ++
        later.flatMap Segment.tokens := by
      rw [← Handlers.flatMap_tokens_readSegments (h := .standard) v, behind]
      simp
    rw [ahead, ← List.append_assoc] at ends
    obtain ⟨left, same, change⟩ :=
      ends.change_behind (List.append_ne_nil_of_right_ne_nil closing some_tokens)
    obtain rfl := List.append_cancel_right same
    have stillEnds := change (semicolon :: later.flatMap Segment.tokens)
    rw [List.append_assoc] at stillEnds
    rw [statements, List.cons_append, List.flatMap_cons, List.append_assoc, List.append_assoc]
    exact .cons spelled grouped stillEnds (ih cleanBehind behind)

/-- Tokens of the same lexemes are a sequence of the same statements, but for their positions. -/
theorem exists_of_lexemes {others : List Token} (sequence : Sequence tokens statements)
    (same : tokens.map Token.lexeme = others.map Token.lexeme) :
    ∃ again, Sequence others again ∧
      again.map Statement.unplaced = statements.map Statement.unplaced := by
  have isProgram := exists_iff_mem_program.mp ⟨statements, sequence⟩
  obtain ⟨again, other⟩ :=
    exists_iff_mem_program.mpr (Grammar.ignoresPositions_program same isProgram)
  have moved := other.relocate fun _ => .start
  rw [← map_relocate_eq same] at moved
  exact ⟨again, other, moved.unique (sequence.relocate fun _ => .start)⟩

end Statement.Sequence

/-! ### The text -/

/-- The end of the text is no dash. -/
theorem kind_eq_dash_iff_of_tokenize_eq {source : String} {before after : List Token} {next : Token}
    (split : tokenize source = before ++ next :: after) :
    next.kind = .dash ↔ (next :: after).dropLast.head?.map Token.kind = some .dash := by
  cases after with
  | nil =>
    have last : next = (Window.ofSource source).final := by
      have same := congrArg List.getLast? (split.symm.trans (tokenize_eq source))
      simpa using same
    rw [last]
    exact iff_of_false Kind.noConfusion (by simp)
  | cons second after => simp

/-- A text may be cut behind any of its tokens. -/
theorem exists_text_split {source : String} {before after : List Token}
    (split : (Window.ofSource source).ahead = before ++ after) :
    ∃ a b : String, source = a ++ b ∧ (Window.ofSource a).ahead = before ∧
      scan a.utf8ByteSize b.toList = after ∧
      ∀ last ∈ before.getLast?, last.literal.toList <:+ a.toList := by
  obtain ⟨front, rest, text, scanned, behind, ends⟩ := exists_split_of_scan split
  refine ⟨.ofList front, .ofList rest, ?_, ?_, ?_, ?_⟩
  · rw [← String.toList_inj, text, String.toList_append, String.toList_ofList,
      String.toList_ofList]
  · rwa [Window.ofSource, Window.ofText, String.toList_ofList]
  · rw [Nat.zero_add] at behind
    rwa [← byteLength_toList, String.toList_ofList, String.toList_ofList]
  · rwa [String.toList_ofList]

/-- A semicolon token is a semicolon of the text. -/
theorem exists_text_of_semicolon {source : String} {before after : List Token} {semicolon : Token}
    (split : (Window.ofSource source).ahead = before ++ semicolon :: after)
    (isSemicolon : semicolon.kind = .semicolon) :
    ∃ a b : String, source = a ++ ";" ++ b ∧ (Window.ofSource a).ahead = before ∧
      semicolon.position = .ofOffset a.utf8ByteSize ∧
      scan (a.utf8ByteSize + 1) b.toList = after := by
  have member : semicolon ∈ (Window.ofSource source).ahead := by simp [split]
  have formed : semicolon.lexeme.Formed := formed_of_mem_scan member
  have literal : semicolon.literal.toList = [';'] :=
    (formed.kind_eq_symbol_iff (c := ';') (by decide)).mp isSemicolon
  rw [← List.singleton_append, ← List.append_assoc] at split
  obtain ⟨first, b, rfl, cut, behind, ends⟩ := exists_text_split split
  -- the first part ends with the semicolon
  obtain ⟨a, rfl⟩ : ∃ a : String, first = a ++ ";" := by
    obtain ⟨front, isFirst⟩ := ends semicolon (by simp)
    refine ⟨.ofList front, ?_⟩
    rw [← String.toList_inj, ← isFirst, literal, String.toList_append, String.toList_ofList]
    rfl
  rw [ahead_append_semicolon] at cut
  obtain ⟨same, last⟩ := List.append_inj' cut rfl
  refine ⟨a, b, rfl, same, ?_, ?_⟩
  · rw [← List.singleton_inj.mp last]
  · rwa [String.utf8ByteSize_append] at behind

/-- Without one of its semicolons, a text without diagnostics has none either. Its program is the
same, unless a dash follows. Then it is one statement shorter. -/
theorem parse_erase_semicolon {a b : String} (clean : (parse (a ++ ";" ++ b)).2 = []) :
    (parse (a ++ " " ++ b)).2 = [] ∧
      ((parse (a ++ " " ++ b)).1 = (parse (a ++ ";" ++ b)).1 ↔
        (scan (a.utf8ByteSize + 1) b.toList).head?.map Token.kind ≠ some .dash) ∧
      ((scan (a.utf8ByteSize + 1) b.toList).head?.map Token.kind = some .dash →
        (parse (a ++ " " ++ b)).1.statements.length + 1 =
          (parse (a ++ ";" ++ b)).1.statements.length) := by
  have before : parse (a ++ ";" ++ b) = (⟨(parse (a ++ ";" ++ b)).1.statements⟩, []) := by
    rw [← clean]
  have sequence := (parse_eq_iff_sequence _ _).mp before
  rw [ahead_append_semicolon_append, ahead_append_semicolon, List.append_assoc,
    List.singleton_append] at sequence
  obtain ⟨others, erased, same, shorter⟩ := sequence.exists_erase_semicolon rfl
  rw [← ahead_append_space_append] at erased
  have after := (parse_eq_iff_sequence _ _).mpr erased
  rw [after]
  refine ⟨rfl, ⟨fun unchanged dash => ?_, fun noDash => ?_⟩, shorter⟩
  · -- a shorter program is another one
    have length := shorter dash
    rw [← unchanged] at length
    exact Nat.succ_ne_self _ length
  · rw [same noDash]

/-- With a semicolon directly behind a statement that has none, a text without diagnostics has the
same program but for its positions. -/
theorem exists_insert_semicolon {source : String} (clean : (parse source).2 = [])
    {earlier later : List Segment} {segment : Segment}
    (split : segmentsOf source = earlier ++ segment :: later)
    (lacks : ∀ token ∈ segment.tokens, token.kind ≠ .semicolon) :
    ∃ a b : String, source = a ++ b ∧
      (tokenize a).dropLast = (earlier ++ [segment]).flatMap Segment.tokens ∧
      (∃ last ∈ segment.tokens.getLast?, last.literal.toList <:+ a.toList) ∧
      (parse (a ++ ";" ++ b)).2 = [] ∧
      (parse (a ++ ";" ++ b)).1.statements.map Statement.unplaced =
        (parse source).1.statements.map Statement.unplaced := by
  have ahead : (Window.ofSource source).ahead =
      (earlier ++ [segment]).flatMap Segment.tokens ++ later.flatMap Segment.tokens := by
    rw [ahead_ofSource, ← flatMap_tokens_segmentsOf, split]
    simp
  obtain ⟨last, isLast⟩ : ∃ last, segment.tokens.getLast? = some last := by
    have member : segment ∈ segmentsOf source := by simp [split]
    have some_left := Handlers.tokens_ne_nil_of_mem_readSegments member
    exact ⟨_, List.getLast?_eq_some_getLast some_left⟩
  obtain ⟨a, b, text, cut, behind, ends⟩ := exists_text_split ahead
  have suffix : last.literal.toList <:+ a.toList := by
    apply ends
    simp [isLast]
  -- the new text has the same lexemes, and a semicolon among them
  let semicolon : Token := ⟨.semicolon, ";", .ofOffset a.utf8ByteSize⟩
  have same : ((earlier ++ [segment]).flatMap Segment.tokens ++
      semicolon :: later.flatMap Segment.tokens).map Token.lexeme =
        (Window.ofSource (a ++ ";" ++ b)).ahead.map Token.lexeme := by
    rw [ahead_append_semicolon_append, ahead_append_semicolon, cut, ← behind, List.append_assoc,
      List.map_append, List.map_append, List.singleton_append, List.map_cons, List.map_cons,
      map_lexeme_scan a.utf8ByteSize (a.utf8ByteSize + 1)]
  have sequence : Statement.Sequence _ (parse source).1.statements :=
    Statement.Sequence.insert_semicolon (rfl : semicolon.kind = .semicolon) clean split lacks
  obtain ⟨again, inserted, unchanged⟩ := sequence.exists_of_lexemes same
  have after := (parse_eq_iff_sequence _ _).mpr inserted
  refine ⟨a, b, text, ?_, ⟨last, isLast, suffix⟩, ?_, ?_⟩
  · rwa [← ahead_ofSource]
  · rw [after]
  · rw [after]
    exact unchanged

/-- In a text without diagnostics, a space may stand for any semicolon: there are no diagnostics
then either, and the program is the same, with its positions, exactly if the next token is no dash.
If it is a dash, the program is one statement shorter. Conversely, a semicolon may be put directly
behind any statement that has none; the program is then the same but for its positions. -/
theorem semicolon_redundant_iff {source : String} (clean : (parse source).2 = []) :
    (∀ before semicolon next after,
      tokenize source = before ++ semicolon :: next :: after → semicolon.kind = .semicolon →
      ∃ a b : String, source = a ++ ";" ++ b ∧ (tokenize a).dropLast = before ∧
        semicolon.position = .ofOffset a.utf8ByteSize ∧
        (parse (a ++ " " ++ b)).2 = [] ∧
        ((parse (a ++ " " ++ b)).1 = (parse source).1 ↔ next.kind ≠ .dash) ∧
        (next.kind = .dash →
          (parse (a ++ " " ++ b)).1.statements.length + 1 =
            (parse source).1.statements.length)) ∧
    (segmentsOf source).map Segment.item = (parse source).1.statements.map Except.ok ∧
    (segmentsOf source).flatMap Segment.tokens = (tokenize source).dropLast ∧
    ∀ earlier segment later,
      segmentsOf source = earlier ++ segment :: later →
      (∀ token ∈ segment.tokens, token.kind ≠ .semicolon) →
      ∃ a b : String, source = a ++ b ∧
        (tokenize a).dropLast = (earlier ++ [segment]).flatMap Segment.tokens ∧
        (∃ last ∈ segment.tokens.getLast?, last.literal.toList <:+ a.toList) ∧
        (parse (a ++ ";" ++ b)).2 = [] ∧
        (parse (a ++ ";" ++ b)).1.statements.map Statement.unplaced =
          (parse source).1.statements.map Statement.unplaced := by
  refine ⟨fun before semicolon next after split isSemicolon => ?_, ?_,
    flatMap_tokens_segmentsOf source,
    fun earlier segment later split lacks => exists_insert_semicolon clean split lacks⟩
  · have ahead : (Window.ofSource source).ahead =
        before ++ semicolon :: (next :: after).dropLast := by
      rw [ahead_ofSource, split]
      simp
    rw [← List.singleton_append, ← List.append_assoc] at split
    have isDash := kind_eq_dash_iff_of_tokenize_eq split
    obtain ⟨a, b, rfl, cut, position, behind⟩ := exists_text_of_semicolon ahead isSemicolon
    rw [← behind] at isDash
    obtain ⟨still, same, shorter⟩ := parse_erase_semicolon clean
    rw [ahead_ofSource] at cut
    exact ⟨a, b, rfl, cut, position, still, same.trans (not_congr isDash.symm),
      fun dash => shorter (isDash.mp dash)⟩
  · rw [segmentsOf, Handlers.map_item_readSegments]
    have sequence := Statement.Sequence.of_readItems clean
    exact sequence.readItems_eq

theorem semicolon_redundant_iff_of_signs :
    (parse "a; -b c").2 = [] ∧
      (∃ a b : String, "a; -b c" = a ++ ";" ++ b ∧
        (tokenize a).dropLast = [⟨.identifier, "a", ⟨0⟩⟩] ∧
        (⟨1⟩ : Position) = .ofOffset a.utf8ByteSize ∧
        (parse (a ++ " " ++ b)).2 = [] ∧
        (parse (a ++ " " ++ b)).1 ≠ (parse "a; -b c").1 ∧
        (parse (a ++ " " ++ b)).1.statements.length + 1 =
          (parse "a; -b c").1.statements.length) ∧
      ∃ a b : String, "a; -b c" = a ++ b ∧
        (tokenize a).dropLast.map Token.literal = ["a", ";", "-", "b"] ∧
        (parse (a ++ ";" ++ b)).2 = [] ∧
        (parse (a ++ ";" ++ b)).1.statements.map Statement.unplaced =
          (parse "a; -b c").1.statements.map Statement.unplaced := by
  have clean : (parse "a; -b c").2 = [] := by decide +kernel
  obtain ⟨erase, -, -, insert⟩ := semicolon_redundant_iff clean
  have split : tokenize "a; -b c" = [⟨.identifier, "a", ⟨0⟩⟩] ++ ⟨.semicolon, ";", ⟨1⟩⟩ ::
      ⟨.dash, "-", ⟨3⟩⟩ :: [⟨.identifier, "b", ⟨4⟩⟩, ⟨.identifier, "c", ⟨6⟩⟩,
        .endOfInput ⟨7⟩] := by
    decide +kernel
  obtain ⟨a, b, text, cut, position, still, same, shorter⟩ := erase _ _ _ _ split rfl
  have three : (segmentsOf "a; -b c").length = 3 := by decide +kernel
  obtain ⟨first, second, third, segments⟩ := List.length_eq_three.mp three
  have literals : (segmentsOf "a; -b c").map (fun segment => segment.tokens.map Token.literal) =
      [["a", ";"], ["-", "b"], ["c"]] := by
    decide +kernel
  have kinds : (segmentsOf "a; -b c").map (fun segment => segment.tokens.map Token.kind) =
      [[.identifier, .semicolon], [.dash, .identifier], [.identifier]] := by
    decide +kernel
  rw [segments] at literals kinds
  simp only [List.map_cons, List.map_nil, List.cons.injEq, and_true] at literals kinds
  have lacks : ∀ token ∈ second.tokens, token.kind ≠ .semicolon := by
    intro token member semicolon
    have inside := List.mem_map_of_mem (f := Token.kind) member
    rw [semicolon, kinds.2.1] at inside
    revert inside
    decide
  obtain ⟨front, rest, whole, cutBehind, -, none, unchanged⟩ :=
    insert [first] second [third] segments lacks
  refine ⟨clean, ⟨a, b, text, cut, position, still, fun equal => same.mp equal rfl, shorter rfl⟩,
    front, rest, whole, ?_, none, unchanged⟩
  simp [cutBehind, literals]

end Frontend
