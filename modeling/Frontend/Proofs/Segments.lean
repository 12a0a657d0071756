import Frontend.Proofs.Recovery

/-!
# The segments of a text

The tokens of a text fall into segments, one for each statement, sound or broken
(`tokens_split_into_segments`). Where the segment of a broken statement ends is said by where it
begins.
-/
namespace Frontend

/-- A run of tokens, and what became of it. -/
structure Segment where
  tokens : List Token
  item : Item

/-- Nothing ends a broken statement that is made of the tokens. Its first token may be a keyword,
which begins it. -/
structure Unended (tokens : List Token) : Prop where
  noSemicolon : ∀ token ∈ tokens, token.kind ≠ .semicolon
  noKeyword : ∀ token ∈ tokens.tail, token.kind ≠ .letKeyword ∧ token.kind ≠ .returnKeyword

/-- A broken statement takes the tokens and leaves `rest`: it ends with the first semicolon, or
ahead of a keyword, or with the text. -/
inductive SkipsTo (rest : List Token) : List Token → Prop
  | semicolon {body : List Token} {token : Token} :
      Unended body → token.kind = .semicolon → SkipsTo rest (body ++ [token])
  | keyword {tokens : List Token} :
      Unended tokens →
      (∀ token ∈ rest.head?, token.kind = .letKeyword ∨ token.kind = .returnKeyword) →
      SkipsTo rest tokens

/-- The segment, with `rest` behind it, is that of a statement, or of a broken one with the
diagnostic for it. -/
inductive Segment.StandsBefore (final : Token) (rest : List Token) : Segment → Prop
  | sound {s : Statement} {own closing : List Token} :
      s.SpelledBy own → s.value.Grouped → Ends (closing ++ rest) rest →
      StandsBefore final rest ⟨own ++ closing, .ok s⟩
  | broken {tokens found : List Token} {gap : Gap} :
      Breaks (tokens ++ rest) gap found → SkipsTo rest tokens →
      StandsBefore final rest ⟨tokens, .error (gap.diagnostic (found.headD final))⟩

theorem Unended.nil : Unended [] := ⟨by simp, by simp⟩

theorem Unended.cons {first : Token} {inside : List Token} (noSemicolon : first.kind ≠ .semicolon)
    (noBoundary : ∀ token ∈ inside, ¬ token.kind.IsBoundary) : Unended (first :: inside) := by
  constructor
  · intro token member semicolon
    rcases List.mem_cons.mp member with rfl | later
    · exact noSemicolon semicolon
    · exact noBoundary token later (.inl semicolon)
  · intro token member
    have inner := noBoundary token member
    exact ⟨fun isLet => inner (.inr (.inl isLet)), fun isReturn => inner (.inr (.inr isReturn))⟩

theorem exists_before_boundary (tokens : List Token) :
    ∃ inside, (∀ token ∈ inside, ¬ token.kind.IsBoundary) ∧
      ((∃ token, token.kind = .semicolon ∧ tokens = inside ++ token :: toBoundary tokens) ∨
        tokens = inside ++ toBoundary tokens ∧ ∀ token ∈ (toBoundary tokens).head?,
          token.kind = .letKeyword ∨ token.kind = .returnKeyword) := by
  induction tokens with
  | nil => exact ⟨[], by simp, .inr ⟨rfl, by simp [toBoundary]⟩⟩
  | cons token rest ih =>
    -- the token is the semicolon looked for, or a keyword, or one that is passed over
    by_cases semicolon : token.kind = .semicolon
    · refine ⟨[], by simp, .inl ⟨token, semicolon, ?_⟩⟩
      rw [toBoundary, if_pos semicolon, List.nil_append]
    · by_cases boundary : token.kind.IsBoundary
      · refine ⟨[], by simp, .inr ?_⟩
        rw [toBoundary, if_neg semicolon, if_pos boundary]
        refine ⟨rfl, fun first same => ?_⟩
        obtain rfl := Option.some.inj same
        exact boundary.resolve_left semicolon
      · obtain ⟨inside, noBoundary, taken⟩ := ih
        rw [toBoundary, if_neg semicolon, if_neg boundary]
        refine ⟨token :: inside, List.forall_mem_cons.mpr ⟨boundary, noBoundary⟩, ?_⟩
        rcases taken with ⟨closing, isSemicolon, split⟩ | ⟨split, stops⟩
        · exact .inl ⟨closing, isSemicolon, congrArg (token :: ·) split⟩
        · exact .inr ⟨congrArg (token :: ·) split, stops⟩

theorem exists_skipsTo {tokens : List Token} (some_left : tokens ≠ []) :
    ∃ taken, taken ≠ [] ∧ tokens = taken ++ afterBroken tokens ∧
      SkipsTo (afterBroken tokens) taken := by
  obtain ⟨first, rest, rfl⟩ := List.exists_cons_of_ne_nil some_left
  by_cases semicolon : first.kind = .semicolon
  · rw [afterBroken, if_pos semicolon]
    exact ⟨[first], List.cons_ne_nil _ _, rfl, .semicolon .nil semicolon⟩
  · rw [afterBroken, if_neg semicolon]
    obtain ⟨inside, noBoundary, taken⟩ := exists_before_boundary rest
    have unended : Unended (first :: inside) := .cons semicolon noBoundary
    -- a semicolon is part of the segment, a keyword is not
    rcases taken with ⟨closing, isSemicolon, split⟩ | ⟨split, stops⟩
    · refine ⟨first :: inside ++ [closing], List.cons_ne_nil _ _, ?_,
        .semicolon unended isSemicolon⟩
      rw [List.append_assoc, List.cons_append, List.singleton_append, ← split]
    · refine ⟨first :: inside, List.cons_ne_nil _ _, ?_, .keyword unended stops⟩
      rw [List.cons_append, ← split]

theorem forall_split_cons_iff {α : Type} {P : α → List α → Prop} {first : α} {later : List α} :
    (∀ before x after, first :: later = before ++ x :: after → P x after) ↔
      P first later ∧ ∀ before x after, later = before ++ x :: after → P x after := by
  constructor
  · intro all
    exact ⟨all [] first later rfl, fun before x after split =>
      all (first :: before) x after (by rw [split, List.cons_append])⟩
  · rintro ⟨head, others⟩ before x after split
    cases before with
    | nil =>
      obtain ⟨rfl, rfl⟩ := List.cons.inj split
      exact head
    | cons _ before => exact others before x after (List.cons.inj split).2

theorem Account.exists_segments {finish : Position} {tokens : List Token} {items : List Item}
    (account : Account finish tokens items) :
    ∃ segments : List Segment, segments.flatMap Segment.tokens = tokens ∧
      segments.map Segment.item = items ∧
      ∀ before segment after, segments = before ++ segment :: after →
        segment.tokens ≠ [] ∧
          segment.StandsBefore (.endOfInput finish) (after.flatMap Segment.tokens) := by
  induction account with
  | nil => exact ⟨[], rfl, rfl, by simp⟩
  | @sound s own following rest items spelled grouped ends _ ih =>
    obtain ⟨later, joined, became, others⟩ := ih
    -- the semicolon, if there is one, is what the statement's end takes off the front
    obtain ⟨closing, rfl⟩ := ends.suffix
    refine ⟨⟨own ++ closing, .ok s⟩ :: later, ?_, ?_,
      forall_split_cons_iff.mpr ⟨⟨?_, ?_⟩, others⟩⟩
    · rw [List.flatMap_cons, joined, List.append_assoc]
    · rw [List.map_cons, became]
    · exact List.append_ne_nil_of_left_ne_nil spelled.ne_nil closing
    · rw [joined]
      exact .sound spelled grouped ends
  | @broken tokens found gap items breaks _ ih =>
    obtain ⟨later, joined, became, others⟩ := ih
    obtain ⟨taken, some_left, split, skips⟩ := exists_skipsTo breaks.ne_nil
    rw [split] at breaks
    refine ⟨⟨taken, .error (gap.diagnostic (found.headD (.endOfInput finish)))⟩ :: later, ?_, ?_,
      forall_split_cons_iff.mpr ⟨⟨some_left, ?_⟩, others⟩⟩
    · rw [List.flatMap_cons, joined, ← split]
    · rw [List.map_cons, became]
    · rw [joined]
      exact .broken breaks skips

/-- Every token of a text belongs to one segment, and each segment is a statement of the program
with its semicolon, or gives one diagnostic and ends where its tokens say. -/
theorem tokens_split_into_segments (source : String)
    (fits : source.utf8ByteSize ≤ Position.limit) :
    ∃ segments : List Segment,
      segments.flatMap Segment.tokens = (tokenize source).dropLast ∧
      (parse source).1.statements = segments.filterMap (fun segment => segment.item.statement?) ∧
      (parse source).2 = segments.filterMap (fun segment => segment.item.diagnostic?) ∧
      ∀ before segment after, segments = before ++ segment :: after →
        segment.tokens ≠ [] ∧
          segment.StandsBefore (Window.ofSource source).final (after.flatMap Segment.tokens) := by
  obtain ⟨segments, joined, became, stands⟩ := (account_itemsOf fits).exists_segments
  refine ⟨segments, joined.trans (ahead_ofSource source), ?_, ?_, stands⟩
  · rw [parse_eq, Program.ofItems, ← became, List.filterMap_map]
    rfl
  · rw [parse_eq, diagnosticsOfItems, ← became, List.filterMap_map]
    rfl

theorem tokens_split_into_segments_of_broken_binding :
    "let x 5; return let y = 6 z".utf8ByteSize ≤ Position.limit ∧
      ∃ segments : List Segment,
        segments.flatMap Segment.tokens = (tokenize "let x 5; return let y = 6 z").dropLast ∧
        (parse "let x 5; return let y = 6 z").1.statements =
          segments.filterMap (fun segment => segment.item.statement?) ∧
        (parse "let x 5; return let y = 6 z").2 =
          segments.filterMap (fun segment => segment.item.diagnostic?) ∧
        ∀ before segment after, segments = before ++ segment :: after →
          segment.tokens ≠ [] ∧
            segment.StandsBefore (Window.ofSource "let x 5; return let y = 6 z").final
              (after.flatMap Segment.tokens) :=
  ⟨by decide, tokens_split_into_segments _ (by decide)⟩

end Frontend
