import Frontend.Proofs.Classification
import Frontend.Proofs.CursorRun

/-!
# The decomposition of a text

A text is layout and lexemes in turn, and scanning finds them: nothing is lost, each token stands
where its position says, and each one is the longest that begins there
(`tokenize_decomposes_text`). Such a decomposition is what `Cut` says of a list of pieces, whatever
text they make up, and the tokens of the text are those of the pieces (`Cut.scan_eq`).
-/
namespace Frontend

/-- A token with the layout in front of it. -/
structure Piece where
  gap : List Char
  token : Token

def Piece.text (piece : Piece) : List Char := piece.gap ++ piece.token.literal.toList

/-- From `offset` on, the pieces one after the other and `closing` behind them are layout and
lexemes in turn. -/
inductive Cut (closing : List Char) : Nat → List Piece → Prop
  | nil {offset : Nat} : (∀ c ∈ closing, isLayout c = true) → Cut closing offset []
  | cons {offset : Nat} {piece : Piece} {pieces : List Piece} :
      (∀ c ∈ piece.gap, isLayout c = true) →
      piece.token.lexeme.Formed →
      piece.token.lexeme.EndsBefore (pieces.flatMap Piece.text ++ closing) →
      piece.token.position = Position.ofOffset (offset + Text.byteLength piece.gap) →
      Cut closing (offset + Text.byteLength piece.text) pieces →
      Cut closing offset (piece :: pieces)

theorem scan_gap {gap : List Char} (layout : ∀ c ∈ gap, isLayout c = true) (offset : Nat)
    (rest : List Char) : scan offset (gap ++ rest) = scan (offset + Text.byteLength gap) rest := by
  induction gap generalizing offset with
  | nil => rfl
  | cons c gap ih =>
    obtain ⟨first, later⟩ := List.forall_mem_cons.mp layout
    rw [List.cons_append, scan_layout first, ih later, Text.byteLength_cons, Nat.add_assoc]

theorem Cut.scan_eq {closing : List Char} {offset : Nat} {pieces : List Piece}
    (cut : Cut closing offset pieces) :
    scan offset (pieces.flatMap Piece.text ++ closing) = pieces.map Piece.token := by
  induction cut with
  | @nil offset layout =>
    have blank := scan_gap layout offset []
    rwa [List.append_nil, scan_nil] at blank
  | @cons offset piece pieces layout formed ends position _ ih =>
    have scanned := scan_lexeme formed ends (offset + Text.byteLength piece.gap)
    have width : Text.byteLength piece.text =
        Text.byteLength piece.gap + Text.byteLength piece.token.lexeme.text :=
      Text.byteLength_append _ _
    rw [width, ← Nat.add_assoc] at ih
    rw [List.flatMap_cons, List.append_assoc, Piece.text, List.append_assoc, scan_gap layout]
    change scan _ (piece.token.lexeme.text ++ _) = _
    rw [scanned, ih, List.map_cons, ← position, Token.lexeme, String.ofList_toList]

/-- Every text can be cut. -/
theorem exists_cut (offset : Nat) (text : List Char) :
    ∃ pieces closing, text = pieces.flatMap Piece.text ++ closing ∧ Cut closing offset pieces := by
  induction text using text_induction generalizing offset with
  | nil => exact ⟨[], [], rfl, .nil (by simp)⟩
  | layout c rest layout ih =>
    -- layout is part of the gap that comes next
    obtain ⟨pieces, closing, rfl, cut⟩ := ih (offset + c.utf8Size)
    cases cut with
    | nil blank =>
      exact ⟨[], c :: closing, rfl, .nil (List.forall_mem_cons.mpr ⟨layout, blank⟩)⟩
    | @cons _ piece pieces gap formed ends position later =>
      refine ⟨⟨c :: piece.gap, piece.token⟩ :: pieces, closing, rfl, ?_⟩
      refine .cons (List.forall_mem_cons.mpr ⟨layout, gap⟩) formed ends ?_ ?_
      · rw [position, Text.byteLength_cons, Nat.add_assoc]
      · rw [Nat.add_assoc] at later
        exact later
  | lexeme lexeme behind formed ends ih =>
    obtain ⟨pieces, closing, rfl, cut⟩ := ih (offset + Text.byteLength lexeme.text)
    refine ⟨⟨[], lexeme.kind, String.ofList lexeme.text, Position.ofOffset offset⟩ :: pieces,
      closing, by simp [Piece.text], ?_⟩
    refine .cons (by simp) ?_ ?_ rfl ?_
    · simpa [Token.lexeme] using formed
    · simpa [Token.lexeme] using ends
    · simpa [Piece.text] using cut

theorem Cut.of_append {closing : List Char} {offset : Nat} {before pieces : List Piece}
    (cut : Cut closing offset (before ++ pieces)) :
    Cut closing (offset + Text.byteLength (before.flatMap Piece.text)) pieces := by
  induction before generalizing offset with
  | nil => exact cut
  | cons piece before ih =>
    cases cut with
    | cons _ _ _ _ later =>
      have rest := ih later
      rwa [Nat.add_assoc, ← Text.byteLength_append, ← List.flatMap_cons] at rest

theorem Cut.layout_closing {closing : List Char} {offset : Nat} {pieces : List Piece}
    (cut : Cut closing offset pieces) : ∀ c ∈ closing, isLayout c = true := by
  induction cut with
  | nil layout => exact layout
  | cons _ _ _ _ _ ih => exact ih

/-- The piece is layout and a token, which stands where its position says, between two other parts
of a text, and is all that can be a token there. -/
structure Piece.StandsBetween (before behind : List Char) (piece : Piece) : Prop where
  layout : ∀ c ∈ piece.gap, isLayout c = true
  position : piece.token.position.offset = Text.byteLength (before ++ piece.gap)
  classified : piece.token.Classified behind

theorem Cut.standsBetween {closing : List Char} {before after : List Piece} {piece : Piece}
    (cut : Cut closing 0 (before ++ piece :: after))
    (fits : Text.byteLength ((before ++ piece :: after).flatMap Piece.text) ≤ Position.limit) :
    piece.StandsBetween (before.flatMap Piece.text) (after.flatMap Piece.text ++ closing) := by
  have rest := cut.of_append
  rw [Nat.zero_add] at rest
  cases rest with
  | cons layout formed ends position _ =>
    refine ⟨layout, ?_, formed.classified ends⟩
    rw [List.flatMap_append, List.flatMap_cons, Piece.text] at fits
    simp only [Text.byteLength_append] at fits
    rw [position, Position.ofOffset_of_le (by omega), Text.byteLength_append]

/-- The tokens of a text, which a cursor gives one after the other, cut it without a loss: the text
is their literals with layout between them, each at its position, and ends with the end token. The
kind and the literal of each fit each other and what follows, so each is as long as it can be. -/
theorem tokenize_decomposes_text (source : String) (fits : source.utf8ByteSize ≤ Position.limit) :
    (Cursor.start source).Yields (tokenize source) ∧
      ∃ (pieces : List Piece) (closing : List Char),
        tokenize source =
            pieces.map Piece.token ++ [⟨.endOfInput, "", ⟨source.utf8ByteSize⟩⟩] ∧
          source.toList = pieces.flatMap Piece.text ++ closing ∧
          (∀ c ∈ closing, isLayout c = true) ∧
          ∀ before piece after, pieces = before ++ piece :: after →
            piece.StandsBetween (before.flatMap Piece.text)
              (after.flatMap Piece.text ++ closing) := by
  refine ⟨Cursor.yields_start source, ?_⟩
  obtain ⟨pieces, closing, text, cut⟩ := exists_cut 0 source.toList
  refine ⟨pieces, closing, ?_, text, cut.layout_closing, ?_⟩
  · have scanned := cut.scan_eq
    rw [← text] at scanned
    rw [tokenize, scanned, byteLength_toList, Position.ofOffset_of_le fits, Token.endOfInput]
  · rintro before piece after rfl
    apply cut.standsBetween
    rw [← byteLength_toList, text, Text.byteLength_append] at fits
    omega

theorem tokenize_decomposes_text_of_mixed :
    "_a1==!=!\u0000 =é;".utf8ByteSize ≤ Position.limit ∧
      (Cursor.start "_a1==!=!\u0000 =é;").Yields (tokenize "_a1==!=!\u0000 =é;") ∧
      ∃ (pieces : List Piece) (closing : List Char),
        tokenize "_a1==!=!\u0000 =é;" =
            pieces.map Piece.token ++
              [⟨.endOfInput, "", ⟨"_a1==!=!\u0000 =é;".utf8ByteSize⟩⟩] ∧
          "_a1==!=!\u0000 =é;".toList = pieces.flatMap Piece.text ++ closing ∧
          (∀ c ∈ closing, isLayout c = true) ∧
          ∀ before piece after, pieces = before ++ piece :: after →
            piece.StandsBetween (before.flatMap Piece.text)
              (after.flatMap Piece.text ++ closing) :=
  ⟨by decide, tokenize_decomposes_text _ (by decide)⟩

end Frontend
