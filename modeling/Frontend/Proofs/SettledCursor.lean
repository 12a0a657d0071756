import Frontend.Proofs.Bytes
import Frontend.Proofs.CursorRun

/-!
# Settled cursors

A cursor is settled if its fields agree. Moving it keeps it so, and a token is to be had exactly
between two characters (`Cursor.next?_eq_none_iff`). Drawing one leads between two characters again,
and further on unless the text is at its end (`Cursor.Settled.of_next?`).
-/
namespace Frontend

namespace Cursor

/-- The cursor is between two characters, or at an end of its text. -/
def OnBoundary (c : Cursor) : Prop := (⟨c.position⟩ : String.Pos.Raw).IsValid c.source

/-- The cursor is within its text, and its other fields are those of its position. -/
structure Settled (c : Cursor) : Prop where
  inside : c.position ≤ c.source.utf8ByteSize
  nextPosition : c.nextPosition = c.position + 1
  byte : c.byte = byteAt c.source c.position

/-! ### Single bytes -/

variable {c : Cursor}

theorem settled_start (source : String) : (start source).Settled := by
  refine ⟨?_, ?_, ?_⟩ <;> simp [start, advance]

theorem source_advanceBy (c : Cursor) (n : Nat) : (c.advanceBy n).source = c.source := by
  induction n generalizing c with
  | zero => rfl
  | succ n ih => exact ih c.advance

theorem Settled.advance (settled : c.Settled) : c.advance.Settled := by
  have next := settled.nextPosition
  have inside := settled.inside
  refine ⟨Nat.min_le_right _ _, ?_, ?_⟩
  · simp only [Cursor.advance]
    split <;> omega
  · simp only [Cursor.advance]
    by_cases within : c.nextPosition ≤ c.source.utf8ByteSize
    · rw [Nat.min_eq_left within]
    · -- from the end on, there is only the NUL
      rw [Nat.min_eq_right (by omega), byteAt_of_le (by omega), byteAt_of_le (by omega)]

theorem Settled.advanceBy (settled : c.Settled) (n : Nat) : (c.advanceBy n).Settled := by
  induction n generalizing c with
  | zero => exact settled
  | succ n ih => exact ih settled.advance

/-- Settled cursors at one place of one text are the same. -/
theorem Settled.eq_of_position {d : Cursor} (settled : c.Settled) (other : d.Settled)
    (source : d.source = c.source) (position : d.position = c.position) : d = c := by
  have next : d.nextPosition = c.nextPosition := by
    rw [other.nextPosition, settled.nextPosition, position]
  have byte : d.byte = c.byte := by rw [other.byte, settled.byte, source, position]
  cases c
  cases d
  simp only at source position next byte
  rw [source, position, next, byte]

theorem Settled.advance_eq (settled : c.Settled) (ended : c.position = c.source.utf8ByteSize) :
    c.advance = c := by
  refine settled.eq_of_position settled.advance rfl ?_
  have next := settled.nextPosition
  simp only [Cursor.advance]
  omega

/-! ### Tokens -/

theorem onBoundary_iff :
    c.OnBoundary ↔
      ∃ before rest, c.source.toList = before ++ rest ∧ c.position = Text.byteLength before := by
  rw [OnBoundary, String.Pos.Raw.isValid_iff_exists_append]
  constructor
  · rintro ⟨first, second, split, place⟩
    refine ⟨first.toList, second.toList, by rw [split, String.toList_append], ?_⟩
    rw [byteLength_toList]
    exact congrArg String.Pos.Raw.byteIdx place
  · rintro ⟨before, rest, split, place⟩
    refine ⟨String.ofList before, String.ofList rest, ?_, ?_⟩
    · rw [← String.ofList_append, ← split, String.ofList_toList]
    · rw [place, ← String.toList_ofList (l := before), byteLength_toList, String.toList_ofList]
      rfl

theorem Settled.exists_between (settled : c.Settled) (boundary : c.OnBoundary) :
    ∃ before rest, c.Between before rest := by
  obtain ⟨before, rest, text, position⟩ := onBoundary_iff.mp boundary
  exact ⟨before, rest, text, position, settled.nextPosition⟩

theorem Between.onBoundary {before rest : List Char} (between : c.Between before rest) :
    c.OnBoundary := onBoundary_iff.mpr ⟨before, rest, between.text, between.position⟩

theorem onBoundary_of_end (ended : c.position = c.source.utf8ByteSize) : c.OnBoundary :=
  onBoundary_iff.mpr
    ⟨c.source.toList, [], (List.append_nil _).symm, by rw [byteLength_toList, ended]⟩

theorem isSome_text?_iff : c.text?.isSome = true ↔ c.OnBoundary := by
  rw [onBoundary_iff, Option.isSome_iff_exists]
  constructor
  · rintro ⟨rest, cut⟩
    obtain ⟨before, text, width⟩ := Text.eq_append_of_dropBytes? cut
    exact ⟨before, rest, text, width.symm⟩
  · rintro ⟨before, rest, text, position⟩
    exact ⟨rest, by rw [text?, text, position, Text.dropBytes?_append]⟩

/-- There is a token to be had exactly between two characters. -/
theorem next?_eq_none_iff : c.next? = none ↔ ¬ c.OnBoundary := by
  rw [next?, Option.map_eq_none_iff, ← isSome_text?_iff, Option.not_isSome_iff_eq_none]

/-- The token that stands behind all others of a text. -/
def finalToken (source : String) : Token :=
  Token.endOfInput (Position.ofOffset source.utf8ByteSize)

theorem Between.position_add {before rest : List Char} (between : c.Between before rest) :
    c.position + Text.byteLength rest = c.source.utf8ByteSize := by
  rw [between.position, ← byteLength_toList, between.text, Text.byteLength_append]

/-- Drawing a token takes it off the front of the text; if only layout is left, it takes that and
gives the end token. -/
theorem Between.exists_next? {before rest : List Char} (between : c.Between before rest) :
    ∃ token passed behind, rest = passed ++ behind ∧
      c.next? = some (token, c.advanceBy (Text.byteLength passed)) ∧
      (token.isEnd = false ∧ passed ≠ [] ∧
          scan c.position rest = token :: scan (c.position + Text.byteLength passed) behind ∨
        token = finalToken c.source ∧ behind = [] ∧ scan c.position rest = []) := by
  cases taken : Step.next? c.position rest with
  | none =>
    refine ⟨finalToken c.source, rest, [], (List.append_nil _).symm, ?_,
      .inr ⟨rfl, rfl, scan_of_none taken⟩⟩
    simp only [next?, between.text?_eq, Option.map_some, taken, between.position_add,
      finalToken]
  | some step =>
    obtain ⟨passed, split, width⟩ := Step.exists_taken taken
    refine ⟨step.token, passed, step.rest, split, ?_, .inl ⟨?_, ?_, ?_⟩⟩
    · simp only [next?, between.text?_eq, Option.map_some, taken, width]
    · have inside : step.token ∈ scan c.position rest := by
        rw [scan_of_some taken]
        exact List.mem_cons_self
      simpa [Token.isEnd] using kind_ne_endOfInput_of_mem_scan inside
    · rintro rfl
      have shorter := Step.length_rest_lt taken
      rw [split, List.nil_append] at shorter
      exact Nat.lt_irrefl _ shorter
    · rw [scan_of_some taken, width]

/-- Drawing a token has led from `c` to `after`, between two characters of the same text: to its
end, where the end token is drawn, or else further on. -/
structure Draws (c : Cursor) (token : Token) (after : Cursor) : Prop where
  source : after.source = c.source
  boundary : after.OnBoundary
  ended : token.isEnd = true → token = finalToken c.source ∧ after.position = c.source.utf8ByteSize
  further : token.isEnd = false → c.position < after.position

/-- Between two characters a token can be drawn. -/
theorem Settled.exists_draws (settled : c.Settled) (boundary : c.OnBoundary) :
    ∃ token after, c.next? = some (token, after) ∧ after.Settled ∧ c.Draws token after := by
  obtain ⟨before, rest, between⟩ := settled.exists_between boundary
  obtain ⟨token, passed, behind, rfl, drawn, outcome⟩ := between.exists_next?
  have moved := between.advanceBy
  have source := source_advanceBy c (Text.byteLength passed)
  refine ⟨token, _, drawn, settled.advanceBy _, source, moved.onBoundary, ?_, ?_⟩
  · intro isEnd
    rcases outcome with ⟨noEnd, -, -⟩ | ⟨final, rfl, -⟩
    · rw [noEnd] at isEnd
      cases isEnd
    · refine ⟨final, ?_⟩
      rw [moved.position, ← source, ← byteLength_toList, moved.text, List.append_nil]
  · intro noEnd
    rcases outcome with ⟨-, nonempty, -⟩ | ⟨rfl, -, -⟩
    · have positive := Text.byteLength_pos nonempty
      rw [moved.position, Text.byteLength_append, ← between.position]
      omega
    · cases noEnd

theorem Settled.of_next? {token : Token} {after : Cursor} (settled : c.Settled)
    (drawn : c.next? = some (token, after)) : after.Settled ∧ c.Draws token after := by
  have boundary : c.OnBoundary := by
    refine Classical.byContradiction fun inside => ?_
    rw [next?_eq_none_iff.mpr inside] at drawn
    cases drawn
  obtain ⟨_, _, same, result⟩ := settled.exists_draws boundary
  rw [drawn] at same
  cases same
  exact result

/-- At the end of a text the end token is drawn, again and again. -/
theorem Settled.next?_of_end (settled : c.Settled) (ended : c.position = c.source.utf8ByteSize) :
    c.next? = some (finalToken c.source, c) := by
  obtain ⟨token, after, drawn, still, draws⟩ := settled.exists_draws (onBoundary_of_end ended)
  have inside := still.inside
  rw [draws.source] at inside
  cases isEnd : token.isEnd with
  | true =>
    obtain ⟨same, place⟩ := draws.ended isEnd
    rw [drawn, same, settled.eq_of_position still draws.source (place.trans ended.symm)]
  | false =>
    have further := draws.further isEnd
    omega

end Cursor

end Frontend
