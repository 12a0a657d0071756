import Frontend.Proofs.Scanning
import Frontend.Token.Cursor

/-!
# Drawing tokens from a cursor

A cursor at the start of a text gives its tokens one at a time, up to the end token. It moves byte
by byte, and never asks for a token inside a character (`Cursor.yields_start`).
-/
namespace Frontend

/-- What a step has taken off the front of a text. -/
theorem Step.exists_taken {offset : Nat} {text : List Char} {step : Step}
    (taken : Step.next? offset text = some step) :
    ∃ passed, text = passed ++ step.rest ∧ Text.byteLength passed = step.width := by
  rw [next?] at taken
  split at taken
  · cases taken
  next c rest body =>
    cases taken
    refine ⟨text.takeWhile isLayout ++ (Lexeme.first c rest).text, ?_, ?_⟩
    · obtain ⟨behind, split⟩ := Lexeme.text_isPrefix c rest
      dsimp only
      rw [← split, List.drop_left, List.append_assoc, split, ← body,
        List.takeWhile_append_dropWhile]
    · exact Text.byteLength_append _ _

namespace Cursor

/-- The cursor stands between two parts of its text. -/
structure Between (c : Cursor) (before rest : List Char) : Prop where
  text : c.source.toList = before ++ rest
  position : c.position = Text.byteLength before
  nextPosition : c.nextPosition = c.position + 1

theorem between_start (source : String) : (start source).Between [] source.toList := by
  constructor
  · rfl
  · simp [start, advance]
  · simp [start, advance]

variable {c : Cursor} {before rest : List Char}

theorem Between.text?_eq (between : c.Between before rest) : c.text? = some rest := by
  rw [text?, between.text, between.position]
  exact Text.dropBytes?_append before rest

theorem advanceBy_eq {n : Nat} (next : c.nextPosition = c.position + 1)
    (inside : c.position + n ≤ c.source.utf8ByteSize) :
    (c.advanceBy n).source = c.source ∧ (c.advanceBy n).position = c.position + n ∧
      (c.advanceBy n).nextPosition = c.position + n + 1 := by
  induction n generalizing c with
  | zero => exact ⟨rfl, rfl, next⟩
  | succ n ih =>
    have moved : c.advance.position = c.position + 1 := by
      simp only [advance, next]
      omega
    have movedNext : c.advance.nextPosition = c.advance.position + 1 := by
      rw [moved]
      simp only [advance, next]
      rw [if_pos (by omega)]
    have still : c.advance.source = c.source := rfl
    obtain ⟨source, position, nextPosition⟩ := ih movedNext (by rw [moved, still]; omega)
    refine ⟨source, ?_, ?_⟩
    · rw [advanceBy, position, moved]
      omega
    · rw [advanceBy, nextPosition, moved]
      omega

theorem Between.advanceBy {passed : List Char} (between : c.Between before (passed ++ rest)) :
    (c.advanceBy (Text.byteLength passed)).Between (before ++ passed) rest := by
  have size : c.source.utf8ByteSize = Text.byteLength (before ++ (passed ++ rest)) := by
    rw [← byteLength_toList, between.text]
  have inside : c.position + Text.byteLength passed ≤ c.source.utf8ByteSize := by
    rw [size, between.position, Text.byteLength_append, Text.byteLength_append]
    omega
  obtain ⟨source, position, nextPosition⟩ := advanceBy_eq between.nextPosition inside
  constructor
  · rw [source, between.text, List.append_assoc]
  · rw [position, between.position, Text.byteLength_append]
  · rw [nextPosition, position]

/-- Drawn one after the other, up to the end token, the tokens from the cursor on are these. -/
inductive Yields : Cursor → List Token → Prop
  | finish {c after : Cursor} {token : Token} :
      c.next? = some (token, after) → token.isEnd = true → Yields c [token]
  | token {c after : Cursor} {token : Token} {tokens : List Token} :
      c.next? = some (token, after) → token.isEnd = false → Yields after tokens →
      Yields c (token :: tokens)

theorem Between.yields (between : c.Between before rest) :
    c.Yields (scan (Text.byteLength before) rest ++
      [Token.endOfInput (Position.ofOffset (Text.byteLength before + Text.byteLength rest))]) := by
  -- on what is left of the text, of which each token takes something
  induction size : rest.length using Nat.strongRecOn generalizing c before rest with
  | ind n ih =>
    cases taken : Step.next? (Text.byteLength before) rest with
    | none =>
      have drawn : c.next? = some (Token.endOfInput (Position.ofOffset
          (Text.byteLength before + Text.byteLength rest)),
          c.advanceBy (Text.byteLength rest)) := by
        simp only [next?, between.text?_eq, between.position, Option.map_some, taken]
      rw [scan_of_none taken]
      exact .finish drawn rfl
    | some step =>
      have shorter := Step.length_rest_lt taken
      have drawn : c.next? = some (step.token, c.advanceBy step.width) := by
        simp only [next?, between.text?_eq, between.position, Option.map_some, taken]
      have inside : step.token ∈ scan (Text.byteLength before) rest := by
        rw [scan_of_some taken]
        exact List.mem_cons_self
      have notEnd : step.token.isEnd = false := by
        simpa [Token.isEnd] using kind_ne_endOfInput_of_mem_scan inside
      obtain ⟨passed, split, width⟩ := Step.exists_taken taken
      have moved := between
      rw [split] at moved
      have later := ih step.rest.length (by omega) moved.advanceBy rfl
      rw [Text.byteLength_append, width, Nat.add_assoc] at later
      rw [scan_of_some taken, List.cons_append]
      refine .token drawn notEnd ?_
      rwa [congrArg Text.byteLength split, Text.byteLength_append, width]

/-- The tokens of a text are those that a cursor gives from its start on. -/
theorem yields_start (source : String) : (start source).Yields (tokenize source) := by
  have drawn := (between_start source).yields
  rwa [Text.byteLength_nil, Nat.zero_add] at drawn

end Cursor

end Frontend
