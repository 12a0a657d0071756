import Frontend.Text.Width
import Frontend.Token.Basic

/-!
# Scanning

A text is layout and lexemes in turn. Layout is space, tab, newline and carriage return. A lexeme
is a pair (`==`, `!=`), a longest run of letters, a longest run of digits, a symbol, or a single
character that is none of these and so illegal. Scanning never fails and loses nothing: each step
takes the layout and the lexeme off the front of the text (`Lexeme.text_isPrefix`).
-/
namespace Frontend

/-- Characters that separate tokens and are otherwise skipped. -/
def isLayout (c : Char) : Bool := c == ' ' || c == '\t' || c == '\n' || c == '\r'

/-- Characters of words: the ASCII letters and the underscore. -/
def isLetter (c : Char) : Bool := c.isAlpha || c == '_'

/-- A classified piece at the front of a text. -/
structure Lexeme where
  kind : Kind
  text : List Char
  deriving DecidableEq, Repr

namespace Lexeme

/-- The lexeme at the front of the text `c :: rest`, which begins with no layout. -/
def first (c : Char) (rest : List Char) : Lexeme :=
  -- A pair is tried first, since its first character is a symbol of its own.
  match rest.head?.bind (Kind.ofPair? c) with
  | some kind => ⟨kind, (c :: rest).take 2⟩
  | none =>
    if isLetter c then
      let word := (c :: rest).takeWhile isLetter
      ⟨Kind.ofWord (String.ofList word), word⟩
    else if c.isDigit then ⟨.integer, (c :: rest).takeWhile Char.isDigit⟩
    else ⟨(Kind.ofSymbol? c).getD .illegal, [c]⟩

theorem text_isPrefix (c : Char) (rest : List Char) : (first c rest).text <+: c :: rest := by
  rw [first]
  split
  · exact List.take_prefix 2 (c :: rest)
  · split
    · exact List.takeWhile_prefix isLetter
    · split
      · exact List.takeWhile_prefix Char.isDigit
      · exact ⟨rest, rfl⟩

theorem text_ne_nil (c : Char) (rest : List Char) : (first c rest).text ≠ [] := by
  rw [first]
  split
  · simp
  · split
    next letter => simp [letter]
    · split
      next digit => simp [digit]
      · simp

end Lexeme

/-- One step through a text: the token found, the bytes taken with the layout before it, and what
is left of the text. -/
structure Step where
  token : Token
  width : Nat
  rest : List Char

namespace Step

/-- The first step through a text that begins at `offset`; `none` if only layout is left. -/
def next? (offset : Nat) (text : List Char) : Option Step :=
  match text.dropWhile isLayout with
  | [] => none
  | c :: rest =>
    let lexeme := Lexeme.first c rest
    let gap := Text.byteLength (text.takeWhile isLayout)
    some {
      token := ⟨lexeme.kind, String.ofList lexeme.text, Position.ofOffset (offset + gap)⟩
      width := gap + Text.byteLength lexeme.text
      rest := (c :: rest).drop lexeme.text.length }

/-- A step leaves less text than there was. -/
theorem length_rest_lt {offset : Nat} {text : List Char} {step : Step}
    (taken : next? offset text = some step) : step.rest.length < text.length := by
  rw [next?] at taken
  split at taken
  · simp at taken
  next c rest body =>
    simp only [Option.some.injEq] at taken
    subst taken
    have shorter := (List.dropWhile_suffix (l := text) isLayout).length_le
    have positive := List.length_pos_iff.mpr (Lexeme.text_ne_nil c rest)
    rw [body, List.length_cons] at shorter
    simp only [List.length_drop, List.length_cons]
    omega

end Step

/-- The tokens of a text that begins at `offset`, without the end of the text. -/
def scan (offset : Nat) (text : List Char) : List Token :=
  match taken : Step.next? offset text with
  | none => []
  | some step =>
    have := Step.length_rest_lt taken
    step.token :: scan (offset + step.width) step.rest
termination_by text.length

/-- The tokens of a source text; the last one is the end of the text. -/
def tokenize (source : String) : List Token :=
  scan 0 source.toList ++ [Token.endOfInput (Position.ofOffset (Text.byteLength source.toList))]

end Frontend
