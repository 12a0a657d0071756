import Frontend.Token.Window

/-!
# The byte cursor

A cursor walks over the bytes of a text. It holds the offset of the byte it is on, the offset of
the byte after it, and the byte itself; at the end of the text the byte is NUL. Moving byte by byte
may leave the cursor inside a character. There is no token to be had at such a place, and `next?`
has no answer exactly then.
-/
namespace Frontend

/-- A place among the bytes of a source text. -/
structure Cursor where
  source : String
  /-- The offset of the byte under the cursor. -/
  position : Nat
  /-- The offset of the byte after it. -/
  nextPosition : Nat
  /-- The byte under the cursor, NUL at the end. -/
  byte : UInt8
  deriving DecidableEq

namespace Cursor

/-- The byte of a text at an offset, NUL from the end on. -/
def byteAt (source : String) (offset : Nat) : UInt8 := source.toByteArray[offset]?.getD 0

/-- Moves one byte on, but never past the end. -/
def advance (c : Cursor) : Cursor :=
  let size := c.source.utf8ByteSize
  { c with
    position := min c.nextPosition size
    nextPosition := if c.nextPosition ≤ size then c.nextPosition + 1 else c.nextPosition
    byte := byteAt c.source c.nextPosition }

def advanceBy : Nat → Cursor → Cursor
  | 0, c => c
  | n + 1, c => advanceBy n c.advance

def start (source : String) : Cursor := advance ⟨source, 0, 0, 0⟩

/-- The byte after the one under the cursor, NUL from the end on. -/
def peekByte (c : Cursor) : UInt8 := byteAt c.source c.nextPosition

def atEnd (c : Cursor) : Bool := decide (c.source.utf8ByteSize ≤ c.position)

/-- The text from the cursor on; `none` inside a character. -/
def text? (c : Cursor) : Option (List Char) := Text.dropBytes? c.source.toList c.position

/-- The next token, and the cursor behind it; `none` inside a character. At the end of the text
the answer is the end token, and the cursor stays there. -/
def next? (c : Cursor) : Option (Token × Cursor) :=
  c.text?.map fun text =>
    match Step.next? c.position text with
    | some step => (step.token, c.advanceBy step.width)
    | none =>
      let width := Text.byteLength text
      (Token.endOfInput (Position.ofOffset (c.position + width)), c.advanceBy width)

/-- The tokens from the cursor on, seen through a window; `none` inside a character. -/
def window? (c : Cursor) : Option Window := c.text?.map (Window.ofText c.position)

/-- The tokens from the cursor on, without the end token, and the cursor at the end of the text;
`none` inside a character. -/
def rest? (c : Cursor) : Option (List Token × Cursor) :=
  c.text?.map fun text => (scan c.position text, c.advanceBy (Text.byteLength text))

end Cursor

end Frontend
