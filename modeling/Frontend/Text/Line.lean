import Frontend.Text.Width

/-!
# Lines

A line runs up to and including its newline; the last line may lack one. `splitAfter` cuts any
list after each separator and loses nothing. `Place.find` says on which line a byte offset lies
and how far into it. An offset past the end lies at the end of the last line, which is a fresh
empty line when the text ends in a newline.
-/
namespace Frontend.Text

/-- The pieces of a list, cut after each separator. -/
def splitAfter {α : Type} [DecidableEq α] (separator : α) : List α → List (List α)
  | [] => []
  | x :: xs =>
    if x = separator then [x] :: splitAfter separator xs
    else
      match splitAfter separator xs with
      | [] => [[x]]
      | piece :: pieces => (x :: piece) :: pieces

/-- Nothing is lost in cutting. -/
theorem flatten_splitAfter {α : Type} [DecidableEq α] (separator : α) (xs : List α) :
    (splitAfter separator xs).flatten = xs := by
  induction xs with
  | nil => rfl
  | cons x xs ih =>
    simp only [splitAfter]
    split
    · simp [ih]
    · cases pieces : splitAfter separator xs with
      | nil => simp [pieces] at ih ⊢; exact ih
      | cons piece rest => simp [pieces] at ih ⊢; exact ih

/-- A place in a text: its line, counted from one, the text of that line with its newline, and the
offset in bytes from the start of the line. -/
structure Place where
  line : Nat
  text : String
  offset : Nat
  deriving DecidableEq, Repr

namespace Place

/-- The place of an offset among lines of which the first has the given number. The first line
holds it if the offset is within the line or the line is unterminated, and so the last. -/
def among (number : Nat) : List (List Char) → Nat → Place
  | [], _ => ⟨number, "", 0⟩
  | line :: lines, offset =>
    if offset < byteLength line ∨ line.getLast? ≠ some '\n' then
      ⟨number, String.ofList line, min offset (byteLength line)⟩
    else among (number + 1) lines (offset - byteLength line)

/-- The place of a byte offset in a text. -/
def find (source : String) (offset : Nat) : Place :=
  among 1 (splitAfter '\n' source.toList) offset

end Place

end Frontend.Text
