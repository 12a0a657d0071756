import Frontend.Token.Scan

/-!
# The window on the tokens to come

Reading looks at two tokens at a time: the current one and the one after it. A window holds the
tokens that are still to come. Behind the last of them the end of the text stands for ever, so both
looks always succeed and advancing is always possible. `Reaches` relates a window to those that
advancing leads to.
-/
namespace Frontend

/-- The tokens not yet passed, and the position of the end of the text, which follows them. -/
structure Window where
  ahead : List Token
  finish : Position
  deriving DecidableEq, Repr

namespace Window

/-- The tokens of a text that begins at `offset`. -/
def ofText (offset : Nat) (text : List Char) : Window :=
  ⟨scan offset text, Position.ofOffset (offset + Text.byteLength text)⟩

def ofSource (source : String) : Window := ofText 0 source.toList

def final (w : Window) : Token := Token.endOfInput w.finish

def current (w : Window) : Token := w.ahead.headD w.final

/-- The token after the current one. -/
def peek (w : Window) : Token := w.ahead.tail.headD w.final

/-- The window one token further on; at the end of the text, the window itself. -/
def advance (w : Window) : Window := { w with ahead := w.ahead.tail }

/-- The window behind the next token if that is of the given kind, and the window itself if not. -/
def skipOptional (kind : Kind) (w : Window) : Window :=
  if w.peek.kind = kind then w.advance else w

def left (w : Window) : Nat := w.ahead.length

@[simp] theorem left_advance (w : Window) : w.advance.left = w.left - 1 := by
  simp [left, advance]

@[simp] theorem final_advance (w : Window) : w.advance.final = w.final := rfl

@[simp] theorem current_advance (w : Window) : w.advance.current = w.peek := by
  simp [current, peek, advance, final]

/-! ### Windows further on -/

/-- `w.Reaches v` says that advancing leads from `w` to `v`. -/
def Reaches (w v : Window) : Prop := v.ahead <:+ w.ahead ∧ v.finish = w.finish

theorem Reaches.refl (w : Window) : w.Reaches w := ⟨List.suffix_refl _, rfl⟩

theorem Reaches.trans {u v w : Window} (first : u.Reaches v) (second : v.Reaches w) :
    u.Reaches w := ⟨second.1.trans first.1, second.2.trans first.2⟩

theorem reaches_advance (w : Window) : w.Reaches w.advance := ⟨List.tail_suffix _, rfl⟩

theorem reaches_skipOptional (kind : Kind) (w : Window) : w.Reaches (w.skipOptional kind) := by
  rw [skipOptional]
  split
  · exact w.reaches_advance
  · exact .refl w

theorem Reaches.left_le {w v : Window} (reached : w.Reaches v) : v.left ≤ w.left :=
  reached.1.length_le

/-- Behind a token that has been passed, fewer are left. -/
theorem left_lt_of_reaches_advance {w v : Window} (reached : w.advance.Reaches v)
    (some_left : 0 < w.left) : v.left < w.left := by
  have bound := reached.left_le
  rw [left_advance] at bound
  omega

/-- A window that is reached without passing a token is the same window. -/
theorem Reaches.eq_of_left_eq {w v : Window} (reached : w.Reaches v) (same : v.left = w.left) :
    v = w := by
  obtain ⟨ahead, finish⟩ := v
  obtain ⟨suffix, ends⟩ := reached
  cases w
  simp only [left] at same ends
  simp only [mk.injEq]
  exact ⟨suffix.eq_of_length same, ends⟩

end Window

end Frontend
