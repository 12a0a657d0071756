import Frontend.Grammar.Statement
import Frontend.Tree.Program

/-!
# Reading programs

A program is read statement by statement until the end of the text. Where a statement is broken,
its diagnostic is kept in its place and the rest of it is skipped: up to and including the next
semicolon, or up to a keyword that begins a statement. The broken statement's own keyword does not
count, and is told from a later one by its position. Each statement, sound or broken, takes at
least one token (`Window.left_recover_lt`), so the end of the text is reached.
-/
namespace Frontend

/-- The tokens that are left after a broken statement that began at `start` has been skipped. -/
def skipBroken (start : Position) : List Token → List Token
  | [] => []
  | token :: rest =>
    match token.kind with
    | .semicolon => rest
    | .letKeyword | .returnKeyword =>
      -- The keyword of the broken statement itself is passed over.
      if token.position = start then skipBroken start rest else token :: rest
    | _ => skipBroken start rest

theorem skipBroken_suffix (start : Position) (tokens : List Token) :
    skipBroken start tokens <:+ tokens := by
  induction tokens with
  | nil => exact List.suffix_refl _
  | cons token rest ih =>
    have later : skipBroken start rest <:+ token :: rest := ih.trans (List.suffix_cons token rest)
    simp only [skipBroken]
    split
    · exact List.suffix_cons token rest
    · split
      · exact later
      · exact List.suffix_refl _
    · split
      · exact later
      · exact List.suffix_refl _
    · exact later

/-- The token at which the broken statement began is skipped. -/
theorem skipBroken_suffix_tail (token : Token) (rest : List Token) :
    skipBroken token.position (token :: rest) <:+ rest := by
  simp only [skipBroken]
  split
  · exact List.suffix_refl _
  · rw [ite_true]; exact skipBroken_suffix _ rest
  · rw [ite_true]; exact skipBroken_suffix _ rest
  · exact skipBroken_suffix _ rest

namespace Window

/-- The window behind a broken statement that began at `start`. -/
def recover (start : Position) (w : Window) : Window :=
  { w with ahead := skipBroken start w.ahead }

theorem reaches_recover (start : Position) (w : Window) : w.Reaches (w.recover start) :=
  ⟨skipBroken_suffix start w.ahead, rfl⟩

/-- Wherever reading stopped, recovery leaves less than there was before the statement. -/
theorem left_recover_lt {w v : Window} (reached : w.Reaches v) (some_left : 0 < w.left) :
    (v.recover w.current.position).left < w.left := by
  have recovered := (v.reaches_recover w.current.position).left_le
  have bound := reached.left_le
  by_cases same : v.left = w.left
  · rw [reached.eq_of_left_eq same]
    obtain ⟨token, rest, ahead⟩ : ∃ token rest, w.ahead = token :: rest :=
      List.exists_cons_of_length_pos some_left
    have tail := (skipBroken_suffix_tail token rest).length_le
    simp only [left, recover, current, ahead, List.headD_cons, List.length_cons]
    omega
  · omega

end Window

/-- What became of one statement of a source text. -/
abbrev Item := Except Diagnostic Statement

namespace Item

/-- The statement, unless it was broken. -/
def statement? : Item → Option Statement
  | .ok statement => some statement
  | .error _ => none

/-- The diagnostic of a broken statement. -/
def diagnostic? : Item → Option Diagnostic
  | .ok _ => none
  | .error d => some d

end Item

namespace Reading

/-- Where the next statement is looked for, after a statement has been read. -/
def resume {w : Window} (r : Reading w Statement) : Window :=
  match r.result with
  | .ok _ => r.window.advance
  | .error _ => r.window.recover w.current.position

/-- The next statement is looked for further on. -/
theorem left_resume_lt {w : Window} (r : Reading w Statement) (some_left : 0 < w.left) :
    r.resume.left < w.left := by
  have bound := r.reached.left_le
  rw [resume]
  split
  · rw [Window.left_advance]; omega
  · exact Window.left_recover_lt r.reached some_left

end Reading

/-- Reads statements until no token is left: what became of each, in order, and the window at the
end of the text. -/
def Handlers.readItems (h : Handlers) (w : Window) : List Item × Window :=
  if some_left : 0 < w.left then
    let r := h.readStatement w
    have := r.left_resume_lt some_left
    let later := h.readItems r.resume
    (r.result :: later.1, later.2)
  else ([], w)
termination_by w.left

/-- The statements that were sound, as a program. -/
def Program.ofItems (items : List Item) : Program := ⟨items.filterMap Item.statement?⟩

/-- The diagnostics of the statements that were broken. -/
def diagnosticsOfItems (items : List Item) : List Diagnostic := items.filterMap Item.diagnostic?

end Frontend
