import Frontend.Text.Ranges

/-!
# White space

The characters with the Unicode property White_Space, and texts without them at their ends.
-/
namespace Frontend.Text

/-- Ranges of the property White_Space. -/
def whitespaceRanges : List (Nat × Nat) :=
  [(0x09, 0x0D), (0x20, 0x20), (0x85, 0x85), (0xA0, 0xA0), (0x1680, 0x1680), (0x2000, 0x200A),
    (0x2028, 0x2029), (0x202F, 0x202F), (0x205F, 0x205F), (0x3000, 0x3000)]

def isWhitespace (c : Char) : Bool := inRanges whitespaceRanges c

/-- The text without the white space at its end. -/
def trimEnd (cs : List Char) : List Char := (cs.reverse.dropWhile isWhitespace).reverse

/-- The text without the white space at both ends. -/
def trim (cs : List Char) : List Char := trimEnd (cs.dropWhile isWhitespace)

/-- What is trimmed off is a suffix of white space. -/
theorem eq_trimEnd_append (cs : List Char) :
    ∃ blank, cs = trimEnd cs ++ blank ∧ ∀ c ∈ blank, isWhitespace c = true := by
  refine ⟨(cs.reverse.takeWhile isWhitespace).reverse, ?_, ?_⟩
  · rw [trimEnd, ← List.reverse_append, List.takeWhile_append_dropWhile, List.reverse_reverse]
  · intro c member
    have taken : c ∈ cs.reverse.takeWhile isWhitespace := List.mem_reverse.mp member
    have all := List.all_takeWhile (p := isWhitespace) (l := cs.reverse)
    exact List.all_eq_true.mp all c taken

end Frontend.Text
