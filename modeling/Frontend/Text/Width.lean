/-!
# Width of a text in bytes

Offsets count bytes of UTF-8 while texts are lists of characters. `byteLength` measures a list of
characters, and `dropBytes?` cuts one at a byte offset, which succeeds exactly between characters.
-/
namespace Frontend.Text

/-- The number of bytes that the characters take in UTF-8. -/
def byteLength : List Char → Nat
  | [] => 0
  | c :: cs => c.utf8Size + byteLength cs

@[simp] theorem byteLength_nil : byteLength [] = 0 := rfl

@[simp] theorem byteLength_cons (c : Char) (cs : List Char) :
    byteLength (c :: cs) = c.utf8Size + byteLength cs := rfl

@[simp] theorem byteLength_append (cs ds : List Char) :
    byteLength (cs ++ ds) = byteLength cs + byteLength ds := by
  induction cs with
  | nil => simp
  | cons c cs ih => rw [List.cons_append, byteLength_cons, ih, byteLength_cons, Nat.add_assoc]

theorem byteLength_pos {cs : List Char} (nonempty : cs ≠ []) : 0 < byteLength cs := by
  cases cs with
  | nil => exact absurd rfl nonempty
  | cons c cs =>
    have positive := c.utf8Size_pos
    rw [byteLength_cons]
    omega

/-- What follows the first `n` bytes; `none` if that point is inside a character or past the end. -/
def dropBytes? : List Char → Nat → Option (List Char)
  | cs, 0 => some cs
  | [], _ + 1 => none
  | c :: cs, n + 1 => if c.utf8Size ≤ n + 1 then dropBytes? cs (n + 1 - c.utf8Size) else none

@[simp] theorem dropBytes?_zero (cs : List Char) : dropBytes? cs 0 = some cs := by
  cases cs <;> rfl

/-- Cutting behind a prefix gives the rest. -/
theorem dropBytes?_append (cs ds : List Char) :
    dropBytes? (cs ++ ds) (byteLength cs) = some ds := by
  induction cs with
  | nil => simp
  | cons c cs ih =>
    have positive := c.utf8Size_pos
    obtain ⟨n, total⟩ : ∃ n, byteLength (c :: cs) = n + 1 :=
      ⟨byteLength (c :: cs) - 1, by simp only [byteLength_cons]; omega⟩
    have below : c.utf8Size ≤ n + 1 := by rw [← total, byteLength_cons]; omega
    have left : n + 1 - c.utf8Size = byteLength cs := by rw [← total, byteLength_cons]; omega
    rw [total, List.cons_append, dropBytes?, if_pos below, left, ih]

/-- A cut that succeeds splits the text there. -/
theorem eq_append_of_dropBytes? {cs rest : List Char} {n : Nat}
    (cut : dropBytes? cs n = some rest) :
    ∃ before, cs = before ++ rest ∧ byteLength before = n := by
  induction cs generalizing n with
  | nil =>
    cases n with
    | zero => exact ⟨[], by simpa using cut, rfl⟩
    | succ n => simp [dropBytes?] at cut
  | cons c cs ih =>
    cases n with
    | zero => exact ⟨[], by simpa using cut, rfl⟩
    | succ n =>
      rw [dropBytes?] at cut
      split at cut
      · obtain ⟨before, split, width⟩ := ih cut
        exact ⟨c :: before, by simp [split], by simp only [byteLength_cons]; omega⟩
      · simp at cut

end Frontend.Text
