/-!
# Positions

A position is a byte offset into a source text. Offsets are kept in 32 bits: one that does not fit
is replaced by the largest that does, so a position never wraps round to the start of the text.
-/
namespace Frontend

/-- A byte offset into a source text. -/
structure Position where
  offset : Nat
  deriving DecidableEq, Repr, Inhabited

namespace Position

/-- The largest offset a position holds, all 32 bits set. -/
def limit : Nat := 0xFFFFFFFF

/-- The position of an offset; offsets past the limit saturate. -/
def ofOffset (n : Nat) : Position := ⟨min n limit⟩

/-- The beginning of a text. -/
def start : Position := ⟨0⟩

theorem ofOffset_offset_le (n : Nat) : (ofOffset n).offset ≤ limit := Nat.min_le_right n limit

theorem ofOffset_of_le {n : Nat} (fits : n ≤ limit) : ofOffset n = ⟨n⟩ := by
  simp [ofOffset, Nat.min_eq_left fits]

end Position

end Frontend
