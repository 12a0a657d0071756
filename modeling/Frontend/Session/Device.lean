/-!
# Output devices

A device keeps what is written to it. It may have room for a limited number of bytes: a writing
that does not fit fills the device to the last byte and fails.
-/
namespace Frontend

/-- A device, with what was written to it. -/
structure Device where
  written : ByteArray
  /-- How many more bytes fit; `none` if there is no limit. -/
  room : Option Nat

namespace Device

/-- An empty device, with room for `limit` bytes if there is a limit. -/
def blank (limit : Option Nat) : Device := ⟨ByteArray.empty, limit⟩

/-- Writes as many of the bytes as fit, and says whether all of them did. -/
def append (d : Device) (bytes : ByteArray) : Bool × Device :=
  match d.room with
  | none => (true, ⟨d.written ++ bytes, none⟩)
  | some room =>
    if bytes.size ≤ room then (true, ⟨d.written ++ bytes, some (room - bytes.size)⟩)
    else (false, ⟨d.written ++ bytes.extract 0 room, some 0⟩)

end Device

end Frontend
