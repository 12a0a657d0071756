import Frontend.Session.Device

/-!
# Sessions

A session is a computation that writes to a device and may stop early, because the device is full,
because what it is given is not text, or because a diagnostic has no display. Whatever stops it, what
was written before stays written.
-/
namespace Frontend

/-- What stops a session before its end. -/
inductive Stop where
  /-- The device has no room for what is to be written. -/
  | deviceFull
  /-- A line of input is not valid UTF-8. -/
  | notText
  /-- A diagnostic is too far from the start of its line to be displayed. -/
  | tooWide
  deriving DecidableEq, Repr

/-- A computation that writes to a device. -/
abbrev Session := ExceptT Stop (StateM Device)

namespace Session

def write (text : String) : Session Unit := do
  let (fits, device) := (← get).append text.toByteArray
  set device
  unless fits do throw .deviceFull

/-- What a session comes to on a device that is empty and has the given limit, and what it wrote. -/
def onBlank {α : Type} (session : Session α) (limit : Option Nat) : Except Stop α × ByteArray :=
  let (result, device) := session (.blank limit)
  (result, device.written)

end Session

end Frontend
