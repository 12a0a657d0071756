import Frontend.Diagnostic.Basic
import Frontend.Token.Window

/-!
# Readings

Reading from a window gives a value or a diagnostic, and in both cases the window where reading
stopped. That window is reached from the first one, so readings never step back; this is the fact
that makes reading terminate.
-/
namespace Frontend

/-- The outcome of reading from a window. -/
structure Reading (start : Window) (α : Type) where
  result : Except Diagnostic α
  /-- Where reading stopped. -/
  window : Window
  reached : start.Reaches window

namespace Reading

variable {α β : Type} {w : Window}

/-- A value, without moving. -/
def done (w : Window) (a : α) : Reading w α := ⟨.ok a, w, .refl w⟩

/-- A diagnostic, without moving. -/
def fail (w : Window) (d : Diagnostic) : Reading w α := ⟨.error d, w, .refl w⟩

/-- A reading that begins further on, seen from `w`. -/
def further {v : Window} (reached : w.Reaches v) (r : Reading v α) : Reading w α :=
  ⟨r.result, r.window, reached.trans r.reached⟩

/-- Reads on from where `r` stopped, if `r` gave a value. -/
def andThen (r : Reading w α) (next : α → (v : Window) → w.Reaches v → Reading v β) :
    Reading w β :=
  match r.result with
  | .ok a => (next a r.window r.reached).further r.reached
  | .error d => ⟨.error d, r.window, r.reached⟩

/-- The reading with its value changed. -/
def map (f : α → β) (r : Reading w α) : Reading w β := ⟨r.result.map f, r.window, r.reached⟩

/-- Passes an optional token behind a value. -/
def thenOptional (kind : Kind) (r : Reading w α) : Reading w α :=
  r.andThen fun a v _ => ⟨.ok a, v.skipOptional kind, v.reaches_skipOptional kind⟩

@[simp] theorem result_done (w : Window) (a : α) : (done w a).result = .ok a := rfl

@[simp] theorem window_done (w : Window) (a : α) : (done w a).window = w := rfl

@[simp] theorem result_fail (w : Window) (d : Diagnostic) :
    (fail w d : Reading w α).result = .error d := rfl

@[simp] theorem window_fail (w : Window) (d : Diagnostic) :
    (fail w d : Reading w α).window = w := rfl

@[simp] theorem result_further {v : Window} (reached : w.Reaches v) (r : Reading v α) :
    (r.further reached).result = r.result := rfl

@[simp] theorem window_further {v : Window} (reached : w.Reaches v) (r : Reading v α) :
    (r.further reached).window = r.window := rfl

@[simp] theorem result_map (f : α → β) (r : Reading w α) : (r.map f).result = r.result.map f := rfl

@[simp] theorem window_map (f : α → β) (r : Reading w α) : (r.map f).window = r.window := rfl

/-- Behind a value, reading on decides. -/
theorem andThen_of_ok {r : Reading w α} {a : α} (read : r.result = .ok a)
    (next : α → (v : Window) → w.Reaches v → Reading v β) :
    r.andThen next = (next a r.window r.reached).further r.reached := by
  rw [andThen]
  split
  next b same =>
    rw [read] at same
    cases same
    rfl
  next d failed =>
    rw [read] at failed
    cases failed

/-- A diagnostic is final. -/
theorem andThen_of_error {r : Reading w α} {d : Diagnostic} (failed : r.result = .error d)
    (next : α → (v : Window) → w.Reaches v → Reading v β) :
    r.andThen next = ⟨.error d, r.window, r.reached⟩ := by
  rw [andThen]
  split
  next a read =>
    rw [failed] at read
    cases read
  next e same =>
    rw [failed] at same
    cases same
    rfl

end Reading

namespace Window

/-- Steps onto the next token, which has to be of the given kind. -/
def expect (kind : Kind) (w : Window) : Reading w Token :=
  if w.peek.kind = kind then ⟨.ok w.peek, w.advance, w.reaches_advance⟩
  else .fail w ⟨.unexpectedToken kind w.peek.kind, w.peek.position⟩

end Window

end Frontend
