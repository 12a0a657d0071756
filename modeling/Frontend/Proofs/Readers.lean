import Frontend.Grammar.Expression

/-!
# Opening the readers

One equation for each branch of the four readers of expressions, with the proofs that their
definitions carry for termination left out, which hold for any table of handlers; and what the
standard table says of each kind.
-/
namespace Frontend

namespace Window

theorem final_eq_of_reaches {w v : Window} (reached : w.Reaches v) : v.final = w.final := by
  rw [final, final, reached.2]

section

variable {w : Window} {token : Token} {rest : List Token}

theorem current_of_ahead (ahead : w.ahead = token :: rest) : w.current = token := by
  rw [current, ahead, List.headD_cons]

theorem peek_of_ahead (ahead : w.ahead = token :: rest) : w.peek = rest.headD w.final := by
  rw [peek, ahead, List.tail_cons]

theorem advance_of_ahead (ahead : w.ahead = token :: rest) : w.advance.ahead = rest := by
  rw [advance, ahead, List.tail_cons]

end

section

variable {w : Window} (empty : w.ahead = [])

include empty

theorem current_of_ahead_nil : w.current = w.final := by rw [current, empty, List.headD_nil]

theorem current_kind_of_ahead_nil : w.current.kind = .endOfInput := by
  rw [current_of_ahead_nil empty]
  rfl

theorem advance_of_ahead_nil : w.advance = w := by
  obtain ⟨ahead, finish⟩ := w
  cases empty
  rfl

end

theorem exists_tail_of_peek {w : Window} (inside : w.peek.kind ≠ .endOfInput) :
    ∃ token rest, w.ahead.tail = token :: rest ∧ w.peek = token := by
  cases tail : w.ahead.tail with
  | nil =>
    -- behind the last token, only the end of the text is seen
    rw [peek, tail, List.headD_nil] at inside
    exact absurd rfl inside
  | cons token rest => exact ⟨token, rest, rfl, by rw [peek, tail, List.headD_cons]⟩

end Window

/-- A token that is no name and no integer is no operand. -/
theorem readOperand_of_other {w : Window} (noName : w.current.kind ≠ .identifier)
    (noInteger : w.current.kind ≠ .integer) :
    readOperand w = .fail w (missingOperand w.current) := by
  rw [readOperand]
  split
  next name => exact absurd name noName
  next integer => exact absurd integer noInteger
  next => rfl

namespace Handlers

variable {h : Handlers} {w : Window}

theorem readExpression_of_none {minimum : BindingPower}
    (missing : h.leading w.current.kind = none) :
    h.readExpression minimum w = .fail w (missingOperand w.current) := by
  rw [readExpression]
  split
  · rfl
  next handler found => rw [missing] at found; cases found

theorem readExpression_of_some {minimum : BindingPower} {handler : LeadingHandler}
    (found : h.leading w.current.kind = some handler) :
    h.readExpression minimum w =
      (h.readLeading handler w).andThen fun left v _ => h.readFurther minimum left v := by
  rw [readExpression]
  split
  next missing => rw [missing] at found; cases found
  next other same =>
    rw [found] at same
    cases same
    rfl

theorem readLeading_operand : h.readLeading .operand w = readOperand w := by rw [readLeading]

theorem readLeading_unary (some_left : 0 < w.left) :
    h.readLeading .unary w =
      .further w.reaches_advance ((h.readExpression .unary w.advance).map fun operand =>
        .unary w.current w.current.literal operand) := by
  rw [readLeading, if_pos some_left]

theorem readFurther_of_joining {minimum : BindingPower} {left : Expression}
    (tighter : minimum < w.peek.kind.bindingPower) (joins : h.joining w.peek.kind = true) :
    h.readFurther minimum left w =
      .further w.reaches_advance
        ((h.readBinary left w.peek.kind.bindingPower w.advance).andThen fun joined v _ =>
          h.readFurther minimum joined v) := by
  rw [readFurther, dif_pos ⟨tighter, joins⟩]

theorem readFurther_of_not {minimum : BindingPower} {left : Expression}
    (stops : ¬ (minimum < w.peek.kind.bindingPower ∧ h.joining w.peek.kind = true)) :
    h.readFurther minimum left w = .done w left := by
  rw [readFurther, dif_neg stops]

theorem readBinary_eq {left : Expression} {power : BindingPower} :
    h.readBinary left power w =
      .further w.reaches_advance ((h.readExpression power w.advance).map fun right =>
        .binary w.current left w.current.literal right) := by
  rw [readBinary]

end Handlers

/-! ### The standard table -/

/-- The kinds of an operator before its operand. -/
def Kind.IsSign (kind : Kind) : Prop := kind = .not ∨ kind = .dash

instance : DecidablePred Kind.IsSign := fun _ => inferInstanceAs (Decidable (_ ∨ _))

theorem standard_joining_iff (kind : Kind) :
    Handlers.standard.joining kind = true ↔ kind ∈ Handlers.standardJoining := by
  cases kind <;> decide

theorem standard_leading_eq_none_iff (kind : Kind) :
    Handlers.standard.leading kind = none ↔
      kind ≠ .identifier ∧ kind ≠ .integer ∧ ¬ kind.IsSign := by
  cases kind <;> decide

theorem standard_leading_eq_unary_iff (kind : Kind) :
    Handlers.standard.leading kind = some .unary ↔ kind.IsSign := by
  cases kind <;> decide

theorem standard_leading_eq_operand_iff (kind : Kind) :
    Handlers.standard.leading kind = some .operand ↔ kind = .identifier ∨ kind = .integer := by
  cases kind <;> decide

/-- Every operator between operands binds, and binds less tightly than one before its operand. -/
theorem bindingPower_of_mem_standardJoining {kind : Kind}
    (joins : kind ∈ Handlers.standardJoining) :
    BindingPower.default < kind.bindingPower ∧ kind.bindingPower < .unary := by
  revert joins
  cases kind <;> decide

end Frontend
