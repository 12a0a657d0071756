import Frontend.Grammar.Handlers
import Frontend.Grammar.Reading
import Frontend.Text.Decimal
import Frontend.Tree.Expression

/-!
# Reading expressions

An expression is an operand followed by operators and further operands. `readExpression` takes a
minimum power and goes on as long as the next operator binds more tightly than that; the right
operand of an operator is read with the operator's own power as the minimum, so operators of equal
power group to the left. Reading stops on the last token of the expression.

The four readers call one another. Each call either passes a token or goes down a level from
`readBinary` through `readExpression` and `readLeading` to `readFurther`, and this is their measure.
-/
namespace Frontend

/-- The diagnostic for a token that cannot begin an operand. -/
def missingOperand (token : Token) : Diagnostic :=
  if token.kind = .illegal then ⟨.illegalToken token.literal, token.position⟩
  else ⟨.missingOperand token.kind, token.position⟩

/-- The largest integer that can be written, the largest of 64 bits with a sign. -/
def integerLimit : Nat := 0x7FFFFFFFFFFFFFFF

/-- The value of an integer token, if it is within the limit. -/
def integerValue? (literal : String) : Option Int64 :=
  let value := Text.decimalValue literal.toList
  if value ≤ integerLimit then some (Int64.ofNat value) else none

/-- Reads a name or an integer, which is the current token. -/
def readOperand (w : Window) : Reading w Expression :=
  let token := w.current
  match token.kind with
  | .identifier => .done w (.identifier ⟨token, token.literal⟩)
  | .integer =>
    match integerValue? token.literal with
    | some value => .done w (.integer token value)
    | none => .fail w ⟨.integerOutOfRange token.literal, token.position⟩
  | _ => .fail w (missingOperand token)

/-- An operator that binds at all is followed by the end of the text at the earliest. -/
theorem Window.left_pos_of_lt_bindingPower {w : Window} {minimum : BindingPower}
    (tighter : minimum < w.peek.kind.bindingPower) : 0 < w.left := by
  apply Nat.pos_of_ne_zero
  intro none_left
  have empty : w.ahead = [] := List.length_eq_zero_iff.mp none_left
  have ends : w.peek.kind = .endOfInput := by simp [peek, empty, final, Token.endOfInput]
  rw [ends] at tighter
  exact BindingPower.not_lt_default minimum tighter

namespace Handlers

mutual

/-- Reads an expression whose operators all bind more tightly than `minimum`. -/
def readExpression (h : Handlers) (minimum : BindingPower) (w : Window) : Reading w Expression :=
  match h.leading w.current.kind with
  | none => .fail w (missingOperand w.current)
  | some handler =>
    (h.readLeading handler w).andThen fun left v reached =>
      have := reached.left_le
      h.readFurther minimum left v
termination_by 5 * w.left + 2

/-- Reads the beginning of an expression: an operand, or an operator and its operand. At the end
of the text there is no operator to be read, so an operand is missing. -/
def readLeading (h : Handlers) (handler : LeadingHandler) (w : Window) : Reading w Expression :=
  match handler with
  | .operand => readOperand w
  | .unary =>
    if 0 < w.left then
      let operator := w.current
      .further w.reaches_advance <|
        (h.readExpression .unary w.advance).map fun operand =>
          .unary operator operator.literal operand
    else .fail w (missingOperand w.current)
termination_by 5 * w.left + 1

/-- Reads on behind an expression while operators follow that bind more tightly than `minimum`. -/
def readFurther (h : Handlers) (minimum : BindingPower) (left : Expression) (w : Window) :
    Reading w Expression :=
  if goesOn : minimum < w.peek.kind.bindingPower ∧ h.joining w.peek.kind = true then
    .further w.reaches_advance <|
      (h.readBinary left w.peek.kind.bindingPower w.advance).andThen fun joined v reached =>
        -- The operator has been passed, so fewer tokens are left.
        have := Window.left_lt_of_reaches_advance reached
          (Window.left_pos_of_lt_bindingPower goesOn.1)
        h.readFurther minimum joined v
  else .done w left
termination_by 5 * w.left
decreasing_by
  · have := Window.left_pos_of_lt_bindingPower goesOn.1
    simp only [Window.left_advance]
    omega
  · omega

/-- Reads an operator, which is the current token, and its right operand. -/
def readBinary (h : Handlers) (left : Expression) (power : BindingPower) (w : Window) :
    Reading w Expression :=
  let operator := w.current
  .further w.reaches_advance <|
    (h.readExpression power w.advance).map fun right =>
      .binary operator left operator.literal right
termination_by 5 * w.left + 3

end

end Handlers

end Frontend
