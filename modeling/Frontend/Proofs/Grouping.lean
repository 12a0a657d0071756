import Frontend.Proofs.Readers
import Frontend.Proofs.TreeTokens

/-!
# Grouping by binding power

Whatever handlers the kinds have been given, the expressions that are read are layered by binding
power: a right operand binds more tightly than its operator, a left operand at least as tightly,
and the operand of a sign can only be a chain of calls. Under the handlers of the language this is
`Expression.Grouped`, the grouping of the language.

What carries the induction is that reading stops ahead of everything that the minimum power leaves
to the caller (`StopsAt`): an operator that comes behind a joined expression does not bind more
tightly than the expression's own operator, so the expression may become its left operand.
-/
namespace Frontend

namespace Expression

/-- The layering that holds under every table of handlers. -/
def Layered : Expression → Prop
  | identifier _ => True
  | integer _ _ => True
  | unary _ _ operand => (∀ power ∈ operand.power?, power = .call) ∧ operand.Layered
  | binary token left _ right =>
    .default < token.kind.bindingPower ∧
      (∀ power ∈ left.power?, token.kind.bindingPower ≤ power) ∧
      (∀ power ∈ right.power?, token.kind.bindingPower < power) ∧ left.Layered ∧ right.Layered

theorem Layered.grouped {e : Expression} (layered : e.Layered) (faithful : e.Faithful) :
    e.Grouped := by
  induction e with
  | identifier name => trivial
  | integer token value => trivial
  | unary token operator operand ih =>
    refine ⟨?_, ih layered.2 faithful.2.2⟩
    cases operand with
    | binary inner left operator right =>
      -- an operator of the language would have to be a call
      have call : inner.kind.bindingPower = .call := layered.1 _ rfl
      have looser := (bindingPower_of_mem_standardJoining faithful.2.2.1).2
      rw [call] at looser
      exact absurd looser (by decide)
    | _ => rfl
  | binary token left operator right leftIh rightIh =>
    obtain ⟨-, below, above, leftLayered, rightLayered⟩ := layered
    exact ⟨below, above, leftIh leftLayered faithful.2.2.1, rightIh rightLayered faithful.2.2.2⟩

end Expression

/-- No operator that binds more tightly than `minimum` comes next. -/
def Handlers.StopsAt (h : Handlers) (minimum : BindingPower) (w : Window) : Prop :=
  ¬ (minimum < w.peek.kind.bindingPower ∧ h.joining w.peek.kind = true)

/-- What holds of an expression that is read with a minimum power, and of the place where reading
stops. -/
structure Handlers.Binds (h : Handlers) (minimum : BindingPower) (e : Expression) (w : Window) :
    Prop where
  layered : e.Layered
  tighter : ∀ power ∈ e.power?, minimum < power
  stops : h.StopsAt minimum w

namespace Reading

variable {α β : Type} {w : Window}

theorem andThen_eq_ok {r : Reading w α} {next : α → (v : Window) → w.Reaches v → Reading v β}
    {b : β} (read : (r.andThen next).result = .ok b) :
    ∃ a, r.result = .ok a ∧ (next a r.window r.reached).result = .ok b ∧
      (r.andThen next).window = (next a r.window r.reached).window := by
  cases first : r.result with
  | error d => rw [andThen_of_error first] at read; cases read
  | ok a =>
    rw [andThen_of_ok first] at read ⊢
    exact ⟨a, rfl, read, rfl⟩

theorem map_eq_ok {r : Reading w α} {f : α → β} {b : β} (read : (r.map f).result = .ok b) :
    ∃ a, r.result = .ok a ∧ f a = b := by
  rw [result_map] at read
  cases first : r.result with
  | error d => rw [first] at read; cases read
  | ok a =>
    rw [first] at read
    exact ⟨a, rfl, Except.ok.inj read⟩

end Reading

theorem readOperand_layered {w : Window} {e : Expression} (read : (readOperand w).result = .ok e) :
    e.Layered ∧ e.power? = none := by
  rw [readOperand] at read
  split at read
  · cases read; exact ⟨trivial, rfl⟩
  · split at read
    · cases read; exact ⟨trivial, rfl⟩
    · cases read
  · cases read

namespace Handlers

variable (h : Handlers)

private theorem readers_bind :
    (∀ minimum w e, (h.readExpression minimum w).result = .ok e →
      h.Binds minimum e (h.readExpression minimum w).window) ∧
    (∀ minimum left w, left.Layered → (∀ power ∈ left.power?, minimum < power ∧ h.StopsAt power w) →
      ∀ e, (h.readFurther minimum left w).result = .ok e →
        h.Binds minimum e (h.readFurther minimum left w).window) ∧
    (∀ left power w, left.Layered → (∀ other ∈ left.power?, power ≤ other) → .default < power →
      power = w.current.kind.bindingPower → ∀ e, (h.readBinary left power w).result = .ok e →
        e.Layered ∧ e.power? = some power ∧ h.StopsAt power (h.readBinary left power w).window) ∧
    (∀ handler w e, (h.readLeading handler w).result = .ok e → e.Layered ∧ e.power? = none) := by
  apply readExpression.mutual_induct
  case case1 =>
    -- no operand begins at the current token
    intro minimum w missing e read
    rw [readExpression_of_none missing] at read
    cases read
  case case2 =>
    -- a first operand, and what follows it
    intro minimum w handler found leading further e read
    rw [readExpression_of_some found] at read ⊢
    obtain ⟨left, readLeft, readRest, stopped⟩ := Reading.andThen_eq_ok read
    obtain ⟨layered, single⟩ := leading left readLeft
    rw [stopped]
    exact further left _ (Reading.reached _) layered (by simp [single]) e readRest
  case case3 =>
    -- an operator that binds tightly enough
    intro minimum left w ⟨tighter, joins⟩ binary further layered bounds e read
    rw [readFurther_of_joining tighter joins] at read ⊢
    rw [Reading.result_further] at read
    obtain ⟨joined, readJoined, readRest, stopped⟩ := Reading.andThen_eq_ok read
    -- what has been joined so far stopped ahead of this operator
    have below : ∀ power ∈ left.power?, w.peek.kind.bindingPower ≤ power := by
      intro power root
      have stops := (bounds power root).2
      rw [BindingPower.le_iff_rank_le]
      rw [StopsAt, BindingPower.lt_iff_rank_lt] at stops
      exact Nat.not_lt.mp fun less => stops ⟨less, joins⟩
    have positive : BindingPower.default < w.peek.kind.bindingPower := by
      rw [BindingPower.lt_iff_rank_lt] at tighter ⊢
      exact Nat.lt_of_le_of_lt (Nat.zero_le _) tighter
    obtain ⟨joinedLayered, root, stops⟩ :=
      binary layered below positive (by rw [Window.current_advance]) joined readJoined
    rw [Reading.window_further, stopped]
    refine further joined _ (Reading.reached _) joinedLayered ?_ e readRest
    intro power same
    obtain rfl := Option.some.inj (root.symm.trans same)
    exact ⟨tighter, stops⟩
  case case4 =>
    -- the expression ends
    intro minimum left w stops layered bounds e read
    rw [readFurther_of_not stops] at read ⊢
    cases read
    exact ⟨layered, fun power root => (bounds power root).1, stops⟩
  case case5 =>
    -- an operator and its right operand
    intro left power w right layered below positive own e read
    rw [readBinary_eq] at read ⊢
    rw [Reading.result_further] at read
    obtain ⟨operand, readOperand, rfl⟩ := Reading.map_eq_ok read
    obtain ⟨operandLayered, above, stops⟩ := right operand readOperand
    subst own
    exact ⟨⟨positive, below, above, layered, operandLayered⟩, rfl, stops⟩
  case case6 =>
    -- an operand by itself
    intro w e read
    rw [readLeading_operand] at read
    exact readOperand_layered read
  case case7 =>
    -- a sign and its operand
    intro w some_left operand e read
    rw [readLeading_unary some_left, Reading.result_further] at read
    obtain ⟨inner, readInner, rfl⟩ := Reading.map_eq_ok read
    obtain ⟨layered, above, -⟩ := operand inner readInner
    refine ⟨⟨fun power root => ?_, layered⟩, rfl⟩
    -- only a call binds more tightly than a sign
    have tighter := above power root
    revert tighter
    cases power <;> decide
  case case8 =>
    -- no operand follows the end of the text
    intro w none_left e read
    rw [readLeading, if_neg none_left] at read
    cases read

/-- Under any table of handlers, an expression is layered, binds more tightly than the minimum,
and ends ahead of what does not. -/
theorem readExpression_binds {minimum : BindingPower} {w : Window} {e : Expression}
    (read : (h.readExpression minimum w).result = .ok e) :
    h.Binds minimum e (h.readExpression minimum w).window :=
  (readers_bind h).1 minimum w e read

theorem readLeading_layered {handler : LeadingHandler} {w : Window} {e : Expression}
    (read : (h.readLeading handler w).result = .ok e) : e.Layered :=
  ((readers_bind h).2.2.2 handler w e read).1

/-- An operator joins what it binds less tightly than. -/
theorem readBinary_layered {left e : Expression} {w : Window} (layered : left.Layered)
    (below : ∀ power ∈ left.power?, w.current.kind.bindingPower ≤ power)
    (binds : .default < w.current.kind.bindingPower)
    (read : (h.readBinary left w.current.kind.bindingPower w).result = .ok e) : e.Layered :=
  ((readers_bind h).2.2.1 left _ w layered below binds rfl e read).1

end Handlers

end Frontend
