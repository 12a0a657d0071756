import Frontend.Token.Kind

/-!
# Binding powers

How tightly an operator holds its operands. Powers are ordered; a kind that is no operator has the
lowest power, so no expression ever goes on past it.
-/
namespace Frontend

/-- Operator precedence, loosest first. -/
inductive BindingPower where
  | default
  | equality
  | relational
  | additive
  | multiplicative
  | unary
  | call
  deriving DecidableEq, Repr, Inhabited

namespace BindingPower

/-- The place of a power in the order. -/
def rank : BindingPower → Nat
  | default => 0
  | equality => 1
  | relational => 2
  | additive => 3
  | multiplicative => 4
  | unary => 5
  | call => 6

instance : LT BindingPower := ⟨fun a b => a.rank < b.rank⟩

instance : LE BindingPower := ⟨fun a b => a.rank ≤ b.rank⟩

instance (a b : BindingPower) : Decidable (a < b) := inferInstanceAs (Decidable (a.rank < b.rank))

instance (a b : BindingPower) : Decidable (a ≤ b) := inferInstanceAs (Decidable (a.rank ≤ b.rank))

instance : Ord BindingPower := ⟨fun a b => compare a.rank b.rank⟩

theorem lt_iff_rank_lt (a b : BindingPower) : a < b ↔ a.rank < b.rank := Iff.rfl

theorem le_iff_rank_le (a b : BindingPower) : a ≤ b ↔ a.rank ≤ b.rank := Iff.rfl

theorem not_lt_default (a : BindingPower) : ¬ a < default := by
  rw [lt_iff_rank_lt]; exact Nat.not_lt_zero _

end BindingPower

namespace Kind

/-- The power of a kind in the place of an operator between two operands. -/
def bindingPower : Kind → BindingPower
  | equals | notEquals => .equality
  | less | greater => .relational
  | plus | dash => .additive
  | star | slash => .multiplicative
  | openParen => .call
  | _ => .default

end Kind

end Frontend
