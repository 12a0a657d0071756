import Frontend.Proofs.Readers
import Frontend.Tree.Statement

/-!
# The tokens of a tree

A tree keeps the tokens it was read from. `Expression.tokens` puts those of its nodes back into
reading order. `Faithful` says that the nodes fit their tokens, `Grouped` that the tree groups its
operators as their binding powers demand, and `Statement.SpelledBy` that a list of tokens is the
statement, token for token.
-/
namespace Frontend

/-- A token that is an operand by itself: a name, or an integer within the limit. -/
def Token.IsAtom (token : Token) : Prop :=
  token.kind = .identifier ∨
    token.kind = .integer ∧ Text.decimalValue token.literal.toList ≤ integerLimit

instance : DecidablePred Token.IsAtom := fun _ => inferInstanceAs (Decidable (_ ∨ _))

theorem integerValue?_isSome_iff (literal : String) :
    (integerValue? literal).isSome ↔ Text.decimalValue literal.toList ≤ integerLimit := by
  simp only [integerValue?]
  split <;> simp_all

theorem Token.isAtom_of_integerValue? {token : Token} {value : Int64} (kind : token.kind = .integer)
    (valued : integerValue? token.literal = some value) : token.IsAtom :=
  .inr ⟨kind, (integerValue?_isSome_iff token.literal).mp (by rw [valued]; rfl)⟩

namespace Expression

/-- The tokens of the nodes, in the order in which they are read. -/
def tokens : Expression → List Token
  | identifier name => [name.token]
  | integer token _ => [token]
  | unary token _ operand => token :: operand.tokens
  | binary token left _ right => left.tokens ++ token :: right.tokens

/-- Every node has a token of a kind that fits it, and its other fields are those of the token. -/
def Faithful : Expression → Prop
  | identifier name => name.token.kind = .identifier ∧ name.value = name.token.literal
  | integer token value => token.kind = .integer ∧ integerValue? token.literal = some value
  | unary token operator operand =>
    token.kind.IsSign ∧ operator = token.literal ∧ operand.Faithful
  | binary token left operator right =>
    token.kind ∈ Handlers.standardJoining ∧ operator = token.literal ∧
      left.Faithful ∧ right.Faithful

/-- The power of the operator at the root, if that joins two operands. -/
def power? : Expression → Option BindingPower
  | identifier _ => none
  | integer _ _ => none
  | unary _ _ _ => none
  | binary token _ _ _ => some token.kind.bindingPower

/-- The grouping that the binding powers demand. Operators of equal power group to the left, and
no operator before an operand reaches over one that joins two. -/
def Grouped : Expression → Prop
  | identifier _ => True
  | integer _ _ => True
  | unary _ _ operand => operand.power? = none ∧ operand.Grouped
  | binary token left _ right =>
    (∀ power ∈ left.power?, token.kind.bindingPower ≤ power) ∧
      (∀ power ∈ right.power?, token.kind.bindingPower < power) ∧ left.Grouped ∧ right.Grouped

theorem tokens_ne_nil (e : Expression) : e.tokens ≠ [] := by
  cases e <;> simp [tokens]

theorem Faithful.exists_tokens_eq_append {e : Expression} (faithful : e.Faithful) :
    ∃ before last, e.tokens = before ++ [last] ∧ last.IsAtom := by
  induction e with
  | identifier name => exact ⟨[], name.token, rfl, .inl faithful.1⟩
  | integer token value =>
    exact ⟨[], token, rfl, Token.isAtom_of_integerValue? faithful.1 faithful.2⟩
  | unary token operator operand ih =>
    obtain ⟨before, last, split, atom⟩ := ih faithful.2.2
    exact ⟨token :: before, last, by simp [tokens, split], atom⟩
  | binary token left operator right _ ih =>
    obtain ⟨before, last, split, atom⟩ := ih faithful.2.2.2
    exact ⟨left.tokens ++ token :: before, last, by simp [tokens, split], atom⟩

theorem Faithful.exists_tokens_eq_cons {e : Expression} (faithful : e.Faithful) :
    ∃ first rest, e.tokens = first :: rest ∧ (first.kind.IsSign ∨ first.IsAtom) := by
  induction e with
  | identifier name => exact ⟨name.token, [], rfl, .inr (.inl faithful.1)⟩
  | integer token value =>
    exact ⟨token, [], rfl, .inr (Token.isAtom_of_integerValue? faithful.1 faithful.2)⟩
  | unary token operator operand _ => exact ⟨token, operand.tokens, rfl, .inl faithful.1⟩
  | binary token left operator right ih _ =>
    obtain ⟨first, rest, split, begins⟩ := ih faithful.2.2.1
    exact ⟨first, rest ++ token :: right.tokens, by simp [tokens, split], begins⟩

end Expression

namespace Statement

/-- The tokens of a statement, its semicolon left out. -/
inductive SpelledBy : Statement → List Token → Prop
  | binding {keyword name sign : Token} {value : Expression} :
      keyword.kind = .letKeyword → name.kind = .identifier → sign.kind = .assignment →
      value.Faithful →
      SpelledBy (.binding keyword ⟨name, name.literal⟩ value)
        (keyword :: name :: sign :: value.tokens)
  | returning {keyword : Token} {value : Expression} :
      keyword.kind = .returnKeyword → value.Faithful →
      SpelledBy (.returning keyword value) (keyword :: value.tokens)
  | bare {first : Token} {value : Expression} :
      value.tokens.head? = some first → value.Faithful →
      SpelledBy (.bare first value) value.tokens

end Statement

end Frontend
