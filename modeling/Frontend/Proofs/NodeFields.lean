import Frontend.Proofs.UnambiguousText
import Mathlib.Algebra.Ring.Int.Defs
import Mathlib.Algebra.Ring.Nat

/-!
# The fields of a node

Every node of a program keeps a token of the text, and the fields of the node are told by that token
(`nodes_agree_with_tokens`). In particular the value of an integer is the number that its digits
stand for, however many they are: a number above the limit is never wrapped round to one below, since
its token is kept by no node.
-/
namespace Frontend

/-! ### Nodes and tokens -/

namespace Expression

/-- What the token of a node says of the kind of the node and of its fields. -/
def AgreesWithToken : Expression → Prop
  | identifier name => name.token.kind = .identifier ∧ name.value = name.token.literal
  | integer token value =>
    token.kind = .integer ∧ value.toInt = Text.decimalValue token.literal.toList ∧
      0 ≤ value.toInt ∧ value.toInt ≤ 2 ^ 63 - 1
  | unary token operator _ => token.kind.IsSign ∧ operator = token.literal
  | binary token _ operator _ =>
    token.kind ∈ Handlers.standardJoining ∧ operator = token.literal

/-- The tokens of an expression are those of its nodes. -/
theorem mem_tokens_iff {e : Expression} {token : Token} :
    token ∈ e.tokens ↔ ∃ f ∈ e.nodes, f.token = token := by
  induction e with
  | identifier name => simp [tokens, nodes, Expression.token, eq_comm]
  | integer own value => simp [tokens, nodes, Expression.token, eq_comm]
  | unary own operator operand ih => simp [tokens, nodes, Expression.token, ih, eq_comm]
  | binary own left operator right leftIh rightIh =>
    simp only [tokens, nodes, List.mem_append, List.mem_cons, leftIh, rightIh, or_and_right,
      exists_or, exists_eq_left, Expression.token]
    rw [or_left_comm, eq_comm]

/-- A literal that has a value as an integer has its decimal value, which is within the limit. -/
theorem toInt_of_integerValue? {literal : String} {value : Int64}
    (valued : integerValue? literal = some value) :
    value.toInt = Text.decimalValue literal.toList ∧
      Text.decimalValue literal.toList ≤ integerLimit := by
  simp only [integerValue?] at valued
  split at valued
  next within =>
    cases valued
    exact ⟨Int64.toInt_ofNat_of_lt (Nat.lt_succ_of_le within), within⟩
  · cases valued

theorem Faithful.agreesWithToken {e : Expression} (faithful : e.Faithful) : e.AgreesWithToken := by
  cases e with
  | identifier name => exact faithful
  | integer token value =>
    obtain ⟨value_eq, within⟩ := toInt_of_integerValue? faithful.2
    have limit : (integerLimit : Int) = 2 ^ 63 - 1 := rfl
    exact ⟨faithful.1, value_eq, by omega, by omega⟩
  | unary token operator operand => exact ⟨faithful.1, faithful.2.1⟩
  | binary token left operator right => exact ⟨faithful.1, faithful.2.1⟩

/-- The token of a node is an integer only if its number is within the limit. -/
theorem AgreesWithToken.decimalValue_le {e : Expression} (agrees : e.AgreesWithToken)
    (integer : e.token.kind = .integer) :
    Text.decimalValue e.token.literal.toList ≤ 2 ^ 63 - 1 := by
  cases e with
  | identifier name =>
    have kind : name.token.kind = .identifier := agrees.1
    exact absurd (kind.symm.trans integer) (by decide)
  | integer token value =>
    obtain ⟨-, value_eq, -, within⟩ := agrees
    rw [Expression.token]
    omega
  | unary token operator operand =>
    have kind : token.kind = .integer := integer
    exact absurd (kind ▸ agrees.1) (by decide)
  | binary token left operator right =>
    have kind : token.kind = .integer := integer
    exact absurd (kind ▸ agrees.1) (by decide)

end Expression

/-! ### The nodes of a statement -/

namespace Statement

/-- What the token of a statement says of its kind. Of a bare expression, it is the leftmost. -/
def AgreesWithToken : Statement → Prop
  | binding token name _ => token.kind = .letKeyword ∧ name.token.kind = .identifier
  | returning token _ => token.kind = .returnKeyword
  | bare token value => value.tokens.head? = some token

variable {s : Statement} {own : List Token}

theorem SpelledBy.agreesWithToken (spelled : s.SpelledBy own) : s.AgreesWithToken := by
  cases spelled with
  | binding isLet isName _ _ => exact ⟨isLet, isName⟩
  | returning isReturn _ => exact isReturn
  | bare head _ => exact head

theorem SpelledBy.token_mem (spelled : s.SpelledBy own) : s.token ∈ own := by
  cases spelled with
  | binding => exact List.mem_cons_self
  | returning => exact List.mem_cons_self
  | bare head _ => exact List.mem_of_head? head

/-- The tokens of a value stand at the end of those of its statement. -/
theorem SpelledBy.value_tokens_suffix (spelled : s.SpelledBy own) : s.value.tokens <:+ own := by
  obtain ⟨opening, split, -⟩ := spelled.exists_opens
  exact ⟨opening, split.symm⟩

theorem SpelledBy.token_mem_of_mem {e : Expression} (spelled : s.SpelledBy own)
    (member : e ∈ s.expressions) : e.token ∈ own := by
  have inValue {f : Expression} (inside : f ∈ s.value.nodes) : f.token ∈ own :=
    spelled.mem_of_mem_value (Expression.mem_tokens_iff.mpr ⟨f, inside, rfl⟩)
  cases spelled with
  | binding isLet isName isSign faithful =>
    rcases List.mem_cons.mp member with rfl | inside
    · exact List.mem_cons_of_mem _ List.mem_cons_self
    · exact inValue inside
  | returning => exact inValue member
  | bare => exact inValue member

/-- The token of a statement that is an integer is kept by an expression of the statement, too. -/
theorem AgreesWithToken.exists_node (agrees : s.AgreesWithToken)
    (integer : s.token.kind = .integer) : ∃ e ∈ s.expressions, e.token = s.token := by
  cases s with
  | binding token name value =>
    have keyword : token.kind = .letKeyword := agrees.1
    exact absurd (keyword.symm.trans integer) (by decide)
  | returning token value =>
    have keyword : token.kind = .returnKeyword := agrees
    exact absurd (keyword.symm.trans integer) (by decide)
  | bare token value => exact Expression.mem_tokens_iff.mp (List.mem_of_head? agrees)

end Statement

/-- Every node of a program keeps a token of the text, and its kind and its fields agree with this
token, whatever is broken elsewhere in the text. So the value of an integer is the number that its
digits stand for, and an integer token whose number is above the limit is kept by no node. -/
theorem nodes_agree_with_tokens (source : String) :
    (∀ s ∈ (parse source).1.statements,
      s.token ∈ tokenize source ∧ s.AgreesWithToken ∧ s.value.tokens <:+: tokenize source ∧
        ∀ e ∈ s.expressions, e.token ∈ tokenize source ∧ e.AgreesWithToken) ∧
    ∀ token ∈ tokenize source, token.kind = .integer →
      2 ^ 63 - 1 < Text.decimalValue token.literal.toList →
        ∀ s ∈ (parse source).1.statements,
          s.token ≠ token ∧ ∀ e ∈ s.expressions, e.token ≠ token := by
  have agree : ∀ s ∈ (parse source).1.statements, ∀ e ∈ s.expressions, e.AgreesWithToken := by
    intro s member e inside
    obtain ⟨own, read⟩ := exists_readFrom member
    exact (read.sound_of_mem inside).faithful.agreesWithToken
  constructor
  · intro s member
    obtain ⟨own, stands, spelled, -⟩ := exists_spelledBy_of_mem member
    have inText : own <:+: tokenize source := by
      rw [tokenize_eq]
      exact stands.trans (List.prefix_append _ _).isInfix
    exact ⟨inText.mem spelled.token_mem, spelled.agreesWithToken,
      spelled.value_tokens_suffix.isInfix.trans inText,
      fun e inside => ⟨inText.mem (spelled.token_mem_of_mem inside), agree s member e inside⟩⟩
  · intro token _ integer tooLarge s member
    have noNode : ∀ e ∈ s.expressions, e.token ≠ token := by
      rintro e inside rfl
      exact absurd ((agree s member e inside).decimalValue_le integer) (Nat.not_le.mpr tooLarge)
    refine ⟨?_, noNode⟩
    -- a bare expression has the token of its leftmost node, the other statements have a keyword
    rintro rfl
    obtain ⟨own, -, spelled, -⟩ := exists_spelledBy_of_mem member
    obtain ⟨e, inside, same⟩ := spelled.agreesWithToken.exists_node integer
    exact noNode e inside same

/-- Leading zeros, the largest integer, and one that is too large behind a minus sign. -/
theorem nodes_agree_with_tokens_at_limit :
    let source := "5 + ; let x = --007 * y; -9223372036854775808; 9223372036854775807"
    let largest : Token := ⟨.integer, "9223372036854775807", ⟨47⟩⟩
    let tooLarge : Token := ⟨.integer, "9223372036854775808", ⟨26⟩⟩
    let s : Statement := .bare largest (.integer largest 9223372036854775807)
    s ∈ (parse source).1.statements ∧ (parse source).1.statements.length = 2 ∧
      (s.token ∈ tokenize source ∧ s.AgreesWithToken ∧ s.value.tokens <:+: tokenize source ∧
        ∀ e ∈ s.expressions, e.token ∈ tokenize source ∧ e.AgreesWithToken) ∧
      tooLarge ∈ tokenize source ∧ tooLarge.kind = .integer ∧
      2 ^ 63 - 1 < Text.decimalValue tooLarge.literal.toList ∧
      ∀ s ∈ (parse source).1.statements,
        s.token ≠ tooLarge ∧ ∀ e ∈ s.expressions, e.token ≠ tooLarge := by
  intro source largest tooLarge s
  have member : s ∈ (parse source).1.statements := by decide +kernel
  have inText : tooLarge ∈ tokenize source := by decide +kernel
  have above : 2 ^ 63 - 1 < Text.decimalValue tooLarge.literal.toList := by decide +kernel
  obtain ⟨agree, noNode⟩ := nodes_agree_with_tokens source
  exact ⟨member, by decide +kernel, agree s member, inText, rfl, above,
    noNode tooLarge inText rfl above⟩

end Frontend
