import Frontend.Proofs.Grouping
import Frontend.Proofs.Operations
import Frontend.Proofs.UnambiguousText

/-!
# Layering under any table

Handlers say which tokens begin an expression and which join two, but not how tightly those bind. So
whatever handlers a parser has been given, every expression inside its answers is layered by binding
power (`answers_layered`), be it the answer of an expression, of a statement or of a program.
-/
namespace Frontend

theorem Expression.Layered.of_mem_nodes {e f : Expression} (layered : e.Layered)
    (member : f ∈ e.nodes) : f.Layered := by
  induction e with
  | identifier name => rwa [List.mem_singleton.mp member]
  | integer token value => rwa [List.mem_singleton.mp member]
  | unary token operator operand ih =>
    rcases List.mem_cons.mp member with rfl | inner
    · exact layered
    · exact ih layered.2 inner
  | binary token left operator right leftIh rightIh =>
    rcases List.mem_cons.mp member with rfl | inner
    · exact layered
    · obtain ⟨-, -, -, leftLayered, rightLayered⟩ := layered
      rcases List.mem_append.mp inner with inLeft | inRight
      · exact leftIh leftLayered inLeft
      · exact rightIh rightLayered inRight

theorem Statement.layered_of_mem {s : Statement} {e : Expression} (layered : s.value.Layered)
    (member : e ∈ s.expressions) : e.Layered := by
  cases s with
  | binding token name value =>
    rcases List.mem_cons.mp member with rfl | inner
    · trivial
    · exact layered.of_mem_nodes inner
  | returning token value => exact layered.of_mem_nodes member
  | bare token value => exact layered.of_mem_nodes member

/-! ### Statements -/

namespace Handlers

variable {h : Handlers} {w : Window}

theorem readValue_layered {e : Expression} (read : (h.readValue w).result = .ok e) :
    e.Layered := by
  obtain ⟨value, readFirst, same, -⟩ := Reading.andThen_eq_ok read
  cases same
  exact (h.readExpression_binds readFirst).layered

/-- However a statement is read, its value is layered. -/
theorem readStatementAs_layered {handler : StatementHandler} {s : Statement}
    (read : (h.readStatementAs handler w).result = .ok s) : s.value.Layered := by
  cases handler with
  | binding =>
    -- behind the name and the sign
    obtain ⟨name, -, readSign, -⟩ := Reading.andThen_eq_ok read
    obtain ⟨sign, -, readRest, -⟩ := Reading.andThen_eq_ok readSign
    obtain ⟨value, readValue, rfl⟩ := Reading.map_eq_ok readRest
    exact readValue_layered readValue
  | returning =>
    obtain ⟨value, readValue, rfl⟩ := Reading.map_eq_ok read
    exact readValue_layered readValue
  | bare =>
    obtain ⟨value, readValue, rfl⟩ := Reading.map_eq_ok read
    exact readValue_layered readValue

theorem layered_of_mem_readItems {e : Expression}
    (member : e ∈ (Program.ofItems (h.readItems w).1).expressions) : e.Layered := by
  obtain ⟨s, sound, inside⟩ := List.mem_flatMap.mp member
  obtain ⟨item, inItems, isStatement⟩ := List.mem_filterMap.mp sound
  obtain ⟨v, -, -, read⟩ := exists_of_mem_readItems inItems
  cases item with
  | ok t =>
    cases isStatement
    exact Statement.layered_of_mem (readStatementAs_layered read.symm) inside
  | error d => cases isStatement

end Handlers

/-! ### Answers -/

namespace Parser

/-- The expressions of an answer, with all that are inside them. -/
def Answer.expressions : Answer → List Expression
  | .expression (.ok e) => e.nodes
  | .statement (.ok s) => s.expressions
  | .program read => read.expressions
  | _ => []

theorem Answer.mem_expressions_expression {result : Except Diagnostic Expression}
    {f : Expression} :
    f ∈ (Answer.expression result).expressions ↔ ∃ e, result = .ok e ∧ f ∈ e.nodes := by
  cases result <;> simp [expressions]

theorem Answer.mem_expressions_statement {result : Except Diagnostic Statement}
    {f : Expression} :
    f ∈ (Answer.statement result).expressions ↔ ∃ s, result = .ok s ∧ f ∈ s.expressions := by
  cases result <;> simp [expressions]

/-- The operator at hand is given an operand that it may join, with its own power. Nothing is asked
of any other operation. -/
def Permits (p : Parser) : Operation → Prop
  | .binary left power =>
    left.Layered ∧ (∀ root ∈ left.power?, p.current.kind.bindingPower ≤ root) ∧
      .default < p.current.kind.bindingPower ∧ power = p.current.kind.bindingPower
  | _ => True

end Parser

/-- Whatever text a parser stands in, and whatever handlers its kinds have been given, every
expression in an answer is layered: an operator between two operands binds, its right operand binds
more tightly than it and its left operand at least as tightly, and the operand of an operator in
front is a call or no operation on two operands. -/
theorem answers_layered (p : Parser) (operation : Parser.Operation)
    (permitted : p.Permits operation) :
    ∀ e ∈ (p.perform operation).1.expressions, e.Layered := by
  intro e member
  cases operation with
  | expression minimum =>
    obtain ⟨root, read, inside⟩ := Parser.Answer.mem_expressions_expression.mp member
    exact (p.handlers.readExpression_binds read).layered.of_mem_nodes inside
  | leading handler =>
    obtain ⟨root, read, inside⟩ := Parser.Answer.mem_expressions_expression.mp member
    exact (p.handlers.readLeading_layered read).of_mem_nodes inside
  | binary left power =>
    obtain ⟨layered, below, binds, rfl⟩ := permitted
    obtain ⟨root, read, inside⟩ := Parser.Answer.mem_expressions_expression.mp member
    exact (p.handlers.readBinary_layered layered below binds read).of_mem_nodes inside
  | statementAs handler =>
    obtain ⟨s, read, inside⟩ := Parser.Answer.mem_expressions_statement.mp member
    exact Statement.layered_of_mem (Handlers.readStatementAs_layered read) inside
  | statement =>
    obtain ⟨s, read, inside⟩ := Parser.Answer.mem_expressions_statement.mp member
    exact Statement.layered_of_mem (Handlers.readStatementAs_layered read) inside
  | program => exact Handlers.layered_of_mem_readItems member
  | _ => cases member

/-- Calls and a keyword as an operator among the operators of the language, read as an expression;
and a call that joins a name with what follows. -/
theorem answers_layered_of_calls :
    let p := ((Parser.ofSource "-a(b * let c(1 == d(e").onJoining .openParen).onLeading
      .letKeyword .unary
    let q := (Parser.ofSource "(b * c").onJoining .openParen
    let name := Expression.identifier ⟨⟨.identifier, "a", .start⟩, "a"⟩
    (p.Permits (.expression .default) ∧
        (p.perform (.expression .default)).1.expressions.length = 13 ∧
        ∀ e ∈ (p.perform (.expression .default)).1.expressions, e.Layered) ∧
      q.Permits (.binary name .call) ∧ (q.perform (.binary name .call)).1.expressions.length = 3 ∧
        ∀ e ∈ (q.perform (.binary name .call)).1.expressions, e.Layered := by
  intro p q name
  have operator : q.current.kind = .openParen := by decide +kernel
  have permitted : q.Permits (.binary name .call) := by
    rw [Parser.Permits, operator]
    exact ⟨trivial, nofun, by decide, rfl⟩
  exact ⟨⟨trivial, by decide +kernel, answers_layered p (.expression .default) trivial⟩, permitted,
    by decide +kernel, answers_layered q (.binary name .call) permitted⟩

end Frontend
