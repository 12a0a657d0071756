import Frontend.Proofs.Procedures
import Frontend.Proofs.SlidingWindow

/-!
# Reading a program ends

Whatever operations a parser has been through, and whatever handlers it has been given, reading a
program from there on ends (`parseProgram_ends`), although nothing in the procedures of
`Frontend.Proofs.Procedures` says so. The one exception is a table that has the end of the text read
as an operator: it stands there for ever, and its operand is looked for again and again
(`Handlers.expression_never_ends`).
-/
namespace Frontend

namespace Parser

/-- All registrations are permitted but one: the end of the text stays no operator. -/
def Operation.KeepsEnd (operation : Operation) : Prop :=
  operation ≠ .onLeading .endOfInput .unary

/-- The parsers that operations lead to, from a new one behind a cursor in a text. -/
inductive Reachable (cursor : Cursor) : Parser → Prop
  | start {p : Parser} : ofCursor? cursor = some p → Reachable cursor p
  | step {p : Parser} (operation : Operation) :
    Reachable cursor p → operation.KeepsEnd → Reachable cursor (p.perform operation).2

theorem leading_perform {p : Parser} {operation : Operation} (keeps : operation.KeepsEnd)
    (noSign : p.handlers.leading .endOfInput ≠ some .unary) :
    (p.perform operation).2.handlers.leading .endOfInput ≠ some .unary := by
  cases operation with
  | onLeading kind handler =>
    intro sign
    simp only [perform, onLeading, Handlers.withLeading] at sign
    split at sign
    next same =>
      cases same
      cases sign
      exact keeps rfl
    · exact noSign sign
  | _ => exact noSign

variable {cursor : Cursor} {p : Parser}

theorem Reachable.leading (reachable : p.Reachable cursor) :
    p.handlers.leading .endOfInput ≠ some .unary := by
  induction reachable with
  | start made =>
    obtain ⟨w, -, rfl⟩ := Option.map_eq_some_iff.mp made
    exact nofun
  | step _ _ keeps ih => exact leading_perform keeps ih

theorem ofCursor?_start (source : String) :
    ofCursor? (.start source) = some (ofSource source) := by
  rw [ofCursor?, Cursor.window?_start]
  rfl

theorem Reachable.clean (reachable : p.Reachable cursor) : p.window.Clean := by
  induction reachable with
  | start made =>
    obtain ⟨w, seen, rfl⟩ := Option.map_eq_some_iff.mp made
    obtain ⟨text, -, rfl⟩ := Option.map_eq_some_iff.mp seen
    exact fun token member => kind_ne_endOfInput_of_mem_scan member
  | @step p operation _ _ ih => exact ih.of_reaches (p.reaches_perform operation)

end Parser

/-- At most one statement or one diagnostic comes of each token. -/
theorem Handlers.length_readItems_le (h : Handlers) (w : Window) :
    (h.readItems w).1.length ≤ w.left := by
  induction w using readItems.induct h with
  | case1 w some_left r shorter ih =>
    rw [readItems_of_left some_left, List.length_cons]
    exact Nat.lt_of_le_of_lt ih shorter
  | case2 w none_left =>
    rw [readItems, dif_neg none_left]
    exact Nat.zero_le _

/-- Every item is a statement or a diagnostic. -/
theorem length_statements_add_length_diagnostics (items : List Item) :
    (Program.ofItems items).statements.length + (diagnosticsOfItems items).length =
      items.length := by
  induction items with
  | nil => rfl
  | cons item items ih =>
    simp only [Program.ofItems, diagnosticsOfItems] at ih ⊢
    cases item with
    | ok s =>
      simp only [List.filterMap_cons, Item.statement?, Item.diagnostic?, List.length_cons]
      omega
    | error d =>
      simp only [List.filterMap_cons, Item.statement?, Item.diagnostic?, List.length_cons]
      omega

/-- From every parser that operations lead to, the loop over the program ends, at the end of the
text and with what `parseProgram` gives, at a depth that grows with the tokens that are left. Each
of its passes ends further on, so at most one statement or one diagnostic comes of each token. -/
theorem parseProgram_ends {cursor : Cursor} {p : Parser} (reachable : p.Reachable cursor) :
    (∃ items w, (∀ depth, 5 * p.window.left + 6 ≤ depth →
        p.handlers.runItems depth p.window = some (.ok items, w)) ∧
      p.parseProgram = (.ofItems items,
        { p with window := w, diagnostics := p.diagnostics ++ diagnosticsOfItems items }) ∧
      (Program.ofItems items).statements.length + (diagnosticsOfItems items).length ≤
        p.window.left) ∧
    (p.parseProgram.2.current.kind = .endOfInput ∧ p.parseProgram.2.peek.kind = .endOfInput) ∧
    (∀ token ∈ p.window.ahead, token.kind ≠ .endOfInput) ∧
    ∀ v, p.window.Reaches v → v.current.kind ≠ .endOfInput →
      ∃ item u, (∀ depth, 5 * v.left + 5 ≤ depth →
          p.handlers.runItem depth v = some (.ok item, u)) ∧
        v.Reaches u ∧ u.left < v.left := by
  have noSign := reachable.leading
  have clean := reachable.clean
  refine ⟨⟨_, _, Handlers.items_eq noSign clean, rfl, ?_⟩, ?_, clean, ?_⟩
  · rw [length_statements_add_length_diagnostics]
    exact p.handlers.length_readItems_le p.window
  · have empty : p.parseProgram.2.window.ahead = [] := Handlers.ahead_readItems p.window
    rw [Parser.current, Parser.peek, Window.current, Window.peek, empty]
    exact ⟨rfl, rfl⟩
  · intro v reached inside
    have still := clean.of_reaches reached
    have some_left := Decidable.not_not.mp (mt still.current_kind_eq_iff.mpr inside)
    exact ⟨_, _, fun _ enough => Handlers.item_eq noSign still enough, Reading.reaches_resume _,
      Reading.left_resume_lt _ some_left⟩

/-- A keyword that is an operator, one that begins a bare statement, a parenthesis that joins. -/
theorem parseProgram_ends_of_keywords :
    ∃ p : Parser, p.Reachable (.start "1 return let 2 ( 3; return =") ∧
      (p.parseProgram.1.statements.length = 1 ∧ p.parseProgram.2.diagnostics.length = 2) ∧
      p.parseProgram.2.current.kind = .endOfInput ∧ p.parseProgram.2.peek.kind = .endOfInput := by
  have new := Parser.Reachable.start (Parser.ofCursor?_start "1 return let 2 ( 3; return =")
  have registered := ((new.step .advance nofun).step
    (.onStatement .returnKeyword .bare) nofun).step (.onStatement .letKeyword .bare) nofun
  have reachable := (registered.step (.onLeading .letKeyword .unary) nofun).step
    (.onJoining .openParen) nofun
  exact ⟨_, reachable, by decide +kernel, (parseProgram_ends reachable).2.1⟩

/-- Where the end of the text is an operator, there is no depth at which reading it would end. -/
theorem Handlers.expression_never_ends {h : Handlers} {w : Window}
    (sign : h.leading .endOfInput = some .unary) (empty : w.ahead = []) (depth : Nat)
    (minimum : BindingPower) : h.runExpression depth minimum w = none := by
  have ended := Window.current_kind_of_ahead_nil empty
  -- each of the two goes on with the other at the same place
  have readers (depth : Nat) : (∀ minimum, h.runExpression depth minimum w = none) ∧
      h.runLeading depth .unary w = none := by
    induction depth with
    | zero => exact ⟨fun _ => rfl, rfl⟩
    | succ depth ih =>
      obtain ⟨expression, leading⟩ := ih
      constructor
      · intro minimum
        rw [runExpression, Procedure.current_bind, ended, sign]
        exact Procedure.bind_of_none leading _
      · rw [runLeading, Procedure.current_bind]
        change (h.runExpression depth .unary >>= _) w.advance = none
        rw [Window.advance_of_ahead_nil empty]
        exact Procedure.bind_of_none (expression .unary) _
  exact (readers depth).1 minimum

end Frontend
