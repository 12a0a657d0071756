import Frontend.Proofs.Extent
import Frontend.Proofs.Grouping

/-!
# Unambiguity

A grouped expression is determined by its tokens (`Expression.eq_of_tokens_eq`). The proof reads
the tokens: `readExpression_tokens` says that reading those of a grouped expression, with whatever
comes behind them, comes to the expression. It goes by induction on the expression, and it speaks
of reading on behind the expression because that is where a left operand leaves its operator.
-/
namespace Frontend

/-- Two readings come to the same, wherever they began. -/
def Reading.Same {v w : Window} {α : Type} (r : Reading w α) (s : Reading v α) : Prop :=
  r.result = s.result ∧ r.window = s.window

namespace Reading

variable {u v w : Window} {α β : Type}

theorem Same.trans {r : Reading u α} {s : Reading v α} {t : Reading w α} (first : r.Same s)
    (second : s.Same t) : r.Same t :=
  ⟨first.1.trans second.1, first.2.trans second.2⟩

theorem same_andThen {r : Reading w α} {a : α} (read : r.result = .ok a)
    (next : α → (v : Window) → w.Reaches v → Reading v β) :
    (r.andThen next).Same (next a r.window r.reached) := by
  rw [andThen_of_ok read]
  exact ⟨rfl, rfl⟩

end Reading

namespace Handlers

private theorem readFurther_ends {power : BindingPower} {e : Expression} {v : Window} {last : Token}
    {rest : List Token} (ahead : v.ahead = last :: rest)
    (ends : ∀ token ∈ rest.head?, ¬ token.Continues power) :
    standard.readFurther power e v = .done v e := by
  apply readFurther_of_not
  rintro ⟨tighter, joins⟩
  obtain ⟨operator, following, tail, peek⟩ := exists_tail_of_joining joins
  rw [ahead, List.tail_cons] at tail
  rw [peek] at tighter joins
  exact ends operator (by simp [tail]) ⟨tighter, (standard_joining_iff _).mp joins⟩

private theorem readExpression_of_leading {minimum : BindingPower} {handler : LeadingHandler}
    {e : Expression} {v w : Window} (found : standard.leading w.current.kind = some handler)
    (read : (standard.readLeading handler w).result = .ok e)
    (stopped : (standard.readLeading handler w).window = v) :
    (standard.readExpression minimum w).Same (standard.readFurther minimum e v) := by
  subst stopped
  rw [readExpression_of_some found]
  exact Reading.same_andThen read fun left v _ => standard.readFurther minimum left v

/-- Reading the tokens of an expression comes to where the expression has been read and reading
goes on behind it, provided what follows does not bind more tightly than its own operator. -/
theorem readExpression_tokens {e : Expression} (faithful : e.Faithful) (grouped : e.Grouped)
    {minimum : BindingPower} (above : ∀ power ∈ e.power?, minimum < power) {rest : List Token}
    (ends : ∀ power ∈ e.power?, ∀ token ∈ rest.head?, ¬ token.Continues power) {w : Window}
    (ahead : w.ahead = e.tokens ++ rest) :
    ∃ v last, v.ahead = last :: rest ∧
      (standard.readExpression minimum w).Same (standard.readFurther minimum e v) := by
  induction e generalizing minimum rest w with
  | identifier name =>
    have current := Window.current_of_ahead ahead
    have found : standard.leading w.current.kind = some .operand :=
      (standard_leading_eq_operand_iff _).mpr (.inl (current ▸ faithful.1))
    refine ⟨w, name.token, ahead, readExpression_of_leading found ?_ ?_⟩
    · simp [readLeading_operand, readOperand, current, faithful.1, ← faithful.2]
    · simp [readLeading_operand, readOperand, current, faithful.1]
  | integer token value =>
    have current := Window.current_of_ahead ahead
    have found : standard.leading w.current.kind = some .operand :=
      (standard_leading_eq_operand_iff _).mpr (.inr (current ▸ faithful.1))
    refine ⟨w, token, ahead, readExpression_of_leading found ?_ ?_⟩
    · simp [readLeading_operand, readOperand, current, faithful.1, faithful.2]
    · simp [readLeading_operand, readOperand, current, faithful.1, faithful.2]
  | unary token operator operand ih =>
    have current := Window.current_of_ahead ahead
    have some_left : 0 < w.left := by simp [Window.left, ahead, Expression.tokens]
    have found : standard.leading w.current.kind = some .unary :=
      (standard_leading_eq_unary_iff _).mpr (current ▸ faithful.1)
    have advanced : w.advance.ahead = operand.tokens ++ rest := Window.advance_of_ahead ahead
    have inner : ∃ v last, v.ahead = last :: rest ∧
        (standard.readExpression .unary w.advance).Same (standard.readFurther .unary operand v) :=
      ih faithful.2.2 grouped.2 (by simp [grouped.1]) (by simp [grouped.1]) advanced
    obtain ⟨v, last, behind, read, stopped⟩ := inner
    -- nothing binds more tightly than a sign, so reading stops behind its operand
    rw [readFurther_ends behind fun token _ => not_continues_unary token] at read stopped
    refine ⟨v, last, behind, readExpression_of_leading found ?_ ?_⟩
    · rw [readLeading_unary some_left, Reading.result_further, Reading.result_map, read, current,
        ← faithful.2.1]
      rfl
    · rw [readLeading_unary some_left, Reading.window_further, Reading.window_map, stopped]
      rfl
  | binary token left operator right leftIh rightIh =>
    obtain ⟨joins, own, leftFaithful, rightFaithful⟩ := faithful
    obtain ⟨below, tighter, leftGrouped, rightGrouped⟩ := grouped
    have binds : minimum < token.kind.bindingPower := above _ rfl
    -- the left operand is read as far as the operator, which does not bind more tightly
    have ledLeft : ∃ v last, v.ahead = last :: token :: (right.tokens ++ rest) ∧
        (standard.readExpression minimum w).Same (standard.readFurther minimum left v) := by
      apply leftIh leftFaithful leftGrouped
      · exact fun power root => Nat.lt_of_lt_of_le binds (below power root)
      · intro power root next first continues
        obtain rfl := Option.some.inj first
        exact Nat.not_lt.mpr (below power root) continues.1
      · rw [ahead, Expression.tokens, List.append_assoc, List.cons_append]
    obtain ⟨v, last, behindLeft, readLeft⟩ := ledLeft
    have advanced : v.advance.ahead = token :: (right.tokens ++ rest) :=
      Window.advance_of_ahead behindLeft
    have peek : v.peek = token := by
      rw [← Window.current_advance, Window.current_of_ahead advanced]
    -- the right operand is read with the power of the operator as its minimum, so it ends there
    have ledRight : ∃ u last, u.ahead = last :: rest ∧
        (standard.readExpression token.kind.bindingPower v.advance.advance).Same
          (standard.readFurther token.kind.bindingPower right u) := by
      apply rightIh rightFaithful rightGrouped tighter
      · intro power root next first continues
        exact ends _ rfl next first (continues.trans (tighter power root))
      · exact Window.advance_of_ahead advanced
    obtain ⟨u, final, behindRight, readRight, stopped⟩ := ledRight
    rw [readFurther_ends behindRight (ends _ rfl)] at readRight stopped
    refine ⟨u, final, behindRight, readLeft.trans ?_⟩
    rw [readFurther_of_joining (peek ▸ binds) (peek ▸ (standard_joining_iff _).mpr joins), peek]
    have read : (standard.readBinary left token.kind.bindingPower v.advance).result =
        .ok (.binary token left operator right) := by
      rw [readBinary_eq, Reading.result_further, Reading.result_map, readRight,
        Window.current_of_ahead advanced, ← own]
      rfl
    have window : (standard.readBinary left token.kind.bindingPower v.advance).window = u := by
      rw [readBinary_eq, Reading.window_further, Reading.window_map, stopped]
      rfl
    subst window
    exact Reading.same_andThen read fun joined v _ => standard.readFurther minimum joined v

end Handlers

namespace Expression

theorem Faithful.default_lt {e : Expression} (faithful : e.Faithful) :
    ∀ power ∈ e.power?, .default < power := by
  cases e with
  | binary token left operator right =>
    rintro _ ⟨⟩
    exact (bindingPower_of_mem_standardJoining faithful.1).1
  | _ => simp [power?]

theorem read_tokens {e : Expression} (faithful : e.Faithful) (grouped : e.Grouped)
    (finish : Position) :
    (Handlers.standard.readExpression .default ⟨e.tokens, finish⟩).result = .ok e := by
  have whole : (Window.mk e.tokens finish).ahead = e.tokens ++ [] := by simp
  obtain ⟨v, last, behind, read, -⟩ := Handlers.readExpression_tokens faithful grouped
    faithful.default_lt (by simp) whole
  rw [read, Handlers.readFurther_ends behind (by simp), Reading.result_done]

/-- A grouped expression is determined by its tokens. -/
theorem eq_of_tokens_eq {e f : Expression} (faithful : e.Faithful) (grouped : e.Grouped)
    (otherFaithful : f.Faithful) (otherGrouped : f.Grouped) (same : e.tokens = f.tokens) :
    e = f := by
  have first := read_tokens faithful grouped Position.start
  have second := read_tokens otherFaithful otherGrouped Position.start
  rw [same] at first
  exact Except.ok.inj (first.symm.trans second)

end Expression

end Frontend
