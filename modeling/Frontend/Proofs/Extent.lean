import Frontend.Proofs.Readers
import Frontend.Proofs.TreeTokens

/-!
# Where an expression ends

How far an expression reaches does not depend on how its operators group. `chainEnd` walks over
operands and operators on their kinds alone, and `readExpression_agrees` says that reading an
expression with the standard handlers stops where the walk does, with an expression that is made
of the tokens walked over, or with a diagnostic for the token that the walk is stuck at.

The proof is one induction over the four readers. Its invariant is `Reading.Agrees`; the two walks
of an operator, over its right operand and on behind it, are put together by `chainEnd_of_tighter`.
-/
namespace Frontend

/-! ### The walk -/

/-- The diagnostic for a token that stands where an operand has to and is none. -/
def operandDiagnostic (token : Token) : Diagnostic :=
  if token.kind = .integer then ⟨.integerOutOfRange token.literal, token.position⟩
  else missingOperand token

/-- The token joins two operands and binds more tightly than `minimum`. -/
def Token.Continues (minimum : BindingPower) (token : Token) : Prop :=
  minimum < token.kind.bindingPower ∧ token.kind ∈ Handlers.standardJoining

instance (minimum : BindingPower) : DecidablePred (Token.Continues minimum) :=
  fun _ => inferInstanceAs (Decidable (_ ∧ _))

/-- What comes next inside an expression. -/
inductive Awaited where
  /-- An operand, which must not be missing. -/
  | operand
  /-- An operator, if the expression goes on. -/
  | operator

/-- Walks over operands and the operators that bind more tightly than `minimum`. `.ok rest` says
that the expression ends ahead of `rest`; `.error rest`, that at the front of `rest` an operand is
missing. -/
def chainEnd (minimum : BindingPower) : Awaited → List Token → Except (List Token) (List Token)
  | .operand, [] => .error []
  | .operand, token :: rest =>
    if token.kind.IsSign then chainEnd minimum .operand rest
    else if token.IsAtom then chainEnd minimum .operator rest
    else .error (token :: rest)
  | .operator, [] => .ok []
  | .operator, token :: rest =>
    if token.Continues minimum then chainEnd minimum .operand rest else .ok (token :: rest)

theorem not_isSign_of_isAtom {token : Token} (atom : token.IsAtom) : ¬ token.kind.IsSign := by
  rcases atom with name | ⟨integer, _⟩
  · rw [name]; decide
  · rw [integer]; decide

theorem chainEnd_sign {minimum : BindingPower} {token : Token} (sign : token.kind.IsSign)
    (rest : List Token) :
    chainEnd minimum .operand (token :: rest) = chainEnd minimum .operand rest := by
  rw [chainEnd, if_pos sign]

theorem chainEnd_atom {minimum : BindingPower} {token : Token} (atom : token.IsAtom)
    (rest : List Token) :
    chainEnd minimum .operand (token :: rest) = chainEnd minimum .operator rest := by
  rw [chainEnd, if_neg (not_isSign_of_isAtom atom), if_pos atom]

theorem chainEnd_stuck {minimum : BindingPower} {tokens : List Token}
    (stuck : ∀ token ∈ tokens.head?, ¬ token.kind.IsSign ∧ ¬ token.IsAtom) :
    chainEnd minimum .operand tokens = .error tokens := by
  cases tokens with
  | nil => rfl
  | cons token rest =>
    obtain ⟨noSign, noAtom⟩ := stuck token rfl
    rw [chainEnd, if_neg noSign, if_neg noAtom]

theorem chainEnd_continue {minimum : BindingPower} {token : Token}
    (continues : token.Continues minimum) (rest : List Token) :
    chainEnd minimum .operator (token :: rest) = chainEnd minimum .operand rest := by
  rw [chainEnd, if_pos continues]

theorem chainEnd_stop {minimum : BindingPower} {tokens : List Token}
    (stops : ∀ token ∈ tokens.head?, ¬ token.Continues minimum) :
    chainEnd minimum .operator tokens = .ok tokens := by
  cases tokens with
  | nil => rfl
  | cons token rest => rw [chainEnd, if_neg (stops token rfl)]

theorem not_continues_unary (token : Token) : ¬ token.Continues .unary := by
  rintro ⟨tighter, joins⟩
  have looser := (bindingPower_of_mem_standardJoining joins).2
  rw [BindingPower.lt_iff_rank_lt] at tighter looser
  omega

theorem Token.Continues.trans {low high : BindingPower} {token : Token}
    (continues : token.Continues high) (order : low < high) : token.Continues low := by
  refine ⟨?_, continues.2⟩
  have tighter := continues.1
  rw [BindingPower.lt_iff_rank_lt] at order tighter ⊢
  omega

/-- A walk over the more tightly binding operators is the first part of the walk over all. -/
theorem chainEnd_of_tighter (low high : BindingPower)
    (looser : ∀ token : Token, token.Continues high → token.Continues low) (awaited : Awaited)
    (tokens : List Token) :
    chainEnd low awaited tokens =
      (chainEnd high awaited tokens).bind fun rest => chainEnd low .operator rest := by
  induction tokens generalizing awaited with
  | nil => cases awaited <;> rfl
  | cons token rest ih =>
    cases awaited with
    | operand =>
      -- the minimum plays no part where an operand is awaited
      rw [chainEnd, chainEnd]
      split
      · exact ih .operand
      · split
        · exact ih .operator
        · rfl
    | operator =>
      by_cases continues : token.Continues high
      · rw [chainEnd_continue continues, chainEnd_continue (looser token continues)]
        exact ih .operand
      · rw [chainEnd.eq_4 high, if_neg continues]
        rfl

/-! ### Reading follows the walk -/

/-- A reading agrees with the outcome of a walk: it gives an expression whose tokens, with what is
left behind them, make up `text`, or the diagnostic for the token that the walk is stuck at. -/
def Reading.Agrees {w : Window} (r : Reading w Expression) (text : List Token) :
    Except (List Token) (List Token) → Prop
  | .ok rest => ∃ e, r.result = .ok e ∧ e.Faithful ∧ e.tokens ++ rest = text ∧
      ∃ last, r.window.ahead = last :: rest
  | .error rest => r.result = .error (operandDiagnostic (rest.headD w.final)) ∧
      r.window.ahead = rest

namespace Reading

variable {w : Window} {text : List Token}

theorem agrees_further {v : Window} {reached : w.Reaches v} {r : Reading v Expression}
    {outcome : Except (List Token) (List Token)} :
    (r.further reached).Agrees text outcome ↔ r.Agrees text outcome := by
  cases outcome <;> simp [Agrees, Window.final_eq_of_reaches reached]

/-- Where a reading agrees with a walk and goes on in agreement with a second walk, it agrees with
the two walks together. -/
theorem Agrees.andThen {r : Reading w Expression} {outcome : Except (List Token) (List Token)}
    {next : Expression → (v : Window) → w.Reaches v → Reading v Expression}
    {further : List Token → Except (List Token) (List Token)} (first : r.Agrees text outcome)
    (second : ∀ e v reached last rest, e.Faithful → v.ahead = last :: rest →
      e.tokens ++ rest = text → (next e v reached).Agrees text (further rest)) :
    (r.andThen next).Agrees text (outcome.bind further) := by
  cases outcome with
  | ok rest =>
    obtain ⟨e, read, faithful, spelled, last, ahead⟩ := first
    rw [andThen_of_ok read, agrees_further]
    exact second e r.window r.reached last rest faithful ahead spelled
  | error rest =>
    obtain ⟨failed, ahead⟩ := first
    rw [andThen_of_error failed]
    exact ⟨rfl, ahead⟩

theorem Agrees.map {r : Reading w Expression} {outcome : Except (List Token) (List Token)}
    {text' : List Token} {node : Expression → Expression} (agrees : r.Agrees text outcome)
    (faithful : ∀ e : Expression, e.Faithful → (node e).Faithful)
    (spelled : ∀ e rest, e.tokens ++ rest = text → (node e).tokens ++ rest = text') :
    (r.map node).Agrees text' outcome := by
  cases outcome with
  | ok rest =>
    obtain ⟨e, read, fits, tokens, ahead⟩ := agrees
    exact ⟨node e, by rw [result_map, read]; rfl, faithful e fits, spelled e rest tokens, ahead⟩
  | error rest => exact ⟨by rw [result_map, agrees.1]; rfl, agrees.2⟩

end Reading

theorem readOperand_agrees {w : Window} {token : Token} {rest : List Token}
    (ahead : w.ahead = token :: rest) (kind : token.kind = .identifier ∨ token.kind = .integer) :
    (readOperand w).Agrees w.ahead (chainEnd .unary .operand w.ahead) := by
  have current := Window.current_of_ahead ahead
  have stops : chainEnd .unary .operator rest = .ok rest :=
    chainEnd_stop fun token _ => not_continues_unary token
  rcases kind with name | integer
  · rw [ahead, chainEnd_atom (.inl name), stops]
    refine ⟨.identifier ⟨token, token.literal⟩, ?_, ⟨name, rfl⟩, rfl, token, ?_⟩
    · simp [readOperand, current, name]
    · simp [readOperand, current, name, ahead]
  · by_cases fits : Text.decimalValue token.literal.toList ≤ integerLimit
    · rw [ahead, chainEnd_atom (.inr ⟨integer, fits⟩), stops]
      obtain ⟨value, valued⟩ :=
        Option.isSome_iff_exists.mp ((integerValue?_isSome_iff token.literal).mpr fits)
      refine ⟨.integer token value, ?_, ⟨integer, valued⟩, rfl, token, ?_⟩
      · simp [readOperand, current, integer, valued]
      · simp [readOperand, current, integer, valued, ahead]
    -- an integer that is no atom is too large
    · have noAtom : ¬ token.IsAtom := by simp [Token.IsAtom, integer, fits]
      have noSign : ¬ token.kind.IsSign := by simp [Kind.IsSign, integer]
      have none : integerValue? token.literal = none := by
        rw [← Option.not_isSome_iff_eq_none, integerValue?_isSome_iff]; exact fits
      rw [ahead, chainEnd_stuck (by simpa using ⟨noSign, noAtom⟩)]
      constructor
      · simp [readOperand, current, integer, none, operandDiagnostic]
      · simp [readOperand, current, integer, none, ahead]

theorem exists_tail_of_joining {w : Window} (joins : Handlers.standard.joining w.peek.kind = true) :
    ∃ operator rest, w.ahead.tail = operator :: rest ∧ w.peek = operator :=
  Window.exists_tail_of_peek fun ends => by rw [ends] at joins; cases joins

open Handlers in
private theorem readers_agree :
    (∀ minimum w, (standard.readExpression minimum w).Agrees w.ahead
      (chainEnd minimum .operand w.ahead)) ∧
    (∀ minimum left w, left.Faithful → w.ahead ≠ [] →
      (standard.readFurther minimum left w).Agrees (left.tokens ++ w.ahead.tail)
        (chainEnd minimum .operator w.ahead.tail)) ∧
    (∀ left power w, left.Faithful → w.ahead ≠ [] → w.current.kind ∈ standardJoining →
      (standard.readBinary left power w).Agrees (left.tokens ++ w.ahead)
        (chainEnd power .operand w.ahead.tail)) ∧
    (∀ handler w, standard.leading w.current.kind = some handler →
      (standard.readLeading handler w).Agrees w.ahead (chainEnd .unary .operand w.ahead)) := by
  apply readExpression.mutual_induct
  case case1 =>
    -- no operand begins at the current token
    intro minimum w missing
    obtain ⟨noName, noInteger, noSign⟩ := (standard_leading_eq_none_iff _).mp missing
    have stuck : ∀ token ∈ w.ahead.head?, ¬ token.kind.IsSign ∧ ¬ token.IsAtom := by
      intro token first
      obtain ⟨rest, ahead⟩ := List.head?_eq_some_iff.mp first
      rw [Window.current_of_ahead ahead] at noName noInteger noSign
      exact ⟨noSign, by simp [Token.IsAtom, noName, noInteger]⟩
    have cause : operandDiagnostic w.current = missingOperand w.current := by
      rw [operandDiagnostic, if_neg noInteger]
    rw [readExpression_of_none missing, chainEnd_stuck stuck]
    exact ⟨congrArg Except.error cause.symm, rfl⟩
  case case2 =>
    -- a first operand, and what follows it
    intro minimum w handler found leading further
    rw [readExpression_of_some found,
      chainEnd_of_tighter minimum .unary
        fun token continues => absurd continues (not_continues_unary token)]
    refine (leading found).andThen fun e v reached last rest faithful ahead spelled => ?_
    have agrees := further e v reached faithful (by simp [ahead])
    rwa [ahead, List.tail_cons, spelled] at agrees
  case case3 =>
    -- an operator that binds tightly enough
    intro minimum left w ⟨tighter, joins⟩ binary further faithful some_left
    obtain ⟨operator, rest, ahead, peek⟩ := exists_tail_of_joining joins
    have member : operator.kind ∈ standardJoining := by
      rw [← peek]; exact (standard_joining_iff _).mp joins
    have continues : operator.Continues minimum := ⟨peek ▸ tighter, member⟩
    have advanced : w.advance.ahead = operator :: rest := ahead
    rw [peek, advanced, List.tail_cons] at binary
    -- the right operand is walked over with the power of the operator, and then the walk goes on
    rw [readFurther_of_joining tighter joins, Reading.agrees_further, ahead,
      chainEnd_continue continues,
      chainEnd_of_tighter minimum operator.kind.bindingPower
        fun token later => later.trans (peek ▸ tighter), peek]
    refine (binary faithful (by simp) (by simpa [peek] using member)).andThen
      fun e v reached last rest faithful ahead spelled => ?_
    have agrees := further e v reached faithful (by simp [ahead])
    rwa [ahead, List.tail_cons, spelled] at agrees
  case case4 =>
    -- the expression ends
    intro minimum left w stops faithful some_left
    obtain ⟨last, following, ahead⟩ := List.exists_cons_of_ne_nil some_left
    have ended : ∀ token ∈ w.ahead.tail.head?, ¬ token.Continues minimum := by
      intro token first continues
      have peek : w.peek = token := by
        rw [Window.peek, List.headD_eq_head?_getD, Option.mem_def.mp first, Option.getD_some]
      exact stops ⟨peek ▸ continues.1, (standard_joining_iff _).mpr (peek ▸ continues.2)⟩
    rw [readFurther_of_not stops, chainEnd_stop ended]
    exact ⟨left, rfl, faithful, rfl, last, by rw [Reading.window_done, ahead, List.tail_cons]⟩
  case case5 =>
    -- an operator and its right operand
    intro left power w right faithful some_left joins
    obtain ⟨operator, rest, ahead⟩ := List.exists_cons_of_ne_nil some_left
    have advanced : w.advance.ahead = w.ahead.tail := rfl
    rw [readBinary_eq, Reading.agrees_further, ← advanced]
    refine right.map (fun e fits => ⟨joins, rfl, faithful, fits⟩) fun e rest spelled => ?_
    rw [advanced, ahead, List.tail_cons] at spelled
    rw [ahead, ← spelled, Window.current_of_ahead ahead, Expression.tokens, List.append_assoc,
      List.cons_append]
  case case6 =>
    -- an atom
    intro w found
    have kind := (standard_leading_eq_operand_iff _).mp found
    rw [readLeading_operand]
    cases ahead : w.ahead with
    | nil => simp [Window.current, ahead, Window.final, Token.endOfInput] at kind
    | cons token rest =>
      rw [Window.current_of_ahead ahead] at kind
      rw [← ahead]
      exact readOperand_agrees ahead kind
  case case7 =>
    -- a sign and its operand
    intro w some_left operand found
    obtain ⟨sign, rest, ahead⟩ := List.exists_cons_of_length_pos some_left
    have isSign := (standard_leading_eq_unary_iff _).mp found
    have current := Window.current_of_ahead ahead
    have advanced : w.advance.ahead = rest := Window.advance_of_ahead ahead
    rw [readLeading_unary some_left, Reading.agrees_further, ahead,
      chainEnd_sign (current ▸ isSign), ← advanced]
    refine operand.map (fun e fits => ⟨isSign, rfl, fits⟩) fun e rest spelled => ?_
    rw [current, Expression.tokens, List.cons_append, spelled]
  case case8 =>
    -- the end of the text is no sign
    intro w none_left found
    have empty : w.ahead = [] := List.length_eq_zero_iff.mp (Nat.eq_zero_of_not_pos none_left)
    rw [Window.current, empty, List.headD_nil] at found
    cases found

/-- An expression ends where the walk over its operands and operators ends, and fails where the
walk is stuck. -/
theorem readExpression_agrees (minimum : BindingPower) (w : Window) :
    (Handlers.standard.readExpression minimum w).Agrees w.ahead
      (chainEnd minimum .operand w.ahead) :=
  readers_agree.1 minimum w

end Frontend
