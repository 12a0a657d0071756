import Frontend.Grammar.Statement
import Frontend.Proofs.Unambiguity

/-!
# How a statement comes out

A statement that stands at the front of the tokens is sound or broken, and its tokens alone decide
which (`opens_or_breaks`). Reading it gives a tree that is spelled by those tokens, or a diagnostic
for the token found at the gap (`readStatement_outcome`); and no other tree fits the same tokens
(`Handlers.readStatement_of_spelledBy`).
-/
namespace Frontend

/-- The kinds that end a statement or begin the next one. -/
def Kind.IsBoundary (kind : Kind) : Prop :=
  kind = .semicolon ∨ kind = .letKeyword ∨ kind = .returnKeyword

instance : DecidablePred Kind.IsBoundary := fun _ => inferInstanceAs (Decidable (_ ∨ _ ∨ _))

theorem Kind.IsSign.not_isBoundary {kind : Kind} (sign : kind.IsSign) : ¬ kind.IsBoundary := by
  revert sign
  cases kind <;> decide

theorem Token.IsAtom.not_isBoundary {token : Token} (atom : token.IsAtom) :
    ¬ token.kind.IsBoundary := by
  rcases atom with kind | ⟨kind, -⟩ <;> rw [kind] <;> decide

theorem not_isBoundary_of_mem_standardJoining {kind : Kind}
    (joins : kind ∈ Handlers.standardJoining) : ¬ kind.IsBoundary := by
  revert joins
  cases kind <;> decide

/-- A statement ahead of `following` ends ahead of `rest`: with a semicolon, if one follows. An
operator may not follow, since the statement would go on with it. -/
inductive Ends : List Token → List Token → Prop
  | closed {token : Token} {rest : List Token} : token.kind = .semicolon → Ends (token :: rest) rest
  | unclosed {rest : List Token} :
      (∀ token ∈ rest.head?,
        token.kind ≠ .semicolon ∧ token.kind ∉ Handlers.standardJoining) →
      Ends rest rest

/-- What stands in a statement before its expression, which begins `following`. -/
inductive Opens : List Token → List Token → Prop
  | binding {keyword name sign : Token} {following : List Token} :
      keyword.kind = .letKeyword → name.kind = .identifier → sign.kind = .assignment →
      Opens [keyword, name, sign] following
  | returning {keyword : Token} {following : List Token} :
      keyword.kind = .returnKeyword → Opens [keyword] following
  | bare {first : Token} {rest : List Token} :
      first.kind ≠ .letKeyword → first.kind ≠ .returnKeyword → Opens [] (first :: rest)

/-- What is missing from a broken statement. -/
inductive Gap where
  /-- The name of a binding. -/
  | name
  /-- The sign behind the name of a binding. -/
  | sign
  | operand

/-- The diagnostic for the token that is found where something else is missing. -/
def Gap.diagnostic : Gap → Token → Diagnostic
  | name, found => ⟨.unexpectedToken .identifier found.kind, found.position⟩
  | sign, found => ⟨.unexpectedToken .assignment found.kind, found.position⟩
  | operand, found => operandDiagnostic found

/-- The statement at the front of the tokens is broken: something is missing ahead of `found`. -/
inductive Breaks : List Token → Gap → List Token → Prop
  | name {keyword : Token} {found : List Token} :
      keyword.kind = .letKeyword → (∀ token ∈ found.head?, token.kind ≠ .identifier) →
      Breaks (keyword :: found) .name found
  | sign {keyword name : Token} {found : List Token} :
      keyword.kind = .letKeyword → name.kind = .identifier →
      (∀ token ∈ found.head?, token.kind ≠ .assignment) →
      Breaks (keyword :: name :: found) .sign found
  | operand {opening following found : List Token} :
      Opens opening following → chainEnd .default .operand following = .error found →
      Breaks (opening ++ following) .operand found

/-! ### The tokens of a statement -/

private theorem Opens.inside {opening following : List Token} (opens : Opens opening following) :
    (∀ token ∈ opening, token.kind ≠ .semicolon) ∧
      ∀ token ∈ opening.tail, ¬ token.kind.IsBoundary := by
  cases opens with
  | binding isLet isName isSign => simp [Kind.IsBoundary, isLet, isName, isSign]
  | returning isReturn => simp [isReturn]
  | bare => simp

/-- The tokens are walked over and lead to where an operand is awaited, whatever comes behind. -/
structure Passes (minimum : BindingPower) (awaited : Awaited) (passed : List Token) : Prop where
  inside : ∀ token ∈ passed, ¬ token.kind.IsBoundary
  leads : ∀ rest, chainEnd minimum awaited (passed ++ rest) = chainEnd minimum .operand rest

theorem Passes.nil {minimum : BindingPower} : Passes minimum .operand [] :=
  ⟨by simp, fun _ => rfl⟩

theorem Passes.cons {minimum : BindingPower} {awaited next : Awaited} {token : Token}
    {passed : List Token} (inside : ¬ token.kind.IsBoundary)
    (step : ∀ rest, chainEnd minimum awaited (token :: rest) = chainEnd minimum next rest)
    (passes : Passes minimum next passed) : Passes minimum awaited (token :: passed) := by
  refine ⟨List.forall_mem_cons.mpr ⟨inside, passes.inside⟩, fun rest => ?_⟩
  rw [List.cons_append, step, passes.leads]

theorem exists_passed_of_chainEnd {minimum : BindingPower} {awaited : Awaited}
    {tokens found : List Token} (stuck : chainEnd minimum awaited tokens = .error found) :
    ∃ passed, tokens = passed ++ found ∧ Passes minimum awaited passed ∧
      ∀ token ∈ found.head?, ¬ token.kind.IsSign ∧ ¬ token.IsAtom := by
  induction tokens generalizing awaited with
  | nil =>
    cases awaited with
    | operand =>
      cases stuck
      exact ⟨[], rfl, .nil, by simp⟩
    | operator => cases stuck
  | cons token tokens ih =>
    cases awaited with
    | operand =>
      rw [chainEnd] at stuck
      split at stuck
      next sign =>
        obtain ⟨passed, rfl, passes, blocked⟩ := ih stuck
        exact ⟨token :: passed, rfl, passes.cons sign.not_isBoundary (chainEnd_sign sign), blocked⟩
      · split at stuck
        next atom =>
          obtain ⟨passed, rfl, passes, blocked⟩ := ih stuck
          exact ⟨token :: passed, rfl, passes.cons atom.not_isBoundary (chainEnd_atom atom),
            blocked⟩
        next noSign noAtom =>
          cases stuck
          exact ⟨[], rfl, .nil, by simpa using ⟨noSign, noAtom⟩⟩
    | operator =>
      -- without an operator the walk is not stuck, it ends
      rw [chainEnd] at stuck
      split at stuck
      next continues =>
        obtain ⟨passed, rfl, passes, blocked⟩ := ih stuck
        have inside := not_isBoundary_of_mem_standardJoining continues.2
        exact ⟨token :: passed, rfl, passes.cons inside (chainEnd_continue continues), blocked⟩
      · cases stuck

/-- Ahead of the gap in a broken statement, there is no place to go on at except where it began. -/
theorem Breaks.exists_before {tokens found : List Token} {gap : Gap}
    (breaks : Breaks tokens gap found) :
    ∃ before, tokens = before ++ found ∧ (∀ token ∈ before, token.kind ≠ .semicolon) ∧
      ∀ token ∈ before.tail, ¬ token.kind.IsBoundary := by
  cases breaks with
  | @name keyword found isLet => exact ⟨[keyword], rfl, by simp [isLet], by simp⟩
  | @sign keyword name found isLet isName =>
    exact ⟨[keyword, name], rfl, by simp [isLet, isName], by simp [Kind.IsBoundary, isName]⟩
  | @operand opening following found opens walk =>
    obtain ⟨passed, split, ⟨inner, -⟩, -⟩ := exists_passed_of_chainEnd walk
    -- a keyword can only be the first token of the opening
    obtain ⟨noSemicolon, inside⟩ := opens.inside
    refine ⟨opening ++ passed, by rw [split, List.append_assoc], ?_, ?_⟩
    · intro token member
      rcases List.mem_append.mp member with inOpening | inPassed
      · exact noSemicolon token inOpening
      · exact fun semicolon => inner token inPassed (.inl semicolon)
    · cases opening with
      | nil => exact fun token member => inner token (List.mem_of_mem_tail member)
      | cons first tail =>
        intro token member
        rcases List.mem_append.mp member with inOpening | inPassed
        · exact inside token inOpening
        · exact inner token inPassed

/-- The tokens begin with a whole statement or with a broken one. -/
theorem opens_or_breaks {tokens : List Token} (some_left : tokens ≠ []) :
    (∃ opening following rest, tokens = opening ++ following ∧ Opens opening following ∧
      chainEnd .default .operand following = .ok rest) ∨
    ∃ gap found, Breaks tokens gap found := by
  have value {opening following : List Token} (opens : Opens opening following) :
      (∃ opening' following' rest, opening ++ following = opening' ++ following' ∧
        Opens opening' following' ∧ chainEnd .default .operand following' = .ok rest) ∨
      ∃ gap found, Breaks (opening ++ following) gap found := by
    cases walk : chainEnd .default .operand following with
    | ok rest => exact .inl ⟨opening, following, rest, rfl, opens, walk⟩
    | error found => exact .inr ⟨.operand, found, .operand opens walk⟩
  obtain ⟨first, rest, rfl⟩ := List.exists_cons_of_ne_nil some_left
  by_cases isLet : first.kind = .letKeyword
  · by_cases isName : ∃ name afterName, rest = name :: afterName ∧ name.kind = .identifier
    · obtain ⟨name, afterName, rfl, isName⟩ := isName
      by_cases isSign : ∃ sign following, afterName = sign :: following ∧ sign.kind = .assignment
      · obtain ⟨sign, following, rfl, isSign⟩ := isSign
        exact value (.binding isLet isName isSign)
      · refine .inr ⟨.sign, afterName, .sign isLet isName fun token next found => isSign ?_⟩
        obtain ⟨following, split⟩ := List.head?_eq_some_iff.mp next
        exact ⟨token, following, split, found⟩
    · refine .inr ⟨.name, rest, .name isLet fun token next found => isName ?_⟩
      obtain ⟨following, split⟩ := List.head?_eq_some_iff.mp next
      exact ⟨token, following, split, found⟩
  · by_cases isReturn : first.kind = .returnKeyword
    · exact value (.returning isReturn)
    · exact value (.bare isLet isReturn)

/-! ### The expression of a statement -/

namespace Handlers

theorem ends_skipOptional {v : Window} {last : Token} {following : List Token}
    (ahead : v.ahead = last :: following)
    (stops : ∀ token ∈ following.head?, token.kind ∉ standardJoining) :
    Ends following (v.skipOptional .semicolon).advance.ahead := by
  have advanced : v.advance.ahead = following := Window.advance_of_ahead ahead
  by_cases semicolon : v.peek.kind = .semicolon
  · obtain ⟨token, rest, tail, peek⟩ :=
      Window.exists_tail_of_peek (w := v) (by rw [semicolon]; decide)
    rw [Window.skipOptional, if_pos semicolon, Window.advance, advanced]
    rw [ahead, List.tail_cons] at tail
    rw [tail, List.tail_cons]
    exact .closed (peek ▸ semicolon)
  -- without a semicolon, what follows has been seen not to go on with the expression
  · rw [Window.skipOptional, if_neg semicolon, advanced]
    refine .unclosed fun token first => ⟨?_, stops token first⟩
    obtain ⟨rest, rfl⟩ := List.head?_eq_some_iff.mp first
    rwa [← Window.current_advance, Window.current_of_ahead advanced] at semicolon

/-- Where the walk ends, the expression of a statement is read, with the semicolon behind it. -/
theorem readValue_of_ok {w : Window} {following : List Token}
    (ends : chainEnd .default .operand w.ahead = .ok following) :
    ∃ e, (standard.readValue w).result = .ok e ∧ e.Faithful ∧ e.Grouped ∧
      e.tokens ++ following = w.ahead ∧
      Ends following (standard.readValue w).window.advance.ahead := by
  have agrees := readExpression_agrees .default w
  rw [ends] at agrees
  obtain ⟨e, read, faithful, spelled, last, ahead⟩ := agrees
  obtain ⟨layered, -, stops⟩ := readExpression_binds standard read
  refine ⟨e, ?_, faithful, layered.grouped faithful, spelled, ?_⟩
  · rw [readValue, Reading.thenOptional, Reading.andThen_of_ok read]
    rfl
  · rw [readValue, Reading.thenOptional, Reading.andThen_of_ok read]
    refine ends_skipOptional ahead fun token first joins => stops ?_
    obtain ⟨rest, rfl⟩ := List.head?_eq_some_iff.mp first
    have peek : (standard.readExpression .default w).window.peek = token := by
      rw [Window.peek, ahead, List.tail_cons, List.headD_cons]
    rw [peek]
    -- every operator of the language binds more tightly than the minimum
    exact ⟨(bindingPower_of_mem_standardJoining joins).1, (standard_joining_iff _).mpr joins⟩

/-- Where the walk is stuck, so is the expression of a statement. -/
theorem readValue_of_error {w : Window} {rest : List Token}
    (stuck : chainEnd .default .operand w.ahead = .error rest) :
    (standard.readValue w).result = .error (operandDiagnostic (rest.headD w.final)) ∧
      (standard.readValue w).window.ahead = rest := by
  have agrees := readExpression_agrees .default w
  rw [stuck] at agrees
  rw [readValue, Reading.thenOptional, Reading.andThen_of_error agrees.1]
  exact ⟨rfl, agrees.2⟩

end Handlers

/-! ### The statement -/

namespace Window

variable {w : Window} {kind : Kind}

theorem expect_of_eq (same : w.peek.kind = kind) :
    w.expect kind = ⟨.ok w.peek, w.advance, w.reaches_advance⟩ := by
  rw [expect, if_pos same]

theorem expect_of_ne (other : w.peek.kind ≠ kind) :
    w.expect kind = .fail w ⟨.unexpectedToken kind w.peek.kind, w.peek.position⟩ := by
  rw [expect, if_neg other]

end Window

namespace Handlers

variable {w : Window}

theorem readStatement_of_let (keyword : w.current.kind = .letKeyword) :
    standard.readStatement w = standard.readBinding w := by
  rw [readStatement, keyword]
  rfl

theorem readStatement_of_return (keyword : w.current.kind = .returnKeyword) :
    standard.readStatement w = standard.readReturning w := by
  rw [readStatement, keyword]
  rfl

theorem readStatement_of_other (noLet : w.current.kind ≠ .letKeyword)
    (noReturn : w.current.kind ≠ .returnKeyword) :
    standard.readStatement w = standard.readBare w := by
  have none : standard.statement w.current.kind = none := by
    revert noLet noReturn
    cases w.current.kind <;> decide
  rw [readStatement, none]
  rfl

theorem readBinding_of_no_name (missing : w.peek.kind ≠ .identifier) :
    (standard.readBinding w).result = .error (Gap.name.diagnostic w.peek) ∧
      (standard.readBinding w).window = w := by
  rw [readBinding, Window.expect_of_ne missing, Reading.andThen_of_error rfl]
  exact ⟨rfl, rfl⟩

theorem readBinding_of_no_sign (isName : w.peek.kind = .identifier)
    (missing : w.advance.peek.kind ≠ .assignment) :
    (standard.readBinding w).result = .error (Gap.sign.diagnostic w.advance.peek) ∧
      (standard.readBinding w).window = w.advance := by
  rw [readBinding, Window.expect_of_eq isName, Reading.andThen_of_ok rfl,
    Window.expect_of_ne missing, Reading.andThen_of_error rfl]
  exact ⟨rfl, rfl⟩

theorem readStatement_of_opens {opening following : List Token} (opens : Opens opening following)
    (ahead : w.ahead = opening ++ following) :
    ∃ (v : Window) (node : Expression → Statement), v.ahead = following ∧ v.final = w.final ∧
      (standard.readStatement w).result = (standard.readValue v).result.map node ∧
      (standard.readStatement w).window = (standard.readValue v).window ∧
      ∀ e rest, e.Faithful → e.tokens ++ rest = following →
        (node e).SpelledBy (opening ++ e.tokens) ∧ (node e).value = e := by
  cases opens with
  | @binding keyword name sign following isLet isName isSign =>
    have current : w.current = keyword := Window.current_of_ahead ahead
    have afterKeyword : w.advance.ahead = name :: sign :: following :=
      Window.advance_of_ahead ahead
    have peekName : w.peek = name := Window.peek_of_ahead ahead
    have peekSign : w.advance.peek = sign := Window.peek_of_ahead afterKeyword
    have afterName : w.advance.advance.ahead = sign :: following :=
      Window.advance_of_ahead afterKeyword
    refine ⟨w.advance.advance.advance, .binding keyword ⟨name, name.literal⟩,
      Window.advance_of_ahead afterName, rfl, ?_, ?_, ?_⟩
    · rw [readStatement_of_let (current ▸ isLet), readBinding,
        Window.expect_of_eq (peekName ▸ isName), Reading.andThen_of_ok rfl,
        Window.expect_of_eq (peekSign ▸ isSign), Reading.andThen_of_ok rfl, current, peekName]
      rfl
    · rw [readStatement_of_let (current ▸ isLet), readBinding,
        Window.expect_of_eq (peekName ▸ isName), Reading.andThen_of_ok rfl,
        Window.expect_of_eq (peekSign ▸ isSign), Reading.andThen_of_ok rfl]
      rfl
    · exact fun e rest faithful _ => ⟨.binding isLet isName isSign faithful, rfl⟩
  | @returning keyword following isReturn =>
    have current : w.current = keyword := Window.current_of_ahead ahead
    refine ⟨w.advance, .returning keyword, Window.advance_of_ahead ahead, rfl, ?_, ?_, ?_⟩
    · rw [readStatement_of_return (current ▸ isReturn), readReturning, current]
      rfl
    · rw [readStatement_of_return (current ▸ isReturn), readReturning]
      rfl
    · exact fun e rest faithful _ => ⟨.returning isReturn faithful, rfl⟩
  | @bare first rest noLet noReturn =>
    have current : w.current = first := Window.current_of_ahead ahead
    refine ⟨w, .bare first, ahead, rfl, ?_, ?_, ?_⟩
    · rw [readStatement_of_other (current ▸ noLet) (current ▸ noReturn), readBare, current]
      rfl
    · rw [readStatement_of_other (current ▸ noLet) (current ▸ noReturn), readBare]
      rfl
    · intro e behind faithful spelled
      obtain ⟨token, tokens, split, -⟩ := faithful.exists_tokens_eq_cons
      rw [split, List.cons_append, List.cons.injEq] at spelled
      exact ⟨.bare (by rw [split, spelled.1, List.head?_cons]) faithful, rfl⟩

private theorem kind_headD_ne {tokens : List Token} {finish : Position} {kind : Kind}
    (other : ∀ token ∈ tokens.head?, token.kind ≠ kind) (noEnd : Kind.endOfInput ≠ kind) :
    (tokens.headD (.endOfInput finish)).kind ≠ kind := by
  cases tokens with
  | nil => exact noEnd -- the end of the text is not the kind that is missing either
  | cons token rest => exact other token rfl

/-- The statement at the front is sound: its tokens and the semicolon behind them are read. -/
structure SoundAs (w : Window) (s : Statement) (own following : List Token) : Prop where
  result : (standard.readStatement w).result = .ok s
  grouped : s.value.Grouped
  spelled : s.SpelledBy own
  ahead : w.ahead = own ++ following
  ends : Ends following (standard.readStatement w).window.advance.ahead

/-- The statement at the front is broken. Reading stops no further on than where the gap is. -/
structure BrokenBy (w : Window) (gap : Gap) (found : List Token) : Prop where
  breaks : Breaks w.ahead gap found
  result : (standard.readStatement w).result = .error (gap.diagnostic (found.headD w.final))
  behind : found <:+ (standard.readStatement w).window.ahead

theorem sound_of_opens {opening following rest : List Token} (opens : Opens opening following)
    (ahead : w.ahead = opening ++ following)
    (walk : chainEnd .default .operand following = .ok rest) :
    ∃ s own, SoundAs w s own rest := by
  obtain ⟨v, node, behind, -, result, window, spelled⟩ := readStatement_of_opens opens ahead
  rw [← behind] at walk
  obtain ⟨e, read, faithful, grouped, split, ends⟩ := readValue_of_ok walk
  obtain ⟨own, value⟩ := spelled e rest faithful (split.trans behind)
  refine ⟨node e, opening ++ e.tokens, ?_, ?_, own, ?_, ?_⟩
  · rw [result, read]
    rfl
  · rwa [value]
  · rw [ahead, ← behind, ← split, List.append_assoc]
  · rwa [window]

theorem broken_of_breaks {gap : Gap} {found : List Token} (breaks : Breaks w.ahead gap found) :
    BrokenBy w gap found := by
  generalize ahead : w.ahead = tokens at breaks
  have kept := breaks
  rw [← ahead] at kept
  cases breaks with
  | @name keyword found isLet noName =>
    have current : w.current = keyword := Window.current_of_ahead ahead
    have missing : w.peek.kind ≠ .identifier := by
      rw [Window.peek_of_ahead ahead]
      exact kind_headD_ne noName (by decide)
    obtain ⟨failed, stopped⟩ := readBinding_of_no_name missing
    refine ⟨kept, ?_, ?_⟩
    · rw [readStatement_of_let (current ▸ isLet), failed, Window.peek_of_ahead ahead]
    · rw [readStatement_of_let (current ▸ isLet), stopped, ahead]
      exact List.suffix_cons keyword found
  | @sign keyword name found isLet isName noSign =>
    have current : w.current = keyword := Window.current_of_ahead ahead
    have peek : w.peek = name := Window.peek_of_ahead ahead
    have advanced : w.advance.ahead = name :: found := Window.advance_of_ahead ahead
    have missing : w.advance.peek.kind ≠ .assignment := by
      rw [Window.peek_of_ahead advanced]
      exact kind_headD_ne noSign (by decide)
    obtain ⟨failed, stopped⟩ := readBinding_of_no_sign (peek ▸ isName) missing
    refine ⟨kept, ?_, ?_⟩
    · rw [readStatement_of_let (current ▸ isLet), failed, Window.peek_of_ahead advanced]
      rfl
    · rw [readStatement_of_let (current ▸ isLet), stopped, advanced]
      exact List.suffix_cons name found
  | @operand opening following found opens walk =>
    obtain ⟨v, node, behind, final, result, window, -⟩ := readStatement_of_opens opens ahead
    rw [← behind] at walk
    obtain ⟨failed, stopped⟩ := readValue_of_error walk
    refine ⟨kept, ?_, ?_⟩
    · rw [result, failed, final]
      rfl
    · have same : (standard.readStatement w).window.ahead = found := by rw [window, stopped]
      exact ⟨[], same.symm⟩

/-- A statement is either sound or broken. -/
theorem readStatement_outcome (some_left : 0 < w.left) :
    (∃ s own following, SoundAs w s own following) ∨ ∃ gap found, BrokenBy w gap found := by
  rcases opens_or_breaks (List.length_pos_iff.mp some_left) with
    ⟨opening, following, rest, ahead, opens, walk⟩ | ⟨gap, found, breaks⟩
  · obtain ⟨s, own, sound⟩ := sound_of_opens opens ahead walk
    exact .inl ⟨s, own, rest, sound⟩
  · exact .inr ⟨gap, found, broken_of_breaks breaks⟩

end Handlers

/-! ### The outcome is determined by the tokens -/

theorem chainEnd_tokens {e : Expression} (faithful : e.Faithful) (rest : List Token) :
    chainEnd .default .operand (e.tokens ++ rest) = chainEnd .default .operator rest := by
  induction e generalizing rest with
  | identifier name => exact chainEnd_atom (.inl faithful.1) rest
  | integer token value =>
    exact chainEnd_atom (Token.isAtom_of_integerValue? faithful.1 faithful.2) rest
  | unary token operator operand ih =>
    rw [Expression.tokens, List.cons_append, chainEnd_sign faithful.1, ih faithful.2.2]
  | binary token left operator right leftIh rightIh =>
    have binds := (bindingPower_of_mem_standardJoining faithful.1).1
    rw [Expression.tokens, List.append_assoc, leftIh faithful.2.2.1, List.cons_append,
      chainEnd_continue ⟨binds, faithful.1⟩, rightIh faithful.2.2.2]

namespace Ends

variable {following rest other : List Token}

theorem chainEnd_eq (ends : Ends following rest) :
    chainEnd .default .operator following = .ok following := by
  apply chainEnd_stop
  rintro token first ⟨-, joins⟩
  cases ends with
  | closed semicolon =>
    obtain rfl := Option.some.inj first
    rw [semicolon] at joins
    exact absurd joins (by decide)
  | unclosed stops => exact (stops token first).2 joins

theorem unique (ends : Ends following rest) (again : Ends following other) : rest = other := by
  cases ends with
  | closed semicolon =>
    cases again with
    | closed => rfl
    | unclosed stops => exact absurd semicolon (stops _ rfl).1
  | unclosed stops =>
    cases again with
    | closed semicolon => exact absurd semicolon (stops _ rfl).1
    | unclosed => rfl

end Ends

theorem Expression.Faithful.not_isBoundary {e : Expression} (faithful : e.Faithful) {first : Token}
    {rest : List Token} (split : e.tokens = first :: rest) : ¬ first.kind.IsBoundary := by
  obtain ⟨token, tokens, same, begins⟩ := faithful.exists_tokens_eq_cons
  obtain ⟨rfl, -⟩ := List.cons.inj (split.symm.trans same)
  exact begins.elim (·.not_isBoundary) (·.not_isBoundary)

namespace Statement.SpelledBy

variable {s t : Statement} {own other : List Token}

theorem exists_opens (spelled : s.SpelledBy own) :
    ∃ opening, own = opening ++ s.value.tokens ∧ s.value.Faithful ∧
      ∀ following, Opens opening (s.value.tokens ++ following) := by
  cases spelled with
  | binding isLet isName isSign faithful =>
    exact ⟨_, rfl, faithful, fun following => .binding isLet isName isSign⟩
  | returning isReturn faithful =>
    exact ⟨_, rfl, faithful, fun following => .returning isReturn⟩
  | @bare first e head faithful =>
    obtain ⟨rest, split⟩ := List.head?_eq_some_iff.mp head
    have inside := faithful.not_isBoundary split
    refine ⟨[], rfl, faithful, fun following => ?_⟩
    rw [value, split]
    exact .bare (fun keyword => inside (.inr (.inl keyword)))
      (fun keyword => inside (.inr (.inr keyword)))

theorem unique (spelled : s.SpelledBy own) (again : t.SpelledBy other) (same : own = other)
    (grouped : s.value.Grouped) (otherGrouped : t.value.Grouped) : s = t := by
  -- the first token tells the three kinds of statement apart
  cases spelled with
  | binding isLet isName isSign faithful =>
    cases again with
    | binding _ _ _ otherFaithful =>
      simp only [List.cons.injEq] at same
      obtain ⟨rfl, rfl, rfl, tokens⟩ := same
      obtain rfl := Expression.eq_of_tokens_eq faithful grouped otherFaithful otherGrouped tokens
      rfl
    | returning isReturn _ =>
      obtain ⟨rfl, -⟩ := List.cons.inj same
      rw [isLet] at isReturn
      cases isReturn
    | bare _ otherFaithful =>
      exact absurd (.inr (.inl isLet)) (otherFaithful.not_isBoundary same.symm)
  | returning isReturn faithful =>
    cases again with
    | binding isLet _ _ _ =>
      obtain ⟨rfl, -⟩ := List.cons.inj same
      rw [isLet] at isReturn
      cases isReturn
    | returning _ otherFaithful =>
      obtain ⟨rfl, tokens⟩ := List.cons.inj same
      obtain rfl := Expression.eq_of_tokens_eq faithful grouped otherFaithful otherGrouped tokens
      rfl
    | bare _ otherFaithful =>
      exact absurd (.inr (.inr isReturn)) (otherFaithful.not_isBoundary same.symm)
  | bare head faithful =>
    cases again with
    | binding isLet _ _ _ => exact absurd (.inr (.inl isLet)) (faithful.not_isBoundary same)
    | returning isReturn _ => exact absurd (.inr (.inr isReturn)) (faithful.not_isBoundary same)
    | bare otherHead otherFaithful =>
      obtain rfl := Expression.eq_of_tokens_eq faithful grouped otherFaithful otherGrouped same
      rw [head] at otherHead
      cases otherHead
      rfl

end Statement.SpelledBy

namespace Handlers

/-- The tokens of a statement, with an end behind them, are read as that statement. -/
theorem readStatement_of_spelledBy {w : Window} {s : Statement} {own following rest : List Token}
    (spelled : s.SpelledBy own) (grouped : s.value.Grouped) (ahead : w.ahead = own ++ following)
    (ends : Ends following rest) :
    (standard.readStatement w).result = .ok s ∧
      (standard.readStatement w).window.advance.ahead = rest := by
  obtain ⟨opening, split, faithful, opens⟩ := spelled.exists_opens
  rw [split, List.append_assoc] at ahead
  obtain ⟨v, node, behind, -, result, window, fits⟩ :=
    readStatement_of_opens (opens following) ahead
  have walk : chainEnd .default .operand v.ahead = .ok following := by
    rw [behind, chainEnd_tokens faithful, ends.chainEnd_eq]
  obtain ⟨e, read, eFaithful, eGrouped, tokens, eEnds⟩ := readValue_of_ok walk
  -- the tree that has been read and `s` have the same tokens and are both grouped
  obtain ⟨own', value⟩ := fits e following eFaithful (tokens.trans behind)
  have same : e.tokens = s.value.tokens :=
    List.append_cancel_right (tokens.trans behind)
  have again : node e = s :=
    own'.unique spelled (by rw [split, same]) (by rw [value]; exact eGrouped) grouped
  exact ⟨by rw [result, read, ← again]; rfl, by rw [window]; exact eEnds.unique ends⟩

end Handlers

end Frontend
