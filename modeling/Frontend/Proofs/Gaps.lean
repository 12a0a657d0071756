import Frontend.Proofs.StatementOutcome

/-!
# What may follow at a gap

A broken statement is broken at its gap because of the next token alone. Whatever else is found
there, the statement is broken at the same gap unless that is admitted (`Breaks.change`); and there
is always something that makes it a whole statement (`Breaks.filled`).
-/
namespace Frontend

/-- The token is what is missing at the gap, or begins it. -/
def Gap.Admits : Gap → Token → Prop
  | name, token => token.kind = .identifier
  | sign, token => token.kind = .assignment
  | operand, token => token.kind.IsSign ∨ token.IsAtom

theorem Gap.Admits.not_isBoundary {gap : Gap} {token : Token} (admits : gap.Admits token) :
    ¬ token.kind.IsBoundary := by
  cases gap with
  | name => rw [show token.kind = .identifier from admits]; decide
  | sign => rw [show token.kind = .assignment from admits]; decide
  | operand => exact admits.elim (·.not_isBoundary) (·.not_isBoundary)

theorem Breaks.not_admits {tokens found : List Token} {gap : Gap}
    (breaks : Breaks tokens gap found) : ∀ token ∈ found.head?, ¬ gap.Admits token := by
  cases breaks with
  | name isLet noName => exact noName
  | sign isLet isName noSign => exact noSign
  | operand opens walk =>
    obtain ⟨passed, -, -, blocked⟩ := exists_passed_of_chainEnd walk
    exact fun token first => not_or.mpr (blocked token first)

/-- What opens a statement does so whatever comes behind its first token. -/
theorem Opens.change {opening passed found other : List Token}
    (opens : Opens opening (passed ++ found))
    (first : opening ++ passed = [] → other.head? = found.head?) :
    Opens opening (passed ++ other) := by
  generalize split : passed ++ found = following at opens
  cases opens with
  | binding isLet isName isSign => exact .binding isLet isName isSign
  | returning isReturn => exact .returning isReturn
  | bare noLet noReturn =>
    cases passed with
    | nil =>
      rw [List.nil_append] at split
      have same := first rfl
      rw [split] at same
      obtain ⟨rest, rfl⟩ := List.head?_eq_some_iff.mp same
      exact .bare noLet noReturn
    | cons token passed =>
      obtain ⟨rfl, -⟩ := List.cons.inj split
      exact .bare noLet noReturn

/-- A statement that is broken at a gap is broken there by anything that is not admitted. Only if
nothing stands before the gap, the token that is found there opens the statement. -/
theorem Breaks.change {before found other : List Token} {gap : Gap}
    (breaks : Breaks (before ++ found) gap found)
    (refused : ∀ token ∈ other.head?, ¬ gap.Admits token)
    (first : before = [] → other.head? = found.head?) : Breaks (before ++ other) gap other := by
  generalize split : before ++ found = tokens at breaks
  cases breaks with
  | @name keyword _ isLet =>
    obtain rfl : before = [keyword] := List.append_cancel_right split
    exact .name isLet refused
  | @sign keyword name _ isLet isName =>
    obtain rfl : before = [keyword, name] := List.append_cancel_right split
    exact .sign isLet isName refused
  | @operand opening following _ opens walk =>
    obtain ⟨passed, rfl, passes, -⟩ := exists_passed_of_chainEnd walk
    rw [← List.append_assoc] at split
    obtain rfl : before = opening ++ passed := List.append_cancel_right split
    have blocked : ∀ token ∈ other.head?, ¬ token.kind.IsSign ∧ ¬ token.IsAtom :=
      fun token next => not_or.mp (refused token next)
    rw [List.append_assoc]
    exact .operand (opens.change first) ((passes.leads other).trans (chainEnd_stuck blocked))

/-- What makes a statement whole that is broken at the gap. -/
def Gap.filling : Gap → List Token
  | name => [⟨.identifier, "x", .start⟩, ⟨.assignment, "=", .start⟩, ⟨.identifier, "x", .start⟩]
  | sign => [⟨.assignment, "=", .start⟩, ⟨.identifier, "x", .start⟩]
  | operand => [⟨.identifier, "x", .start⟩]

theorem Breaks.filled {before found : List Token} {gap : Gap}
    (breaks : Breaks (before ++ found) gap found) :
    ∃ s : Statement, s.SpelledBy (before ++ gap.filling) := by
  have faithful : (Expression.identifier ⟨⟨.identifier, "x", .start⟩, "x"⟩).Faithful :=
    ⟨rfl, rfl⟩
  generalize split : before ++ found = tokens at breaks
  cases breaks with
  | @name keyword _ isLet =>
    obtain rfl : before = [keyword] := List.append_cancel_right split
    exact ⟨_, .binding isLet rfl rfl faithful⟩
  | @sign keyword name _ isLet isName =>
    obtain rfl : before = [keyword, name] := List.append_cancel_right split
    exact ⟨_, .binding isLet isName rfl faithful⟩
  | @operand opening following _ opens walk =>
    obtain ⟨passed, rfl, passes, -⟩ := exists_passed_of_chainEnd walk
    rw [← List.append_assoc] at split
    obtain rfl : before = opening ++ passed := List.append_cancel_right split
    by_cases empty : opening ++ passed = []
    · rw [empty]
      exact ⟨_, .bare rfl faithful⟩
    · have opensFilled : Opens opening (passed ++ Gap.operand.filling) :=
        opens.change fun none => absurd none empty
      have ends : chainEnd .default .operand (passed ++ Gap.operand.filling) = .ok [] := by
        rw [passes.leads]
        exact chainEnd_atom (.inl rfl) []
      obtain ⟨s, own, sound⟩ :=
        Handlers.sound_of_opens (w := ⟨opening ++ (passed ++ Gap.operand.filling), .start⟩)
          opensFilled rfl ends
      have spelled := sound.spelled
      rw [← List.append_nil own, ← sound.ahead] at spelled
      exact ⟨s, by rwa [List.append_assoc]⟩

end Frontend
