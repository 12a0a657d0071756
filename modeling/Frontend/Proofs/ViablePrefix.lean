import Frontend.Proofs.Acceptance
import Frontend.Proofs.Gaps
import Frontend.Proofs.Recovery

/-!
# The first diagnostic

The first diagnostic of a text is for the earliest token that can be to blame
(`first_diagnostic_earliest`): what stands before that token can be completed to a text without
diagnostics, and with that token it cannot, under any reading of the ambiguous grammar.

This is so of a broken statement (`Breaks.stuck`), and it stays so behind a sound one
(`Stuck.behind`), since reading takes the same statement off the front whatever the rest is.
-/
namespace Frontend

open scoped Computability

/-! ### The grammar does not look at positions -/

namespace Grammar

/-- Tokens of the same lexemes are in the language, wherever they stand. -/
def IgnoresPositions (l : Language Token) : Prop :=
  ∀ ⦃tokens others : List Token⦄, tokens.map Token.lexeme = others.map Token.lexeme →
    tokens ∈ l → others ∈ l

section

variable {l m : Language Token}

theorem ignoresPositions_single {P : Token → Prop}
    (carries : ∀ ⦃s t : Token⦄, s.lexeme = t.lexeme → P s → P t) :
    IgnoresPositions {tokens | ∃ token, P token ∧ tokens = [token]} := by
  rintro tokens others same ⟨token, holds, rfl⟩
  rw [List.map_singleton, eq_comm, List.map_eq_singleton_iff] at same
  obtain ⟨other, rfl, lexeme⟩ := same
  exact ⟨other, carries lexeme.symm holds, rfl⟩

theorem ignoresPositions_ofKinds (kinds : List Kind) : IgnoresPositions (ofKinds kinds) :=
  ignoresPositions_single fun _ _ same member => by rwa [← (Lexeme.mk.inj same).1]

theorem ignoresPositions_atom : IgnoresPositions atom := by
  refine ignoresPositions_single fun s t same isAtom => ?_
  obtain ⟨kind, literal⟩ := Lexeme.mk.inj same
  rwa [Token.IsAtom, ← kind, ← literal]

theorem ignoresPositions_one : IgnoresPositions 1 := by
  rintro tokens others same rfl
  exact List.map_eq_nil_iff.mp same.symm

theorem IgnoresPositions.add (first : IgnoresPositions l) (second : IgnoresPositions m) :
    IgnoresPositions (l + m) := by
  rintro tokens others same (inFirst | inSecond)
  · exact .inl (first same inFirst)
  · exact .inr (second same inSecond)

theorem IgnoresPositions.mul (first : IgnoresPositions l) (second : IgnoresPositions m) :
    IgnoresPositions (l * m) := by
  intro tokens others same member
  obtain ⟨front, inFirst, back, inSecond, rfl⟩ := Language.mem_mul.mp member
  rw [List.map_append, eq_comm, List.map_eq_append_iff] at same
  obtain ⟨otherFront, otherBack, rfl, left, right⟩ := same
  exact Language.append_mem_mul (first left.symm inFirst) (second right.symm inSecond)

theorem IgnoresPositions.kstar (ignores : IgnoresPositions l) : IgnoresPositions l∗ := by
  intro tokens others same member
  obtain ⟨parts, rfl, inside⟩ := Language.mem_kstar.mp member
  clear member
  induction parts generalizing others with
  | nil =>
    rw [List.map_eq_nil_iff.mp same.symm]
    exact Language.nil_mem_kstar l
  | cons part parts ih =>
    rw [List.flatten_cons, List.map_append, eq_comm, List.map_eq_append_iff] at same
    obtain ⟨front, back, rfl, left, right⟩ := same
    have first := ignores left.symm (inside part List.mem_cons_self)
    exact append_mem_kstar first (ih (fun other later => inside other (.tail _ later)) right.symm)

end

theorem ignoresPositions_program : IgnoresPositions program := by
  have operands : IgnoresPositions operand :=
    (ignoresPositions_ofKinds _).kstar.mul ignoresPositions_atom
  have chains : IgnoresPositions chain :=
    operands.mul ((ignoresPositions_ofKinds _).mul operands).kstar
  have bindings : IgnoresPositions
      (ofKinds [.letKeyword] * ofKinds [.identifier] * ofKinds [.assignment]) :=
    ((ignoresPositions_ofKinds _).mul (ignoresPositions_ofKinds _)).mul (ignoresPositions_ofKinds _)
  have openings : IgnoresPositions opening :=
    (bindings.add (ignoresPositions_ofKinds _)).add ignoresPositions_one
  have closings := (ignoresPositions_ofKinds [.semicolon]).add ignoresPositions_one
  exact ((openings.mul chains).mul closings).kstar

/-! ### The statement at the front of a program -/

theorem not_mem_program_of_breaks {tokens found : List Token} {gap : Gap}
    (breaks : Breaks tokens gap found) : tokens ∉ program := by
  intro isProgram
  have some_left : 0 < (Window.mk tokens .start).left := List.length_pos_iff.mpr breaks.ne_nil
  obtain ⟨s, own, following, sound, -⟩ := sound_of_mem_program isProgram some_left
  have broken : Handlers.BrokenBy ⟨tokens, .start⟩ gap found := Handlers.broken_of_breaks breaks
  cases sound.result.symm.trans broken.result

/-- Behind the statement that is read off the front of a program, a program is left. -/
theorem mem_program_of_spelledBy {s : Statement} {own following rest : List Token}
    (spelled : s.SpelledBy own) (grouped : s.value.Grouped) (ends : Ends following rest)
    (isProgram : own ++ following ∈ program) : rest ∈ program := by
  let w : Window := ⟨own ++ following, .start⟩
  have some_left : 0 < w.left :=
    List.length_pos_iff.mpr (List.append_ne_nil_of_left_ne_nil spelled.ne_nil following)
  obtain ⟨t, taken, behind, sound, leaves⟩ := sound_of_mem_program isProgram some_left
  have stopped := (Handlers.readStatement_of_spelledBy (w := w) spelled grouped rfl ends).2
  exact leaves rest (stopped ▸ sound.ends)

end Grammar

open Grammar

/-! ### Where a text goes wrong -/

/-- The tokens can be completed to a program, but not by anything that begins as `found` does. -/
structure Stuck (before : List Token) (gap : Gap) (found : List Token) : Prop where
  completed : before ++ gap.filling ∈ program
  refused : ∀ other, other.head? = found.head? → before ++ other ∉ program

theorem Breaks.stuck {before found : List Token} {gap : Gap}
    (breaks : Breaks (before ++ found) gap found) : Stuck before gap found where
  completed := by
    obtain ⟨s, spelled⟩ := breaks.filled
    have whole := ends_append_mem_program (spelledBy_mem_body spelled) (.unclosed (by simp))
      (Language.nil_mem_kstar statement)
    rwa [List.append_nil] at whole
  refused := by
    intro other first
    have refused := breaks.not_admits
    rw [← first] at refused
    exact not_mem_program_of_breaks (breaks.change refused fun _ => first)

theorem Stuck.behind {before found following own : List Token} {gap : Gap} {s : Statement}
    (stuck : Stuck before gap found) (spelled : s.SpelledBy own) (grouped : s.value.Grouped)
    (ends : Ends following (before ++ found)) :
    ∃ closing, following = closing ++ (before ++ found) ∧
      Stuck (own ++ (closing ++ before)) gap found := by
  obtain ⟨closing, split, isClosing, endsBefore⟩ := exists_closing_of_ends ends
  refine ⟨closing, split, ?_, ?_⟩
  · rw [List.append_assoc, List.append_assoc]
    exact closing_append_mem_program (spelledBy_mem_body spelled) isClosing stuck.completed
  · intro other first isProgram
    rw [List.append_assoc, List.append_assoc] at isProgram
    have same : (before ++ other).head? = (before ++ found).head? := by
      rw [List.head?_append, List.head?_append, first]
    exact stuck.refused other first
      (mem_program_of_spelledBy spelled grouped (endsBefore _ same) isProgram)

/-- The first diagnostic is for the token that the text is stuck at, or for the end of the text. -/
theorem Account.exists_stuck {finish : Position} {tokens : List Token} {items : List Item}
    {d : Diagnostic} (account : Account finish tokens items)
    (first : (diagnosticsOfItems items).head? = some d) :
    ∃ before gap found, tokens = before ++ found ∧ Stuck before gap found ∧
      d = gap.diagnostic (found.headD (.endOfInput finish)) := by
  induction account with
  | nil => cases first
  | @sound s own following rest items spelled grouped ends _ ih =>
    obtain ⟨before, gap, found, rfl, stuck, blamed⟩ := ih first
    obtain ⟨closing, rfl, stuckBehind⟩ := stuck.behind spelled grouped ends
    exact ⟨_, gap, found, by simp only [List.append_assoc], stuckBehind, blamed⟩
  | @broken tokens found gap items breaks _ _ =>
    obtain rfl := Option.some.inj first
    obtain ⟨before, rfl, -⟩ := breaks.exists_before
    exact ⟨before, gap, found, rfl, breaks.stuck, rfl⟩

theorem Gap.position_diagnostic (gap : Gap) (found : Token) :
    (gap.diagnostic found).position = found.position := by
  cases gap with
  | name => rfl
  | sign => rfl
  | operand =>
    rw [diagnostic, operandDiagnostic, missingOperand]
    split
    · rfl
    · split <;> rfl

/-! ### Texts without diagnostics -/

/-- Some text without diagnostics begins with tokens of these lexemes. -/
def Viable (tokens : List Token) : Prop :=
  ∃ text, (parse text).2 = [] ∧
    tokens.map Token.lexeme <+: (tokenize text).map Token.lexeme

/-- Some text without diagnostics has tokens of these lexemes, and no others before its end. -/
def Acceptable (tokens : List Token) : Prop :=
  ∃ text, (parse text).2 = [] ∧
    tokens.map Token.lexeme = (tokenize text).dropLast.map Token.lexeme

theorem diagnostics_eq_nil_iff_ahead_mem (source : String) :
    (parse source).2 = [] ↔ (Window.ofSource source).ahead ∈ program :=
  diagnostics_readItems_eq_nil_iff _

theorem mem_program_of_acceptable {tokens : List Token} (acceptable : Acceptable tokens) :
    tokens ∈ program := by
  obtain ⟨text, none, same⟩ := acceptable
  rw [← ahead_ofSource] at same
  exact ignoresPositions_program same.symm ((diagnostics_eq_nil_iff_ahead_mem text).mp none)

theorem exists_append_mem_program_of_viable {tokens : List Token} (viable : Viable tokens)
    (noEnd : ∀ token ∈ tokens, token.kind ≠ .endOfInput) :
    ∃ more, tokens ++ more ∈ program := by
  obtain ⟨text, none, front⟩ := viable
  rw [tokenize_eq, List.map_append, List.map_singleton, List.prefix_concat_iff] at front
  rcases front with whole | ⟨rest, same⟩
  · -- the end of the text is not among the tokens
    have last : (Window.ofSource text).final.lexeme ∈ tokens.map Token.lexeme := by simp [whole]
    obtain ⟨token, member, same⟩ := List.mem_map.mp last
    exact absurd (Lexeme.mk.inj same).1 (noEnd token member)
  · rw [eq_comm, List.map_eq_append_iff] at same
    obtain ⟨first, more, split, lexemes, -⟩ := same
    refine ⟨more, ignoresPositions_program ?_ ((diagnostics_eq_nil_iff_ahead_mem text).mp none)⟩
    rw [split, List.map_append, List.map_append, lexemes]

/-- What completes a text that ends at the gap. -/
def Gap.completion : Gap → String
  | name => "x = x"
  | sign => "= x"
  | operand => "x"

theorem Gap.map_lexeme_scan_completion (gap : Gap) (offset : Nat) :
    (scan offset gap.completion.toList).map Token.lexeme = gap.filling.map Token.lexeme := by
  rw [map_lexeme_scan offset 0]
  cases gap with
  | name => decide +kernel
  | sign => decide +kernel
  | operand => decide +kernel

theorem Stuck.viable {text : List Char} {gap : Gap} {found : List Token}
    (stuck : Stuck (scan 0 text) gap found) : Viable (scan 0 text) := by
  -- the text itself, cut where it goes wrong, and then what fills the gap
  have ahead : (Window.ofSource (String.ofList (text ++ ' ' :: gap.completion.toList))).ahead =
      scan 0 text ++ scan (0 + Text.byteLength text + ' '.utf8Size) gap.completion.toList := by
    rw [Window.ofSource, Window.ofText, String.toList_ofList]
    exact scan_append_layout (by decide) 0 text _
  refine ⟨String.ofList (text ++ ' ' :: gap.completion.toList), ?_, ?_⟩
  · rw [diagnostics_eq_nil_iff_ahead_mem, ahead]
    refine ignoresPositions_program ?_ stuck.completed
    rw [List.map_append, List.map_append, gap.map_lexeme_scan_completion]
  · rw [tokenize_eq, ahead, List.append_assoc, List.map_append]
    exact List.prefix_append _ _

theorem Stuck.not_viable {before found : List Token} {token : Token} {gap : Gap}
    (stuck : Stuck before gap (token :: found))
    (noEnd : ∀ other ∈ before ++ [token], other.kind ≠ .endOfInput) :
    ¬ Viable (before ++ [token]) := by
  intro viable
  obtain ⟨more, isProgram⟩ := exists_append_mem_program_of_viable viable noEnd
  rw [List.append_assoc] at isProgram
  exact stuck.refused (token :: more) rfl isProgram

theorem Stuck.not_acceptable {before : List Token} {gap : Gap} (stuck : Stuck before gap []) :
    ¬ Acceptable before := by
  intro acceptable
  have isProgram := mem_program_of_acceptable acceptable
  rw [← List.append_nil before] at isProgram
  exact stuck.refused [] rfl isProgram

/-- The first diagnostic of a text is for the earliest token that can be to blame, and no other
token stands at its position. The tokens before it are the beginning of some text without
diagnostics. If it is not the end of the text, then with it they are the beginning of none; if it
is the end, then by themselves they are no text without diagnostics. -/
theorem first_diagnostic_earliest {source : String} {d : Diagnostic}
    (fits : source.utf8ByteSize ≤ Position.limit) (first : (parse source).2.head? = some d) :
    ∃ before token after, tokenize source = before ++ token :: after ∧
      token.position = d.position ∧ (∀ other ∈ before ++ after, other.position ≠ d.position) ∧
      Viable before ∧
      (token.kind ≠ .endOfInput ∧ ¬ Viable (before ++ [token]) ∨
        token.kind = .endOfInput ∧ ¬ Acceptable before) := by
  obtain ⟨before, gap, found, ahead, stuck, rfl⟩ := (account_itemsOf fits).exists_stuck first
  have viable : Viable before := by
    obtain ⟨text, -, rfl⟩ := exists_prefix_of_scan ahead
    exact stuck.viable
  have tokens := tokenize_eq source
  rw [ahead, List.append_assoc] at tokens
  rw [Gap.position_diagnostic]
  cases found with
  | nil =>
    exact ⟨before, _, [], tokens, rfl, position_ne_of_tokenize_eq fits tokens, viable,
      .inr ⟨rfl, stuck.not_acceptable⟩⟩
  | cons token found =>
    have inside : before ++ [token] <+: (Window.ofSource source).ahead :=
      ⟨found, by rw [ahead, List.append_assoc, List.singleton_append]⟩
    have noEnd : ∀ other ∈ before ++ [token], other.kind ≠ .endOfInput :=
      fun other member => kind_ne_endOfInput_of_mem_scan (inside.subset member)
    exact ⟨before, token, _, tokens, rfl, position_ne_of_tokenize_eq fits tokens, viable,
      .inl ⟨noEnd token (by simp), stuck.not_viable noEnd⟩⟩

theorem first_diagnostic_earliest_of_missing_operand :
    "let a = b -c d * ; return".utf8ByteSize ≤ Position.limit ∧
      (parse "let a = b -c d * ; return").2.head? = some ⟨.missingOperand .semicolon, ⟨17⟩⟩ ∧
      ∃ before token after,
        tokenize "let a = b -c d * ; return" = before ++ token :: after ∧
          token.position = ⟨17⟩ ∧ (∀ other ∈ before ++ after, other.position ≠ ⟨17⟩) ∧
          Viable before ∧
          (token.kind ≠ .endOfInput ∧ ¬ Viable (before ++ [token]) ∨
            token.kind = .endOfInput ∧ ¬ Acceptable before) := by
  have first : (parse "let a = b -c d * ; return").2.head? =
      some ⟨.missingOperand .semicolon, ⟨17⟩⟩ := by
    decide +kernel
  exact ⟨by decide, first, first_diagnostic_earliest (by decide) first⟩

end Frontend
