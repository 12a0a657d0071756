import Frontend.Proofs.Interruption
import Frontend.Proofs.ViablePrefix

/-!
# The tokens to blame

Each diagnostic is for one token of the text, and what it says of that token holds
(`diagnostics_describe_tokens`). The diagnostics come in the order of the text, and no token is
blamed twice (`diagnostics_in_source_order`). Reading may go on at the very token that was to blame,
if this is a keyword. But the keyword that a statement begins with is never what is wrong with it,
so the next diagnostic is for a token further on (`blamable`).
-/
namespace Frontend

/-! ### The order of the diagnostics -/

/-- The tokens that can be to blame for what is wrong with the statements ahead. The keyword that
the first of them begins with cannot. -/
def blamable : List Token → List Token
  | [] => []
  | first :: rest =>
    if first.kind = .letKeyword ∨ first.kind = .returnKeyword then rest else first :: rest

theorem blamable_suffix (tokens : List Token) : blamable tokens <:+ tokens := by
  cases tokens with
  | nil => exact List.suffix_refl _
  | cons first rest =>
    rw [blamable]
    split
    · exact List.suffix_cons first rest
    · exact List.suffix_refl _

theorem suffix_blamable_cons (first : Token) (rest : List Token) :
    rest <:+ blamable (first :: rest) := by
  rw [blamable]
  split
  · exact List.suffix_refl _
  · exact List.suffix_cons first rest

/-- Where a token is passed over, or ends a broken statement, it is not to blame again. -/
theorem blamable_toBoundary_suffix (first : Token) (rest : List Token) :
    blamable (toBoundary (first :: rest)) <:+ rest := by
  rw [toBoundary]
  by_cases semicolon : first.kind = .semicolon
  · rw [if_pos semicolon]
    exact blamable_suffix rest
  · rw [if_neg semicolon]
    by_cases boundary : first.kind.IsBoundary
    · rw [if_pos boundary, blamable, if_pos (boundary.resolve_left semicolon)]
    · rw [if_neg boundary]
      exact (blamable_suffix _).trans (toBoundary_suffix rest)

namespace Breaks

variable {tokens found : List Token} {gap : Gap}

theorem suffix_blamable (breaks : Breaks tokens gap found) : found <:+ blamable tokens := by
  cases breaks with
  | name isLet => exact suffix_blamable_cons _ _
  | @sign keyword name found =>
    exact (List.suffix_cons name found).trans (suffix_blamable_cons keyword _)
  | @operand opening following found opens walk =>
    obtain ⟨passed, rfl, -⟩ := exists_passed_of_chainEnd walk
    have behind : found <:+ passed ++ found := List.suffix_append passed found
    generalize passed ++ found = following at opens behind
    apply behind.trans
    cases opens with
    | @binding keyword name sign =>
      exact (List.suffix_append [name, sign] following).trans (suffix_blamable_cons keyword _)
    | @returning keyword => exact suffix_blamable_cons keyword following
    | @bare first rest noLet noReturn =>
      rw [List.nil_append, blamable, if_neg (not_or.mpr ⟨noLet, noReturn⟩)]

/-- What is to blame for one statement is not to blame for the next ones. -/
theorem blamable_afterBroken_suffix {token : Token} (breaks : Breaks tokens gap (token :: found)) :
    blamable (afterBroken tokens) <:+ found := by
  obtain ⟨before, rfl, noSemicolon, inside⟩ := breaks.exists_before
  cases before with
  | nil =>
    rw [List.nil_append, afterBroken]
    split
    · exact blamable_suffix found
    · exact (blamable_suffix _).trans (toBoundary_suffix found)
  | cons first before =>
    rw [List.tail_cons] at inside
    rw [List.cons_append, afterBroken, if_neg (noSemicolon first List.mem_cons_self),
      toBoundary_of_inside _ inside]
    exact blamable_toBoundary_suffix token found

end Breaks

/-- The tokens that the diagnostics are for stand in this order in the text. -/
theorem Account.exists_blamed {finish : Position} {tokens : List Token} {items : List Item}
    (account : Account finish tokens items) :
    ∃ blamed : List Token, blamed.Sublist (blamable tokens ++ [.endOfInput finish]) ∧
      (diagnosticsOfItems items).map Diagnostic.position = blamed.map Token.position := by
  induction account with
  | nil => exact ⟨[], List.nil_sublist _, rfl⟩
  | @sound s own following rest items spelled grouped ends _ ih =>
    obtain ⟨blamed, inside, positions⟩ := ih
    obtain ⟨first, own, rfl⟩ := List.exists_cons_of_ne_nil spelled.ne_nil
    have behind : blamable rest <:+ blamable (first :: own ++ following) :=
      (blamable_suffix rest).trans (ends.suffix.trans
        ((List.suffix_append own following).trans (suffix_blamable_cons first _)))
    exact ⟨blamed, inside.trans (behind.sublist.append_right _), positions⟩
  | @broken tokens found gap items breaks account ih =>
    obtain ⟨blamed, inside, positions⟩ := ih
    rw [diagnosticsOfItems_cons_error, List.map_cons, Gap.position_diagnostic, positions]
    refine ⟨found.headD (.endOfInput finish) :: blamed, ?_, rfl⟩
    cases found with
    | nil =>
      -- what breaks off at the end of the text is the last statement
      rw [breaks.afterBroken_eq_nil] at account
      rw [account.items_eq_nil] at positions
      rw [List.map_eq_nil_iff.mp positions.symm]
      exact List.sublist_append_right _ _
    | cons token found =>
      have later := inside.trans (breaks.blamable_afterBroken_suffix.sublist.append_right _)
      exact (later.cons_cons token).trans (breaks.suffix_blamable.sublist.append_right _)

/-- The diagnostics are for tokens of the text, in their order, and no two are for the same one. So
their positions strictly increase. -/
theorem diagnostics_in_source_order {source : String}
    (fits : source.utf8ByteSize ≤ Position.limit) :
    ((parse source).2.map Diagnostic.position).Pairwise (fun p q => p.offset < q.offset) ∧
      ∃ blamed : List Token, blamed.Sublist (tokenize source) ∧
        (parse source).2.map Diagnostic.position = blamed.map Token.position := by
  obtain ⟨blamed, inside, positions⟩ := (account_itemsOf fits).exists_blamed
  have inText : blamed.Sublist (tokenize source) := by
    rw [tokenize_eq]
    exact inside.trans ((blamable_suffix _).sublist.append_right _)
  rw [parse_eq, positions]
  exact ⟨List.pairwise_map.mpr ((pairwise_tokenize fits).sublist inText), blamed, inText, rfl⟩

theorem diagnostics_in_source_order_of_blamed_keyword :
    "a + let x 5; é let".utf8ByteSize ≤ Position.limit ∧
      (parse "a + let x 5; é let").2.map Diagnostic.position = [⟨4⟩, ⟨10⟩, ⟨13⟩, ⟨19⟩] ∧
      ((parse "a + let x 5; é let").2.map Diagnostic.position).Pairwise
        (fun p q => p.offset < q.offset) ∧
      ∃ blamed : List Token, blamed.Sublist (tokenize "a + let x 5; é let") ∧
        (parse "a + let x 5; é let").2.map Diagnostic.position = blamed.map Token.position :=
  ⟨by decide, by decide +kernel, diagnostics_in_source_order (by decide)⟩

/-! ### What a diagnostic says -/

/-- What the cause of a diagnostic says of the token that this is for, and of the tokens before it. -/
def Cause.Describes (before : List Token) (token : Token) : Cause → Prop
  | illegalToken literal => token.kind = .illegal ∧ token.literal = literal
  | unexpectedToken expected found =>
    token.kind = found ∧ found ≠ expected ∧
      (expected = .identifier ∧ (∃ earlier keyword, before = earlier ++ [keyword] ∧
          keyword.kind = .letKeyword) ∨
        expected = .assignment ∧ ∃ earlier keyword name, before = earlier ++ [keyword, name] ∧
          keyword.kind = .letKeyword ∧ name.kind = .identifier)
  | missingOperand kind =>
    token.kind = kind ∧ kind ∉ [.illegal, .identifier, .integer, .not, .dash]
  | integerOutOfRange literal =>
    token.kind = .integer ∧ token.literal = literal ∧
      2 ^ 63 - 1 < Text.decimalValue literal.toList

/-- The end of the text is not what is missing either. -/
theorem Breaks.not_admits_headD {tokens found : List Token} {gap : Gap}
    (breaks : Breaks tokens gap found) (finish : Position) :
    ¬ gap.Admits (found.headD (.endOfInput finish)) := by
  cases found with
  | nil => cases gap <;> simp [Gap.Admits, Token.endOfInput, Kind.IsSign, Token.IsAtom]
  | cons token found => exact breaks.not_admits token rfl

theorem describes_operandDiagnostic {token : Token} (refused : ¬ Gap.operand.Admits token)
    (before : List Token) : (operandDiagnostic token).cause.Describes before token := by
  obtain ⟨noSign, noAtom⟩ := not_or.mp refused
  rw [operandDiagnostic]
  split
  next integer =>
    refine ⟨integer, rfl, ?_⟩
    have tooLarge : ¬ Text.decimalValue token.literal.toList ≤ integerLimit :=
      fun within => noAtom (.inr ⟨integer, within⟩)
    exact Nat.not_le.mp tooLarge
  next noInteger =>
    have noName : token.kind ≠ .identifier := fun name => noAtom (.inl name)
    obtain ⟨noNot, noDash⟩ := not_or.mp noSign
    rw [missingOperand]
    split
    next illegal => exact ⟨illegal, rfl⟩
    next noIllegal => exact ⟨rfl, by simp [noIllegal, noName, noInteger, noNot, noDash]⟩

/-- What is said of the token that is found at the gap of a broken statement holds. -/
theorem Breaks.describes {before found : List Token} {gap : Gap}
    (breaks : Breaks (before ++ found) gap found) (earlier : List Token) (finish : Position) :
    (gap.diagnostic (found.headD (.endOfInput finish))).cause.Describes (earlier ++ before)
      (found.headD (.endOfInput finish)) := by
  have refused := breaks.not_admits_headD finish
  generalize found.headD (.endOfInput finish) = token at refused ⊢
  generalize split : before ++ found = tokens at breaks
  cases breaks with
  | @name keyword _ isLet =>
    obtain rfl : before = [keyword] := List.append_cancel_right split
    exact ⟨rfl, refused, .inl ⟨rfl, earlier, keyword, rfl, isLet⟩⟩
  | @sign keyword name _ isLet isName =>
    obtain rfl : before = [keyword, name] := List.append_cancel_right split
    exact ⟨rfl, refused, .inr ⟨rfl, earlier, keyword, name, rfl, isLet, isName⟩⟩
  | operand => exact describes_operandDiagnostic refused _

/-- Each diagnostic is for what is found at the gap of a broken statement. -/
theorem exists_breaks_of_mem_diagnostics {source : String} {d : Diagnostic}
    (member : d ∈ (parse source).2) :
    ∃ earlier before found gap, (Window.ofSource source).ahead = earlier ++ (before ++ found) ∧
      Breaks (before ++ found) gap found ∧
      d = gap.diagnostic (found.headD (Window.ofSource source).final) := by
  rw [parse_eq, diagnosticsOfItems, itemsOf, List.mem_filterMap] at member
  obtain ⟨item, inItems, isError⟩ := member
  obtain ⟨v, ⟨⟨earlier, ahead⟩, finish⟩, some_left, rfl⟩ := Handlers.exists_of_mem_readItems inItems
  rcases Handlers.readStatement_outcome some_left with
    ⟨s, own, following, sound⟩ | ⟨gap, found, broken⟩
  · rw [sound.result] at isError
    cases isError
  · rw [broken.result, Window.final, finish] at isError
    have breaks := broken.breaks
    obtain ⟨before, split, -⟩ := breaks.exists_before
    rw [split] at breaks
    rw [← ahead, split]
    exact ⟨earlier, before, found, gap, rfl, breaks, (Option.some.inj isError).symm⟩

/-- Each diagnostic is for one token of the text, which may be its end, and what it says of that
token and of the tokens before it holds. -/
theorem diagnostics_describe_tokens {source : String} {d : Diagnostic}
    (fits : source.utf8ByteSize ≤ Position.limit) (member : d ∈ (parse source).2) :
    ∃ before token after, tokenize source = before ++ token :: after ∧
      token.position = d.position ∧ (∀ other ∈ before ++ after, other.position ≠ d.position) ∧
      d.cause.Describes before token := by
  obtain ⟨earlier, before, found, gap, ahead, breaks, rfl⟩ :=
    exists_breaks_of_mem_diagnostics member
  obtain ⟨after, behind⟩ : ∃ after, found ++ [(Window.ofSource source).final] =
      found.headD (Window.ofSource source).final :: after := by
    cases found with
    | nil => exact ⟨[], rfl⟩
    | cons token found => exact ⟨_, rfl⟩
  have tokens := tokenize_eq source
  rw [ahead, ← List.append_assoc, List.append_assoc, behind] at tokens
  have position := gap.position_diagnostic (found.headD (Window.ofSource source).final)
  refine ⟨earlier ++ before, _, after, tokens, position.symm, ?_, breaks.describes earlier _⟩
  rw [position]
  exact position_ne_of_tokenize_eq fits tokens

theorem diagnostics_describe_tokens_of_missing_sign :
    "a + let x 5; é".utf8ByteSize ≤ Position.limit ∧
      ⟨.unexpectedToken .assignment .integer, ⟨10⟩⟩ ∈ (parse "a + let x 5; é").2 ∧
      ∃ before token after, tokenize "a + let x 5; é" = before ++ token :: after ∧
        token.position = ⟨10⟩ ∧ (∀ other ∈ before ++ after, other.position ≠ ⟨10⟩) ∧
        (Cause.unexpectedToken .assignment .integer).Describes before token := by
  have member : ⟨.unexpectedToken .assignment .integer, ⟨10⟩⟩ ∈ (parse "a + let x 5; é").2 := by
    decide +kernel
  exact ⟨by decide, member, diagnostics_describe_tokens (by decide) member⟩

end Frontend
