import Frontend.Proofs.Replacement

/-!
# Only kinds matter

Two texts whose tokens are alike in kind, and in which integers are within the limit, are read
alike: the statements are the same over the tokens of the other text, and the diagnostics are the
same for its tokens (`parse_corresponds`). Positions are compared where a broken statement is
skipped, and literals are kept, but neither decides anything.
-/
namespace Frontend

/-- Two tokens that reading does not tell apart. -/
structure Token.Like (s t : Token) : Prop where
  kind : s.kind = t.kind
  limit : s.kind = .integer →
    (Text.decimalValue s.literal.toList ≤ integerLimit ↔
      Text.decimalValue t.literal.toList ≤ integerLimit)

instance : DecidableRel Token.Like := fun s t =>
  decidable_of_iff
    (s.kind = t.kind ∧ (s.kind = .integer →
      (Text.decimalValue s.literal.toList ≤ integerLimit ↔
        Text.decimalValue t.literal.toList ≤ integerLimit)))
    ⟨fun ⟨kind, limit⟩ => ⟨kind, limit⟩, fun ⟨kind, limit⟩ => ⟨kind, limit⟩⟩

theorem Token.Like.isAtom_iff {s t : Token} (like : s.Like t) : s.IsAtom ↔ t.IsAtom := by
  have limit := like.limit
  rw [like.kind] at limit
  simp only [IsAtom, like.kind]
  constructor
  · rintro (name | ⟨integer, fits⟩)
    · exact .inl name
    · exact .inr ⟨integer, (limit integer).mp fits⟩
  · rintro (name | ⟨integer, fits⟩)
    · exact .inl name
    · exact .inr ⟨integer, (limit integer).mpr fits⟩

/-! ### The tokens of the other text -/

/-- The token among `others` that stands where `token` stands among `tokens`. -/
def Token.counterpart (tokens others : List Token) (token : Token) : Token :=
  (others[tokens.idxOf token]?).getD token

section

variable {tokens others : List Token}

theorem counterpart_eq (distinct : tokens.Nodup) {k : Nat} {s t : Token}
    (first : tokens[k]? = some s) (second : others[k]? = some t) :
    s.counterpart tokens others = t := by
  obtain ⟨inside, rfl⟩ := List.getElem?_eq_some_iff.mp first
  rw [Token.counterpart, distinct.idxOf_getElem, second, Option.getD_some]

theorem exists_opposite (length : tokens.length = others.length) {k : Nat} {s : Token}
    (place : tokens[k]? = some s) : ∃ t, others[k]? = some t := by
  obtain ⟨inside, -⟩ := List.getElem?_eq_some_iff.mp place
  exact ⟨_, List.getElem?_eq_getElem (length ▸ inside)⟩

theorem map_counterpart (distinct : tokens.Nodup) (length : tokens.length = others.length) :
    tokens.map (Token.counterpart tokens others) = others := by
  apply List.ext_getElem?
  intro k
  rw [List.getElem?_map]
  cases first : tokens[k]? with
  | none =>
    rw [List.getElem?_eq_none_iff] at first
    rw [Option.map_none, List.getElem?_eq_none (by omega)]
  | some s =>
    obtain ⟨t, second⟩ := exists_opposite length first
    rw [Option.map_some, counterpart_eq distinct first second, second]

theorem like_counterpart (like : List.Forall₂ Token.Like tokens others) (token : Token) :
    token.Like (token.counterpart tokens others) := by
  by_cases member : token ∈ tokens
  · have inside := List.idxOf_lt_length_of_mem member
    have otherInside : tokens.idxOf token < others.length := by rwa [← like.length_eq]
    have found := like.get inside otherInside
    rw [List.get_eq_getElem, List.get_eq_getElem, List.getElem_idxOf] at found
    rwa [Token.counterpart, List.getElem?_eq_getElem otherInside, Option.getD_some]
  · -- a token of neither text stays as it is
    rw [Token.counterpart, List.idxOf_eq_length member,
      List.getElem?_eq_none (Nat.le_of_eq like.length_eq.symm), Option.getD_none]
    exact ⟨rfl, fun _ => Iff.rfl⟩

theorem alike_counterpart (like : List.Forall₂ Token.Like tokens others) :
    Token.Alike (Token.counterpart tokens others) :=
  ⟨fun token => (like_counterpart like token).kind.symm,
    fun token => (like_counterpart like token).isAtom_iff.symm⟩

end

/-! ### The same diagnostic for another token -/

/-- The cause with another literal, if it has one. -/
def Cause.withLiteral (literal : String) : Cause → Cause
  | illegalToken _ => illegalToken literal
  | integerOutOfRange _ => integerOutOfRange literal
  | unexpectedToken expected found => unexpectedToken expected found
  | missingOperand kind => missingOperand kind

/-- The diagnostic of that cause for the token: at its position, and with its literal. -/
def Cause.diagnostic (cause : Cause) (token : Token) : Diagnostic :=
  ⟨cause.withLiteral token.literal, token.position⟩

/-- Two diagnostics of one cause, for two tokens that stand at the same place in their texts. -/
def Diagnostic.Corresponds (tokens others : List Token) (d e : Diagnostic) : Prop :=
  ∃ (k : Nat) (s t : Token) (cause : Cause), tokens[k]? = some s ∧ others[k]? = some t ∧
    d = cause.diagnostic s ∧ e = cause.diagnostic t

theorem Gap.exists_cause (gap : Gap) {s t : Token} (kind : s.kind = t.kind) :
    ∃ cause : Cause, gap.diagnostic s = cause.diagnostic s ∧
      gap.diagnostic t = cause.diagnostic t := by
  cases gap with
  | name => exact ⟨.unexpectedToken .identifier s.kind, rfl, by rw [kind]; rfl⟩
  | sign => exact ⟨.unexpectedToken .assignment s.kind, rfl, by rw [kind]; rfl⟩
  | operand =>
    simp only [diagnostic, operandDiagnostic, missingOperand, kind]
    split
    · exact ⟨.integerOutOfRange s.literal, rfl, rfl⟩
    · split
      · exact ⟨.illegalToken s.literal, rfl, rfl⟩
      · exact ⟨.missingOperand t.kind, rfl, rfl⟩

theorem Item.Replaced.corresponds {tokens others : List Token} (distinct : tokens.Nodup)
    (like : List.Forall₂ Token.Like tokens others) {items images : List Item}
    (replaced : List.Forall₂
      (Item.Replaced (Token.counterpart tokens others) tokens) items images) :
    (Program.ofItems images).statements =
        (Program.ofItems items).statements.map
          (Statement.replace (Token.counterpart tokens others)) ∧
      List.Forall₂ (Diagnostic.Corresponds tokens others) (diagnosticsOfItems items)
        (diagnosticsOfItems images) := by
  induction replaced with
  | nil => exact ⟨rfl, .nil⟩
  | cons first _ ih =>
    obtain ⟨statements, diagnostics⟩ := ih
    cases first with
    | sound => exact ⟨congrArg (_ :: ·) statements, diagnostics⟩
    | @broken gap token member =>
      refine ⟨statements, .cons ?_ diagnostics⟩
      obtain ⟨k, place⟩ := List.mem_iff_getElem?.mp member
      obtain ⟨other, opposite⟩ := exists_opposite like.length_eq place
      obtain ⟨cause, first, second⟩ :=
        gap.exists_cause (like_counterpart like token).kind
      refine ⟨k, token, _, cause, place, ?_, first, second⟩
      rw [counterpart_eq distinct place opposite, opposite]

/-- Nothing but the kinds of the tokens, and which integers are within the limit, decides how a
text is read. Over the tokens of another text that agrees in these, the statements are those of the
other text, and the diagnostics are, one by one, those for its tokens. -/
theorem parse_corresponds {a b : String} (like : List.Forall₂ Token.Like (tokenize a) (tokenize b))
    (fits : a.utf8ByteSize ≤ Position.limit) (otherFits : b.utf8ByteSize ≤ Position.limit) :
    (parse b).1.statements =
        (parse a).1.statements.map
          (Statement.replace (Token.counterpart (tokenize a) (tokenize b))) ∧
      List.Forall₂ (Diagnostic.Corresponds (tokenize a) (tokenize b)) (parse a).2
        (parse b).2 := by
  have distinct : (tokenize a).Nodup :=
    (pairwise_tokenize fits).imp fun precedes same =>
      precedes.position_ne (congrArg Token.position same)
  -- the tokens go over to the tokens, and the end of the text to the end of the text
  have moved : ((Window.ofSource a).ahead ++ [(Window.ofSource a).final]).map
      (Token.counterpart (tokenize a) (tokenize b)) =
        (Window.ofSource b).ahead ++ [(Window.ofSource b).final] := by
    rw [← tokenize_eq, ← tokenize_eq]
    exact map_counterpart distinct like.length_eq
  rw [List.map_append, List.map_singleton] at moved
  obtain ⟨ahead, ended⟩ := List.append_inj' moved rfl
  have inside : (Window.ofSource a).ahead ⊆ tokenize a := by
    rw [tokenize_eq]
    exact List.subset_append_left _ _
  have endInside : (Window.ofSource a).final ∈ tokenize a := by
    rw [tokenize_eq]
    simp
  obtain ⟨images, account, replaced⟩ := (account_itemsOf fits).replace (alike_counterpart like)
    (List.singleton_inj.mp ended) inside endInside
  rw [ahead] at account
  have same := itemsOf_eq_of_account account otherFits
  rw [parse_eq, parse_eq, same]
  exact Item.Replaced.corresponds distinct like replaced

theorem parse_corresponds_of_broken :
    List.Forall₂ Token.Like (tokenize "let x 5; a - @ return 07 * b")
        (tokenize "let\ny 71;long-$return 9*c") ∧
      "let x 5; a - @ return 07 * b".utf8ByteSize ≤ Position.limit ∧
      "let\ny 71;long-$return 9*c".utf8ByteSize ≤ Position.limit ∧
      (parse "let\ny 71;long-$return 9*c").1.statements =
        (parse "let x 5; a - @ return 07 * b").1.statements.map
          (Statement.replace (Token.counterpart (tokenize "let x 5; a - @ return 07 * b")
            (tokenize "let\ny 71;long-$return 9*c"))) ∧
      List.Forall₂
        (Diagnostic.Corresponds (tokenize "let x 5; a - @ return 07 * b")
          (tokenize "let\ny 71;long-$return 9*c"))
        (parse "let x 5; a - @ return 07 * b").2 (parse "let\ny 71;long-$return 9*c").2 := by
  have like : List.Forall₂ Token.Like (tokenize "let x 5; a - @ return 07 * b")
      (tokenize "let\ny 71;long-$return 9*c") := by
    decide +kernel
  exact ⟨like, by decide, by decide, parse_corresponds like (by decide) (by decide)⟩

end Frontend
