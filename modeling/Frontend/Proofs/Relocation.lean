import Frontend.Proofs.Replacement

/-!
# Texts that stand further on

A text that stands further on in a source has the same tokens, further on (`scan_shift`), and what
becomes of them is the same, further on (`Account.relocate`).
-/
namespace Frontend

/-- The position `n` bytes further on. -/
def Position.shift (n : Nat) (p : Position) : Position := ⟨p.offset + n⟩

/-- The token at another position. -/
def Token.relocate (f : Position → Position) (token : Token) : Token :=
  { token with position := f token.position }

/-- The expression with its tokens at other positions. -/
def Expression.relocate (f : Position → Position) : Expression → Expression
  | identifier name => identifier ⟨name.token.relocate f, name.value⟩
  | integer token value => integer (token.relocate f) value
  | unary token operator operand => unary (token.relocate f) operator (operand.relocate f)
  | binary token left operator right =>
    binary (token.relocate f) (left.relocate f) operator (right.relocate f)

/-- The statement with its tokens at other positions. -/
def Statement.relocate (f : Position → Position) : Statement → Statement
  | binding token name value =>
    binding (token.relocate f) ⟨name.token.relocate f, name.value⟩ (value.relocate f)
  | returning token value => returning (token.relocate f) (value.relocate f)
  | bare token value => bare (token.relocate f) (value.relocate f)

/-- The same diagnostic at another position. -/
def Diagnostic.relocate (f : Position → Position) (d : Diagnostic) : Diagnostic :=
  { d with position := f d.position }

/-- The same outcome at other positions. -/
def Item.relocate (f : Position → Position) : Item → Item
  | .ok s => .ok (s.relocate f)
  | .error d => .error (d.relocate f)

section

variable {f : Position → Position}

@[simp] theorem Token.kind_relocate (token : Token) : (token.relocate f).kind = token.kind := rfl

@[simp] theorem Token.literal_relocate (token : Token) :
    (token.relocate f).literal = token.literal := rfl

theorem Token.alike_relocate (f : Position → Position) : Token.Alike (Token.relocate f) :=
  ⟨fun _ => rfl, fun _ => Iff.rfl⟩

/-- The names and values of a faithful tree are those of its tokens, wherever these stand. -/
theorem Expression.Faithful.replace_relocate {e : Expression} (faithful : e.Faithful) :
    Expression.replace (Token.relocate f) e = e.relocate f := by
  induction e with
  | identifier name => simp [Expression.replace, relocate, faithful.2]
  | integer token value => simp [Expression.replace, relocate, faithful.2]
  | unary token operator operand ih =>
    obtain ⟨-, literal, inner⟩ := faithful
    simp [Expression.replace, relocate, literal, ih inner]
  | binary token left operator right leftIh rightIh =>
    obtain ⟨-, literal, leftInner, rightInner⟩ := faithful
    simp [Expression.replace, relocate, literal, leftIh leftInner, rightIh rightInner]

theorem Statement.SpelledBy.replace_relocate {s : Statement} {own : List Token}
    (spelled : s.SpelledBy own) : Statement.replace (Token.relocate f) s = s.relocate f := by
  cases spelled with
  | binding _ _ _ faithful => simp [Statement.replace, relocate, faithful.replace_relocate]
  | returning _ faithful => simp [Statement.replace, relocate, faithful.replace_relocate]
  | bare _ faithful => simp [Statement.replace, relocate, faithful.replace_relocate]

theorem missingOperand_relocate (f : Position → Position) (token : Token) :
    missingOperand (token.relocate f) = (missingOperand token).relocate f := by
  rw [missingOperand, missingOperand, apply_ite (Diagnostic.relocate f)]
  rfl

theorem Gap.diagnostic_relocate (f : Position → Position) (gap : Gap) (token : Token) :
    gap.diagnostic (token.relocate f) = (gap.diagnostic token).relocate f := by
  cases gap with
  | name => rfl
  | sign => rfl
  | operand =>
    simp only [diagnostic, operandDiagnostic, missingOperand_relocate, Token.kind_relocate]
    split <;> rfl

theorem Item.Replaced.relocate_eq {among : List Token} {item image : Item}
    (replaced : Item.Replaced (Token.relocate f) among item image) : item.relocate f = image := by
  cases replaced with
  | sound spelled => rw [Item.relocate, spelled.replace_relocate]
  | broken => rw [Item.relocate, Gap.diagnostic_relocate]

/-- An account of the tokens is one of the same tokens elsewhere. -/
theorem Account.relocate {finish : Position} {tokens : List Token} {items : List Item}
    (account : Account finish tokens items) :
    Account (f finish) (tokens.map (Token.relocate f)) (items.map (Item.relocate f)) := by
  have inside : tokens ⊆ tokens ++ [.endOfInput finish] := List.subset_append_left _ _
  have endInside : Token.endOfInput finish ∈ tokens ++ [.endOfInput finish] := by simp
  have ended : Token.relocate f (.endOfInput finish) = .endOfInput (f finish) := rfl
  obtain ⟨images, moved, replaced⟩ :=
    account.replace (Token.alike_relocate f) ended inside endInside
  have same : List.Forall₂ (· = ·) (items.map (Item.relocate f)) images :=
    List.forall₂_map_left_iff.mpr (replaced.imp fun _ _ => Item.Replaced.relocate_eq)
  rw [List.forall₂_eq_eq_eq] at same
  rwa [same]

theorem Item.statement?_relocate (item : Item) :
    (item.relocate f).statement? = item.statement?.map (Statement.relocate f) := by
  cases item <;> rfl

theorem Item.diagnostic?_relocate (item : Item) :
    (item.relocate f).diagnostic? = item.diagnostic?.map (Diagnostic.relocate f) := by
  cases item <;> rfl

theorem statements_relocate (items : List Item) :
    (Program.ofItems (items.map (Item.relocate f))).statements =
      (Program.ofItems items).statements.map (Statement.relocate f) := by
  simp only [Program.ofItems, List.filterMap_map, List.map_filterMap, Function.comp_def,
    Item.statement?_relocate]

theorem diagnostics_relocate (items : List Item) :
    diagnosticsOfItems (items.map (Item.relocate f)) =
      (diagnosticsOfItems items).map (Diagnostic.relocate f) := by
  simp only [diagnosticsOfItems, List.filterMap_map, List.map_filterMap, Function.comp_def,
    Item.diagnostic?_relocate]

end

/-- A text that stands `n` bytes further on has its tokens `n` bytes further on. -/
theorem scan_shift {offset n : Nat} {text : List Char}
    (fits : offset + n + Text.byteLength text ≤ Position.limit) :
    scan (offset + n) text = (scan offset text).map (Token.relocate (Position.shift n)) := by
  induction text using text_induction generalizing offset with
  | nil => simp
  | layout c rest layout ih =>
    rw [Text.byteLength_cons] at fits
    rw [scan_layout layout, scan_layout layout, Nat.add_right_comm, ih (by omega)]
  | lexeme lexeme behind formed ends ih =>
    rw [Text.byteLength_append] at fits
    rw [scan_lexeme formed ends, scan_lexeme formed ends, Nat.add_right_comm, ih (by omega),
      List.map_cons, Position.ofOffset_of_le (by omega), Position.ofOffset_of_le (by omega)]
    rfl

/-- What becomes of a text that stands `n` bytes further on. -/
theorem account_further {n : Nat} {text : String}
    (fits : n + text.utf8ByteSize ≤ Position.limit) :
    Account (Position.ofOffset (n + text.utf8ByteSize)) (scan n text.toList)
      ((itemsOf text).map (Item.relocate (Position.shift n))) := by
  have own : text.utf8ByteSize ≤ Position.limit := by omega
  have account := (account_itemsOf own).relocate (f := Position.shift n)
  have moved : (Window.ofSource text).ahead.map (Token.relocate (Position.shift n)) =
      scan n text.toList := by
    rw [Window.ofSource, Window.ofText, ← scan_shift, Nat.zero_add]
    rwa [byteLength_toList, Nat.zero_add]
  have finish : Position.shift n (Window.ofSource text).finish =
      Position.ofOffset (n + text.utf8ByteSize) := by
    simp only [Window.ofSource, Window.ofText, byteLength_toList, Nat.zero_add, Position.shift]
    rw [Position.ofOffset_of_le fits, Position.ofOffset_of_le own, Nat.add_comm]
  rwa [moved, finish] at account

end Frontend
