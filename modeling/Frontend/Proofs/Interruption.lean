import Frontend.Proofs.Containment

/-!
# A keyword ends what is broken

Where a keyword that begins a statement follows, whatever stands before it ends there, as it does
at the end of a text. So a text may be cut ahead of any such keyword (`parse_append_keyword`). The
one difference is that where the first part breaks off, the keyword is found and not the end.
-/
namespace Frontend

/-! ### What breaks off at the end of a text -/

/-- The diagnostic is for the end of the text. -/
def Diagnostic.IsAtEnd (d : Diagnostic) : Prop :=
  d.cause = .missingOperand .endOfInput ∨
    ∃ expected, d.cause = .unexpectedToken expected .endOfInput

/-- The diagnostic, if it is for the end of the text, when the token is found there instead. -/
def Diagnostic.finding (token : Token) (d : Diagnostic) : Diagnostic :=
  match d.cause with
  | .missingOperand .endOfInput => ⟨.missingOperand token.kind, token.position⟩
  | .unexpectedToken expected .endOfInput =>
    ⟨.unexpectedToken expected token.kind, token.position⟩
  | _ => d

theorem Diagnostic.finding_of_not_isAtEnd {d : Diagnostic} (elsewhere : ¬ d.IsAtEnd)
    (token : Token) : d.finding token = d := by
  rw [finding]
  split
  next cause => exact absurd (.inl cause) elsewhere
  next expected cause => exact absurd (.inr ⟨expected, cause⟩) elsewhere
  · rfl

theorem Gap.isAtEnd_diagnostic_iff (gap : Gap) (found : Token) :
    (gap.diagnostic found).IsAtEnd ↔ found.kind = .endOfInput := by
  cases gap with
  | name => simp [diagnostic, Diagnostic.IsAtEnd]
  | sign => simp [diagnostic, Diagnostic.IsAtEnd]
  | operand =>
    simp only [diagnostic, operandDiagnostic, missingOperand, Diagnostic.IsAtEnd]
    split
    next integer => simp [integer]
    · split
      next illegal => simp [illegal]
      · simp

/-- A statement that breaks off at the end of the text takes all of it. -/
theorem Breaks.afterBroken_eq_nil {tokens : List Token} {gap : Gap}
    (breaks : Breaks tokens gap []) : afterBroken tokens = [] := by
  obtain ⟨before, split, noSemicolon, inside⟩ := breaks.exists_before
  rw [List.append_nil] at split
  subst split
  obtain ⟨first, rest, rfl⟩ := List.exists_cons_of_ne_nil breaks.ne_nil
  rw [List.tail_cons] at inside
  have skipped := toBoundary_of_inside [] inside
  rw [List.append_nil] at skipped
  rw [afterBroken, if_neg (noSemicolon first List.mem_cons_self), skipped, toBoundary]

theorem Account.items_eq_nil {finish : Position} {items : List Item}
    (account : Account finish [] items) : items = [] := by
  generalize empty : ([] : List Token) = tokens at account
  cases account with
  | nil => rfl
  | sound spelled => exact absurd (List.append_eq_nil_iff.mp empty.symm).1 spelled.ne_nil
  | broken breaks => exact absurd empty.symm breaks.ne_nil

/-- Only the last statement can break off at the end of the text. -/
theorem Account.not_isAtEnd_of_mem_dropLast {finish : Position} {tokens : List Token}
    {items : List Item} (account : Account finish tokens items)
    (noEnd : ∀ token ∈ tokens, token.kind ≠ .endOfInput) :
    ∀ d ∈ (diagnosticsOfItems items).dropLast, ¬ d.IsAtEnd := by
  induction account with
  | nil => simp [diagnosticsOfItems]
  | @sound s own following rest items spelled grouped ends _ ih =>
    rw [diagnosticsOfItems_cons_ok]
    apply ih
    exact fun token member => noEnd token (List.mem_append_right own (ends.suffix.mem member))
  | @broken tokens found gap items breaks account ih =>
    have later := ih fun token member => noEnd token ((afterBroken_suffix tokens).mem member)
    rw [diagnosticsOfItems_cons_error]
    cases rest : diagnosticsOfItems items with
    | nil => simp
    | cons d more =>
      rw [rest] at later
      rw [List.dropLast_cons_of_ne_nil (List.cons_ne_nil d more), List.forall_mem_cons]
      refine ⟨?_, later⟩
      -- a statement comes behind this one, so it does not break off at the end
      cases found with
      | nil =>
        rw [breaks.afterBroken_eq_nil] at account
        rw [account.items_eq_nil] at rest
        cases rest
      | cons token found =>
        obtain ⟨before, split, -⟩ := breaks.exists_before
        rw [Gap.isAtEnd_diagnostic_iff, List.headD_cons]
        exact noEnd token (by simp [split])

/-! ### Tokens with a keyword behind them -/

section

variable {keyword : Token} {more : List Token}

theorem toBoundary_append_keyword
    (begins : keyword.kind = .letKeyword ∨ keyword.kind = .returnKeyword)
    (tokens : List Token) :
    toBoundary (tokens ++ keyword :: more) = toBoundary tokens ++ keyword :: more := by
  have noSemicolon : keyword.kind ≠ .semicolon := by
    rcases begins with kind | kind <;> rw [kind] <;> decide
  induction tokens with
  | nil => simp [toBoundary, noSemicolon, Kind.IsBoundary, begins]
  | cons token rest ih =>
    rw [List.cons_append, toBoundary, toBoundary]
    split
    · rfl
    · split
      · rfl
      · exact ih

theorem afterBroken_append_keyword
    (begins : keyword.kind = .letKeyword ∨ keyword.kind = .returnKeyword) {tokens : List Token}
    (some_left : tokens ≠ []) :
    afterBroken (tokens ++ keyword :: more) = afterBroken tokens ++ keyword :: more := by
  obtain ⟨first, rest, rfl⟩ := List.exists_cons_of_ne_nil some_left
  rw [List.cons_append, afterBroken, afterBroken]
  split
  · rfl
  · exact toBoundary_append_keyword begins rest

theorem Ends.append_keyword (begins : keyword.kind = .letKeyword ∨ keyword.kind = .returnKeyword)
    {following rest : List Token} (ends : Ends following rest) :
    Ends (following ++ keyword :: more) (rest ++ keyword :: more) := by
  cases following with
  | cons token following => exact ends.append (List.cons_ne_nil token following) _
  | nil =>
    cases ends
    apply Ends.unclosed
    intro token first
    obtain rfl := Option.some.inj first
    constructor
    · rcases begins with kind | kind <;> rw [kind] <;> decide
    · rcases begins with kind | kind <;> rw [kind] <;> decide

theorem Breaks.append_keyword (begins : keyword.kind = .letKeyword ∨ keyword.kind = .returnKeyword)
    {tokens found : List Token} {gap : Gap} (breaks : Breaks tokens gap found) :
    Breaks (tokens ++ keyword :: more) gap (found ++ keyword :: more) := by
  cases found with
  | cons token found => exact breaks.append (List.cons_ne_nil token found) _
  | nil =>
    have some_left := breaks.ne_nil
    rw [← List.append_nil tokens] at breaks
    refine breaks.change (fun token first admits => ?_) fun none => absurd none some_left
    -- what is missing at the end is no keyword, so it is missing here too
    obtain rfl := Option.some.inj first
    exact admits.not_isBoundary (.inr begins)

theorem Gap.finding_diagnostic_endOfInput
    (begins : keyword.kind = .letKeyword ∨ keyword.kind = .returnKeyword) (gap : Gap)
    (finish : Position) :
    (gap.diagnostic (.endOfInput finish)).finding keyword = gap.diagnostic keyword := by
  cases gap with
  | name => rfl
  | sign => rfl
  | operand =>
    have noInteger : keyword.kind ≠ .integer := by
      rcases begins with kind | kind <;> rw [kind] <;> decide
    have noIllegal : keyword.kind ≠ .illegal := by
      rcases begins with kind | kind <;> rw [kind] <;> decide
    rw [diagnostic, diagnostic, operandDiagnostic, operandDiagnostic, if_neg noInteger,
      missingOperand, missingOperand, if_neg noIllegal]
    rfl

/-- Ahead of a keyword, what becomes of tokens is the same as at the end of a text. -/
theorem Account.append_keyword
    (begins : keyword.kind = .letKeyword ∨ keyword.kind = .returnKeyword)
    {finish final : Position} {tokens : List Token} {items others : List Item}
    (account : Account finish tokens items) (noEnd : ∀ token ∈ tokens, token.kind ≠ .endOfInput)
    (second : Account final (keyword :: more) others) :
    Account final (tokens ++ keyword :: more)
      (items.map (Except.mapError (Diagnostic.finding keyword)) ++ others) := by
  induction account with
  | nil => exact second
  | @sound s own following rest items spelled grouped ends _ ih =>
    rw [List.append_assoc]
    refine .sound spelled grouped (ends.append_keyword begins) (ih ?_)
    exact fun token member => noEnd token (List.mem_append_right own (ends.suffix.mem member))
  | @broken tokens found gap items breaks _ ih =>
    have blamed : (gap.diagnostic (found.headD (.endOfInput finish))).finding keyword =
        gap.diagnostic ((found ++ keyword :: more).headD (.endOfInput final)) := by
      cases found with
      | nil => exact gap.finding_diagnostic_endOfInput begins finish
      | cons token found =>
        obtain ⟨before, split, -⟩ := breaks.exists_before
        apply Diagnostic.finding_of_not_isAtEnd
        rw [Gap.isAtEnd_diagnostic_iff]
        exact noEnd token (by simp [split])
    rw [List.map_cons, List.cons_append, Except.mapError, blamed]
    refine .broken (breaks.append_keyword begins) ?_
    rw [afterBroken_append_keyword begins breaks.ne_nil]
    exact ih fun token member => noEnd token ((afterBroken_suffix tokens).mem member)

end

/-! ### A text with a keyword behind it -/

theorem statements_mapError (f : Diagnostic → Diagnostic) (items : List Item) :
    (Program.ofItems (items.map (Except.mapError f))).statements =
      (Program.ofItems items).statements := by
  have same (item : Item) : Item.statement? (Except.mapError f item) = item.statement? := by
    cases item <;> rfl
  simp only [Program.ofItems, List.filterMap_map, Function.comp_def, same]

theorem diagnostics_mapError (f : Diagnostic → Diagnostic) (items : List Item) :
    diagnosticsOfItems (items.map (Except.mapError f)) = (diagnosticsOfItems items).map f := by
  have same (item : Item) :
      Item.diagnostic? (Except.mapError f item) = item.diagnostic?.map f := by
    cases item <;> rfl
  simp only [diagnosticsOfItems, List.filterMap_map, List.map_filterMap, Function.comp_def, same]

theorem ahead_append_space_append (a b : String) :
    (Window.ofSource (a ++ " " ++ b)).ahead =
      (Window.ofSource a).ahead ++ scan (a.utf8ByteSize + 1) b.toList := by
  simp only [Window.ofSource, Window.ofText, String.toList_append]
  rw [show " ".toList = [' '] from rfl, List.append_assoc, List.singleton_append,
    scan_append_layout (by decide), byteLength_toList, Nat.zero_add]
  rfl

theorem itemsOf_append_keyword (a b : String) {keyword : Token}
    (first : (tokenize b).head? = some keyword)
    (begins : keyword.kind = .letKeyword ∨ keyword.kind = .returnKeyword)
    (fits : (a ++ " " ++ b).utf8ByteSize ≤ Position.limit) :
    itemsOf (a ++ " " ++ b) =
      (itemsOf a).map (Except.mapError
          (Diagnostic.finding (keyword.relocate (Position.shift (a.utf8ByteSize + 1))))) ++
        (itemsOf b).map (Item.relocate (Position.shift (a.utf8ByteSize + 1))) := by
  have width : (a ++ " " ++ b).utf8ByteSize = a.utf8ByteSize + 1 + b.utf8ByteSize := by
    rw [String.utf8ByteSize_append, String.utf8ByteSize_append]
    rfl
  have finish : (Window.ofSource (a ++ " " ++ b)).finish =
      Position.ofOffset (a.utf8ByteSize + 1 + b.utf8ByteSize) := by
    rw [Window.ofSource, Window.ofText, byteLength_toList, Nat.zero_add, width]
  obtain ⟨more, ahead⟩ : ∃ more, (Window.ofSource b).ahead = keyword :: more := by
    rw [tokenize_eq, List.head?_append] at first
    cases ahead : (Window.ofSource b).ahead with
    | nil =>
      -- the end of the text is no keyword
      rw [ahead] at first
      obtain rfl := Option.some.inj first
      exact begins.elim Kind.noConfusion Kind.noConfusion
    | cons token more =>
      rw [ahead] at first
      exact ⟨more, congrArg (· :: more) (Option.some.inj first)⟩
  have moved : scan (a.utf8ByteSize + 1) b.toList =
      keyword.relocate (Position.shift (a.utf8ByteSize + 1)) ::
        more.map (Token.relocate (Position.shift (a.utf8ByteSize + 1))) := by
    rw [← List.map_cons, ← ahead, Window.ofSource, Window.ofText, ← scan_shift, Nat.zero_add]
    rwa [byteLength_toList, Nat.zero_add, ← width]
  have second : Account (Position.ofOffset (a.utf8ByteSize + 1 + b.utf8ByteSize))
      (scan (a.utf8ByteSize + 1) b.toList)
      ((itemsOf b).map (Item.relocate (Position.shift (a.utf8ByteSize + 1)))) :=
    account_further (by rwa [← width])
  have stillBegins : (keyword.relocate (Position.shift (a.utf8ByteSize + 1))).kind = .letKeyword ∨
      (keyword.relocate (Position.shift (a.utf8ByteSize + 1))).kind = .returnKeyword := begins
  have firstFits : a.utf8ByteSize ≤ Position.limit := by omega
  refine itemsOf_eq_of_account ?_ fits
  rw [ahead_append_space_append, finish]
  rw [moved] at second ⊢
  exact (account_itemsOf firstFits).append_keyword stillBegins
    (fun token => kind_ne_endOfInput_of_mem_scan) second

/-- Whatever a text is, and wherever in a statement it breaks off, it may be cut ahead of a keyword
that begins a statement: the statements and the diagnostics are those of its two parts, the second
part further on. A diagnostic for the end of the first part, which only its last one can be, is
then for the keyword. -/
theorem parse_append_keyword (a b : String) {keyword : Token}
    (first : (tokenize b).head? = some keyword)
    (begins : keyword.kind = .letKeyword ∨ keyword.kind = .returnKeyword)
    (fits : (a ++ " " ++ b).utf8ByteSize ≤ Position.limit) :
    (parse (a ++ " " ++ b)).1.statements =
        (parse a).1.statements ++
          (parse b).1.statements.map (Statement.relocate (Position.shift (a.utf8ByteSize + 1))) ∧
      (parse (a ++ " " ++ b)).2 =
        (parse a).2.map
            (Diagnostic.finding (keyword.relocate (Position.shift (a.utf8ByteSize + 1)))) ++
          (parse b).2.map (Diagnostic.relocate (Position.shift (a.utf8ByteSize + 1))) ∧
      ∀ d ∈ (parse a).2.dropLast, ¬ d.IsAtEnd := by
  have firstFits : a.utf8ByteSize ≤ Position.limit := by
    rw [String.utf8ByteSize_append, String.utf8ByteSize_append] at fits
    omega
  simp only [parse_eq, itemsOf_append_keyword a b first begins fits]
  refine ⟨?_, ?_, ?_⟩
  · rw [statements_append, statements_mapError, statements_relocate]
  · rw [diagnosticsOfItems_append, diagnostics_mapError, diagnostics_relocate]
  · exact (account_itemsOf firstFits).not_isAtEnd_of_mem_dropLast
      fun token => kind_ne_endOfInput_of_mem_scan

theorem parse_append_keyword_of_unfinished :
    (tokenize " return let z = 3").head? = some ⟨.returnKeyword, "return", ⟨1⟩⟩ ∧
      ("let y 5; let y =" ++ " " ++ " return let z = 3").utf8ByteSize ≤ Position.limit ∧
      (parse ("let y 5; let y =" ++ " " ++ " return let z = 3")).1.statements =
        (parse "let y 5; let y =").1.statements ++
          (parse " return let z = 3").1.statements.map
            (Statement.relocate (Position.shift ("let y 5; let y =".utf8ByteSize + 1))) ∧
      (parse ("let y 5; let y =" ++ " " ++ " return let z = 3")).2 =
        (parse "let y 5; let y =").2.map
            (Diagnostic.finding (Token.relocate
              (Position.shift ("let y 5; let y =".utf8ByteSize + 1))
              ⟨.returnKeyword, "return", ⟨1⟩⟩)) ++
          (parse " return let z = 3").2.map
            (Diagnostic.relocate (Position.shift ("let y 5; let y =".utf8ByteSize + 1))) ∧
      ∀ d ∈ (parse "let y 5; let y =").2.dropLast, ¬ d.IsAtEnd := by
  have first : (tokenize " return let z = 3").head? = some ⟨.returnKeyword, "return", ⟨1⟩⟩ := by
    decide +kernel
  exact ⟨first, by decide, parse_append_keyword _ _ first (.inr rfl) (by decide)⟩

end Frontend
