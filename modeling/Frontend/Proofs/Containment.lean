import Frontend.Proofs.Gaps
import Frontend.Proofs.Relocation

/-!
# A semicolon contains what is broken

Ahead of a semicolon, no statement reaches over it and nothing skips past it, whatever the text is.
So a text may be cut behind any semicolon, and the two parts have nothing to do with each other
(`parse_append_semicolon`).
-/
namespace Frontend

/-! ### Tokens one behind the other -/

theorem Breaks.append {tokens found : List Token} {gap : Gap} (breaks : Breaks tokens gap found)
    (some_left : found ≠ []) (more : List Token) : Breaks (tokens ++ more) gap (found ++ more) := by
  have first : (found ++ more).head? = found.head? := by
    obtain ⟨token, rest, rfl⟩ := List.exists_cons_of_ne_nil some_left
    rfl
  have refused := breaks.not_admits
  obtain ⟨before, rfl, -⟩ := breaks.exists_before
  rw [← first] at refused
  rw [List.append_assoc]
  exact breaks.change refused fun _ => first

theorem Ends.append {following rest : List Token} (ends : Ends following rest)
    (some_left : following ≠ []) (more : List Token) : Ends (following ++ more) (rest ++ more) := by
  cases ends with
  | closed semicolon => exact .closed semicolon
  | unclosed stops =>
    obtain ⟨token, rest, rfl⟩ := List.exists_cons_of_ne_nil some_left
    exact .unclosed stops

theorem Statement.SpelledBy.getLast_not_isBoundary {s : Statement} {own : List Token}
    (spelled : s.SpelledBy own) : ∀ last ∈ own.getLast?, ¬ last.kind.IsBoundary := by
  obtain ⟨opening, split, faithful, -⟩ := spelled.exists_opens
  obtain ⟨before, last, tokens, atom⟩ := faithful.exists_tokens_eq_append
  rw [split, tokens, ← List.append_assoc, List.getLast?_concat]
  intro token same
  obtain rfl := Option.some.inj same
  exact atom.not_isBoundary

/-- The tokens end in a semicolon, if there are any. -/
def Closed (tokens : List Token) : Prop := ∀ last ∈ tokens.getLast?, last.kind = .semicolon

theorem closed_concat (tokens : List Token) {semicolon : Token}
    (kind : semicolon.kind = .semicolon) : Closed (tokens ++ [semicolon]) := by
  intro last isLast
  rw [List.getLast?_concat] at isLast
  obtain rfl := Option.some.inj isLast
  exact kind

theorem Closed.of_suffix {tokens rest : List Token} (closed : Closed tokens)
    (suffix : rest <:+ tokens) : Closed rest := by
  obtain ⟨before, rfl⟩ := suffix
  intro last member
  refine closed last ?_
  rw [List.getLast?_append, Option.mem_def.mp member]
  rfl

/-- Behind tokens that end in a semicolon, what becomes of further ones is the same as without
them. -/
theorem Account.append {finish final : Position} {tokens more : List Token}
    {items others : List Item} (account : Account finish tokens items) (closed : Closed tokens)
    (second : Account final more others) : Account final (tokens ++ more) (items ++ others) := by
  induction account with
  | nil => exact second
  | @sound s own following rest items spelled grouped ends _ ih =>
    -- the last token of a statement is no semicolon, so one follows it
    have some_left : following ≠ [] := by
      rintro rfl
      rw [List.append_nil] at closed
      obtain ⟨last, member⟩ := Option.isSome_iff_exists.mp (List.getLast?_isSome.mpr spelled.ne_nil)
      exact spelled.getLast_not_isBoundary last member (.inl (closed last member))
    rw [List.append_assoc]
    exact .sound spelled grouped (ends.append some_left more)
      (ih (closed.of_suffix (ends.suffix.trans (List.suffix_append own following))))
  | @broken tokens found gap items breaks _ ih =>
    obtain ⟨before, split, noSemicolon, -⟩ := breaks.exists_before
    obtain ⟨last, isLast⟩ := Option.isSome_iff_exists.mp (List.getLast?_isSome.mpr breaks.ne_nil)
    have semicolon := closed last isLast
    -- the semicolon does not stand before the gap, so the gap is not at the end
    have some_left : found ≠ [] := by
      rintro rfl
      rw [split, List.append_nil] at isLast
      exact noSemicolon last (List.mem_of_getLast? isLast) semicolon
    have same : (found ++ more).headD (.endOfInput final) = found.headD (.endOfInput finish) := by
      obtain ⟨token, rest, rfl⟩ := List.exists_cons_of_ne_nil some_left
      rfl
    rw [List.cons_append, ← same]
    refine .broken (breaks.append some_left more) ?_
    rw [afterBroken_append more (List.mem_of_getLast? isLast) semicolon]
    exact ih (closed.of_suffix (afterBroken_suffix tokens))

/-! ### Texts one behind the other -/

theorem scan_append_semicolon (offset : Nat) (text more : List Char) :
    scan offset (text ++ ';' :: more) =
      scan offset text ++ ⟨.semicolon, ";", Position.ofOffset (offset + Text.byteLength text)⟩ ::
        scan (offset + (Text.byteLength text + 1)) more := by
  have formed : Lexeme.Formed ⟨.semicolon, [';']⟩ :=
    .single (c := ';') (by decide) (by decide) (by decide)
  have ends : Lexeme.EndsBefore ⟨.semicolon, [';']⟩ more := fun next _ goesOn =>
    absurd (goesOn.eq_of_symbol (by decide) (by decide)).1 (by decide)
  -- it goes on with nothing, and nothing goes on with it
  have closing := scan_lexeme formed ends (offset + Text.byteLength text)
  rw [scan_append, ← List.singleton_append, closing, Nat.add_assoc]
  · rfl
  · rintro token - next following
    obtain rfl := Option.some.inj following
    exact Kind.not_goesOnWith (by decide) (by decide) (by decide)

theorem ahead_append_semicolon (a : String) :
    (Window.ofSource (a ++ ";")).ahead =
      (Window.ofSource a).ahead ++ [⟨.semicolon, ";", Position.ofOffset a.utf8ByteSize⟩] := by
  simp only [Window.ofSource, Window.ofText, String.toList_append]
  rw [show ";".toList = [';'] from rfl, scan_append_semicolon, scan_nil, Nat.zero_add,
    byteLength_toList]

theorem ahead_append_semicolon_append (a b : String) :
    (Window.ofSource (a ++ ";" ++ b)).ahead =
      (Window.ofSource (a ++ ";")).ahead ++ scan (a.utf8ByteSize + 1) b.toList := by
  rw [ahead_append_semicolon, List.append_assoc, List.singleton_append]
  simp only [Window.ofSource, Window.ofText, String.toList_append]
  rw [show ";".toList = [';'] from rfl, List.append_assoc, List.singleton_append,
    scan_append_semicolon, byteLength_toList]
  simp only [Nat.zero_add]

theorem itemsOf_append_semicolon (a b : String)
    (fits : (a ++ ";" ++ b).utf8ByteSize ≤ Position.limit) :
    itemsOf (a ++ ";" ++ b) = itemsOf (a ++ ";") ++
      (itemsOf b).map (Item.relocate (Position.shift (a.utf8ByteSize + 1))) := by
  have width : (a ++ ";" ++ b).utf8ByteSize = a.utf8ByteSize + 1 + b.utf8ByteSize := by
    rw [String.utf8ByteSize_append, String.utf8ByteSize_append]
    rfl
  have firstFits : (a ++ ";").utf8ByteSize ≤ Position.limit := by
    rw [String.utf8ByteSize_append] at fits
    omega
  have closed : Closed (Window.ofSource (a ++ ";")).ahead := by
    rw [ahead_append_semicolon]
    exact closed_concat _ rfl
  have finish : (Window.ofSource (a ++ ";" ++ b)).finish =
      Position.ofOffset (a.utf8ByteSize + 1 + b.utf8ByteSize) := by
    rw [Window.ofSource, Window.ofText, byteLength_toList, Nat.zero_add, width]
  -- the account of the whole text is put together from those of its parts
  refine itemsOf_eq_of_account ?_ fits
  rw [ahead_append_semicolon_append, finish]
  exact (account_itemsOf firstFits).append closed (account_further (by rwa [← width]))

/-- A semicolon contains whatever is broken on either side of it: the statements and the
diagnostics of the text are those of its two parts, the second part further on. -/
theorem parse_append_semicolon (a b : String)
    (fits : (a ++ ";" ++ b).utf8ByteSize ≤ Position.limit) :
    (parse (a ++ ";" ++ b)).1.statements =
        (parse (a ++ ";")).1.statements ++
          (parse b).1.statements.map (Statement.relocate (Position.shift (a.utf8ByteSize + 1))) ∧
      (parse (a ++ ";" ++ b)).2 =
        (parse (a ++ ";")).2 ++
          (parse b).2.map (Diagnostic.relocate (Position.shift (a.utf8ByteSize + 1))) := by
  simp only [parse_eq, itemsOf_append_semicolon a b fits, ← statements_relocate,
    ← diagnostics_relocate]
  exact ⟨List.filterMap_append, List.filterMap_append⟩

theorem parse_append_semicolon_of_broken :
    ("let x 5 return" ++ ";" ++ " y * ; z").utf8ByteSize ≤ Position.limit ∧
      (parse ("let x 5 return" ++ ";" ++ " y * ; z")).1.statements =
        (parse ("let x 5 return" ++ ";")).1.statements ++
          (parse " y * ; z").1.statements.map
            (Statement.relocate (Position.shift ("let x 5 return".utf8ByteSize + 1))) ∧
      (parse ("let x 5 return" ++ ";" ++ " y * ; z")).2 =
        (parse ("let x 5 return" ++ ";")).2 ++
          (parse " y * ; z").2.map
            (Diagnostic.relocate (Position.shift ("let x 5 return".utf8ByteSize + 1))) :=
  ⟨by decide, parse_append_semicolon _ _ (by decide)⟩

end Frontend
