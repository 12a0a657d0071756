import Frontend.Proofs.Decomposition

/-!
# Tokens written apart

Where the literals of a text are written one after the other with layout between them, they are the
tokens of the new text (`lexemes_tokenize_of_spaced`): no lexeme goes on with layout, and whatever
was scanned off one text is scanned off another.
-/
namespace Frontend

/-! ### The lexemes of a text -/

/-- The lexemes of a text, wherever it stands. -/
def lexemesOf (text : List Char) : List Lexeme := (scan 0 text).map Token.lexeme

theorem map_lexeme_scan_eq_lexemesOf (offset : Nat) (text : List Char) :
    (scan offset text).map Token.lexeme = lexemesOf text :=
  map_lexeme_scan offset 0 text

@[simp] theorem lexemesOf_nil : lexemesOf [] = [] := by rw [lexemesOf, scan_nil, List.map_nil]

theorem lexemesOf_gap {gap : List Char} (layout : ∀ c ∈ gap, isLayout c = true)
    (rest : List Char) : lexemesOf (gap ++ rest) = lexemesOf rest := by
  rw [lexemesOf, scan_gap layout, map_lexeme_scan_eq_lexemesOf]

theorem lexemesOf_lexeme {lexeme : Lexeme} {behind : List Char} (formed : lexeme.Formed)
    (ends : lexeme.EndsBefore behind) :
    lexemesOf (lexeme.text ++ behind) = lexeme :: lexemesOf behind := by
  rw [lexemesOf, scan_lexeme formed ends, List.map_cons, map_lexeme_scan_eq_lexemesOf,
    Token.lexeme, String.toList_ofList]

theorem lexemes_tokenize (source : String) :
    (tokenize source).map Token.lexeme = lexemesOf source.toList ++ [⟨.endOfInput, []⟩] := by
  rw [tokenize, List.map_append]
  rfl

/-! ### Literals with layout between them -/

/-- The text is the words one after the other, with some layout between any two of them. -/
inductive Spaced : List String → String → Prop
  | nil : Spaced [] ""
  | single (word : String) : Spaced [word] word
  | cons {word gap next text : String} {words : List String} :
      gap ≠ "" → (∀ c ∈ gap.toList, isLayout c = true) → Spaced (next :: words) text →
      Spaced (word :: next :: words) (word ++ gap ++ text)

theorem Lexeme.endsBefore_gap {gap : List Char} (some_left : gap ≠ [])
    (layout : ∀ c ∈ gap, isLayout c = true) (lexeme : Lexeme) (rest : List Char) :
    lexeme.EndsBefore (gap ++ rest) := by
  obtain ⟨c, gap, rfl⟩ := List.exists_cons_of_ne_nil some_left
  intro next following
  obtain rfl := Option.some.inj following
  exact Kind.not_goesOnWith_of_isLayout (layout c List.mem_cons_self)

theorem Spaced.lexemesOf_eq {words : List String} {text : String} (spaced : Spaced words text)
    {tokens : List Token} (literals : words = tokens.map Token.literal)
    (formed : ∀ token ∈ tokens, token.lexeme.Formed) {closing : List Char}
    (layout : ∀ c ∈ closing, isLayout c = true) :
    lexemesOf (text.toList ++ closing) = tokens.map Token.lexeme := by
  have blank : lexemesOf closing = [] := by
    rw [← List.append_nil closing, lexemesOf_gap layout, lexemesOf_nil]
  induction spaced generalizing tokens with
  | nil =>
    rw [List.map_eq_nil_iff.mp literals.symm]
    exact blank
  | single word =>
    obtain ⟨token, rfl, rfl⟩ := List.map_eq_singleton_iff.mp literals.symm
    have ends : token.lexeme.EndsBefore closing := fun next following =>
      Kind.not_goesOnWith_of_isLayout (layout next (List.mem_of_mem_head? following))
    have scanned := lexemesOf_lexeme (formed token List.mem_cons_self) ends
    rwa [blank] at scanned
  | @cons word gap next text words some_left gapLayout _ ih =>
    obtain ⟨token, later, rfl, rfl, others⟩ := List.map_eq_cons_iff.mp literals.symm
    obtain ⟨first, behind⟩ := List.forall_mem_cons.mp formed
    -- the gap ends the first word and is then passed over
    have ends := token.lexeme.endsBefore_gap (mt String.toList_eq_nil_iff.mp some_left) gapLayout
      (text.toList ++ closing)
    have scanned := lexemesOf_lexeme first ends
    rw [lexemesOf_gap gapLayout, ih others.symm behind] at scanned
    rwa [String.toList_append, String.toList_append, List.append_assoc, List.append_assoc]

/-- An empty word at the end, with the layout in front of it, is layout behind the other words. -/
theorem Spaced.of_concat_empty {words : List String} {text : String}
    (spaced : Spaced (words ++ [""]) text) :
    ∃ front closing, text.toList = front.toList ++ closing ∧ Spaced words front ∧
      ∀ c ∈ closing, isLayout c = true := by
  generalize all : words ++ [""] = others at spaced
  induction spaced generalizing words with
  | nil => simp at all
  | single word =>
    cases words with
    | nil =>
      obtain rfl := List.singleton_inj.mp all
      exact ⟨"", [], rfl, .nil, by simp⟩
    | cons _ words => simp at all
  | @cons word gap next text others some_left layout spaced ih =>
    cases words with
    | nil => simp at all
    | cons first words =>
      obtain ⟨rfl, rest⟩ := List.cons.inj all
      obtain ⟨front, closing, split, apart, blank⟩ := ih rest
      cases words with
      | nil =>
        -- only the empty word stands behind the gap
        cases apart
        refine ⟨first, gap.toList ++ closing, ?_, .single first, ?_⟩
        · rw [String.toList_append, String.toList_append, split, List.append_assoc]
          rfl
        · exact fun c member => (List.mem_append.mp member).elim (layout c) (blank c)
      | cons second words =>
        refine ⟨first ++ gap ++ front, closing, ?_, .cons some_left layout apart, blank⟩
        simp only [String.toList_append, split, List.append_assoc]

/-- The literals of a text, written with some layout between any two of them, and with or without
layout in front and behind, are the tokens of the new text, of the same kinds. The empty literal of
the end token may be written with the others or left out. -/
theorem lexemes_tokenize_of_spaced (source : String) {before middle after : String}
    (spaced : Spaced ((tokenize source).map Token.literal) middle ∨
      Spaced ((tokenize source).dropLast.map Token.literal) middle)
    (layoutBefore : ∀ c ∈ before.toList, isLayout c = true)
    (layoutAfter : ∀ c ∈ after.toList, isLayout c = true) :
    (tokenize (before ++ middle ++ after)).map Token.lexeme =
      (tokenize source).map Token.lexeme := by
  have tokens : tokenize source =
      scan 0 source.toList ++ [.endOfInput (.ofOffset (Text.byteLength source.toList))] := rfl
  -- either way, the literals of the other tokens have layout between them and behind them
  obtain ⟨front, closing, split, apart, layout⟩ : ∃ front closing,
      middle.toList = front.toList ++ closing ∧
        Spaced ((scan 0 source.toList).map Token.literal) front ∧
        ∀ c ∈ closing, isLayout c = true := by
    rw [tokens, List.dropLast_concat, List.map_append] at spaced
    rcases spaced with withEnd | withoutEnd
    · exact withEnd.of_concat_empty
    · exact ⟨middle, [], (List.append_nil _).symm, withoutEnd, by simp⟩
  have behind : ∀ c ∈ closing ++ after.toList, isLayout c = true :=
    fun c member => (List.mem_append.mp member).elim (layout c) (layoutAfter c)
  rw [lexemes_tokenize, lexemes_tokenize, String.toList_append, String.toList_append,
    List.append_assoc, lexemesOf_gap layoutBefore, split, List.append_assoc,
    apart.lexemesOf_eq rfl (fun _ => formed_of_mem_scan) behind, lexemesOf]

theorem lexemes_tokenize_of_spaced_unprintable :
    Spaced ((tokenize "!==é\u000007").map Token.literal)
        ("!=" ++ "\t" ++ ("=" ++ "\n " ++ ("é" ++ "\r" ++ ("\u0000" ++ " " ++
          ("07" ++ "\t\t" ++ ""))))) ∧
      (∀ c ∈ "".toList, isLayout c = true) ∧ (∀ c ∈ " \n".toList, isLayout c = true) ∧
      (tokenize ("" ++ ("!=" ++ "\t" ++ ("=" ++ "\n " ++ ("é" ++ "\r" ++ ("\u0000" ++ " " ++
          ("07" ++ "\t\t" ++ ""))))) ++ " \n")).map Token.lexeme =
        (tokenize "!==é\u000007").map Token.lexeme := by
  have blank {gap : String} (all : gap.toList.all isLayout = true) :
      ∀ c ∈ gap.toList, isLayout c = true := List.all_eq_true.mp all
  have literals : (tokenize "!==é\u000007").map Token.literal =
      ["!=", "=", "é", "\u0000", "07", ""] := by
    decide +kernel
  have spaced : Spaced ((tokenize "!==é\u000007").map Token.literal)
      ("!=" ++ "\t" ++ ("=" ++ "\n " ++ ("é" ++ "\r" ++ ("\u0000" ++ " " ++
        ("07" ++ "\t\t" ++ ""))))) := by
    rw [literals]
    exact .cons (by decide) (blank rfl) (.cons (by decide) (blank rfl)
      (.cons (by decide) (blank rfl) (.cons (by decide) (blank rfl)
        (.cons (by decide) (blank rfl) (.single "")))))
  exact ⟨spaced, blank rfl, blank rfl,
    lexemes_tokenize_of_spaced _ (.inl spaced) (blank rfl) (blank rfl)⟩

end Frontend
