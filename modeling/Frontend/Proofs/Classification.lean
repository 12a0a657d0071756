import Frontend.Proofs.Lexemes

/-!
# Kinds and literals

The kind of a token says what its literal is, and its literal says what its kind is, for each
class of kinds (`Lexeme.Formed.classified`). A literal has one kind only
(`Lexeme.Formed.eq_of_text_eq`), so what a kind says of its literals is all that has to be read off
the lexemes one by one.
-/
namespace Frontend

/-- The characters are of a class, and no more of it come directly behind them. -/
structure IsLongestRun (p : Char → Bool) (run behind : List Char) : Prop where
  ne_nil : run ≠ []
  inside : ∀ c ∈ run, p c = true
  ends : ∀ next ∈ behind.head?, p next = false

/-- Kind and literal of a token, ahead of the characters `behind`, fit each other. -/
structure Token.Classified (token : Token) (behind : List Char) : Prop where
  notEnd : token.kind ≠ .endOfInput
  word : token.kind.IsWord ↔ IsLongestRun isLetter token.literal.toList behind
  keyword : ∀ kind ∈ Kind.keywords.map Prod.snd,
    token.kind = kind ↔ (token.literal, kind) ∈ Kind.keywords
  integer : token.kind = .integer ↔ IsLongestRun Char.isDigit token.literal.toList behind
  equals : token.kind = .equals ↔ token.literal = "=="
  notEquals : token.kind = .notEquals ↔ token.literal = "!="
  symbol : ∀ c kind, (c, kind) ∈ Kind.symbols →
    (token.kind = kind ↔ token.literal = String.singleton c)
  /-- A sign that also begins a pair is a token by itself only where no pair begins. -/
  sign : token.kind = .assignment ∨ token.kind = .not → behind.head? ≠ some '='
  illegal : token.kind = .illegal ↔ ∃ c, token.literal = String.singleton c ∧
    isLayout c = false ∧ isLetter c = false ∧ c.isDigit = false ∧
      c ∉ Kind.symbols.map Prod.fst

/-! ### The tables -/

theorem Kind.mem_keywords_iff {word : String} {kind : Kind} :
    (word, kind) ∈ Kind.keywords ↔
      Kind.ofWord word = kind ∧ kind ∈ Kind.keywords.map Prod.snd := by
  constructor
  · intro entry
    have lookups : ∀ entry ∈ Kind.keywords, Kind.ofWord entry.1 = entry.2 := by decide
    exact ⟨lookups (word, kind) entry, List.mem_map.mpr ⟨_, entry, rfl⟩⟩
  · rintro ⟨rfl, keyword⟩
    rw [Kind.ofWord] at keyword ⊢
    cases found : Kind.keywords.lookup word with
    | none =>
      rw [found] at keyword
      exact absurd keyword (by decide)
    | some kind =>
      obtain ⟨before, after, split, -⟩ := List.lookup_eq_some_iff.mp found
      simp [split]

theorem Kind.letters_of_mem_keywords {word : String} {kind : Kind}
    (entry : (word, kind) ∈ Kind.keywords) :
    word.toList ≠ [] ∧ ∀ c ∈ word.toList, isLetter c = true := by
  have letters : ∀ entry ∈ Kind.keywords,
      entry.1.toList ≠ [] ∧ entry.1.toList.all isLetter = true := by
    decide
  obtain ⟨some_left, all⟩ := letters (word, kind) entry
  exact ⟨some_left, List.all_eq_true.mp all⟩

theorem Kind.ofSymbol?_eq_some_iff {c : Char} {kind : Kind} :
    Kind.ofSymbol? c = some kind ↔ (c, kind) ∈ Kind.symbols := by
  constructor
  · intro found
    obtain ⟨before, after, split, -⟩ := List.lookup_eq_some_iff.mp found
    simp [split]
  · have lookups : ∀ entry ∈ Kind.symbols, Kind.ofSymbol? entry.1 = some entry.2 := by decide
    exact fun entry => lookups (c, kind) entry

theorem Kind.ofSymbol?_eq_none_iff {c : Char} :
    Kind.ofSymbol? c = none ↔ c ∉ Kind.symbols.map Prod.fst := by
  simp [Option.eq_none_iff_forall_ne_some, Kind.ofSymbol?_eq_some_iff]

/-- The kind of a symbol is that of no other symbol, and of no other class. -/
theorem Kind.of_mem_symbols {c : Char} {kind : Kind} (entry : (c, kind) ∈ Kind.symbols) :
    (isLayout c = false ∧ isLetter c = false ∧ c.isDigit = false) ∧
      (∀ d, (d, kind) ∈ Kind.symbols → d = c) ∧ ¬ kind.IsWord ∧ kind ≠ .integer ∧
        kind ≠ .equals ∧ kind ≠ .notEquals ∧ kind ≠ .illegal := by
  have entries : ∀ entry ∈ Kind.symbols,
      (isLayout entry.1 = false ∧ isLetter entry.1 = false ∧ entry.1.isDigit = false) ∧
        (∀ other ∈ Kind.symbols, other.2 = entry.2 → other.1 = entry.1) ∧ ¬ entry.2.IsWord ∧
          entry.2 ≠ .integer ∧ entry.2 ≠ .equals ∧ entry.2 ≠ .notEquals ∧
            entry.2 ≠ .illegal := by
    decide
  obtain ⟨class_, unique, others⟩ := entries (c, kind) entry
  exact ⟨class_, fun d again => unique (d, kind) again rfl, others⟩

/-! ### What kind and text of a lexeme say of each other -/

/-- What the texts of a kind are. The end of the input has none. -/
def Kind.Admits (kind : Kind) (text : List Char) : Prop :=
  if kind.IsWord then text ≠ [] ∧ ∀ c ∈ text, isLetter c = true
  else if kind = .integer then text ≠ [] ∧ ∀ c ∈ text, c.isDigit = true
  else if kind = .equals then text = ['=', '=']
  else if kind = .notEquals then text = ['!', '=']
  else if kind = .illegal then
    ∃ c, text = [c] ∧ isLayout c = false ∧ isLetter c = false ∧ c.isDigit = false ∧
      c ∉ Kind.symbols.map Prod.fst
  else ∃ c, (c, kind) ∈ Kind.symbols ∧ text = [c]

theorem Kind.admits_symbol {c : Char} {kind : Kind} (entry : (c, kind) ∈ Kind.symbols)
    (text : List Char) : kind.Admits text ↔ ∃ d, (d, kind) ∈ Kind.symbols ∧ text = [d] := by
  obtain ⟨-, -, noWord, noInteger, noEquals, noNotEquals, noIllegal⟩ := Kind.of_mem_symbols entry
  rw [Admits, if_neg noWord, if_neg noInteger, if_neg noEquals, if_neg noNotEquals,
    if_neg noIllegal]

namespace Lexeme

variable {lexeme other : Lexeme}

theorem Formed.admits (formed : lexeme.Formed) : lexeme.kind.Admits lexeme.text := by
  cases formed with
  | pair paired =>
    obtain ⟨-, ⟨rfl, rfl⟩ | ⟨rfl, rfl⟩⟩ := Kind.ofPair?_eq_some_iff.mp paired
    · rfl
    · rfl
  | @word text some_left letters =>
    rw [Kind.Admits, if_pos (Kind.isWord_ofWord (String.ofList text))]
    exact ⟨some_left, letters⟩
  | integer some_left digits => exact ⟨some_left, digits⟩
  | @single c layout letter digit =>
    dsimp only
    cases found : Kind.ofSymbol? c with
    | none => exact ⟨c, rfl, layout, letter, digit, Kind.ofSymbol?_eq_none_iff.mp found⟩
    | some kind =>
      have entry := Kind.ofSymbol?_eq_some_iff.mp found
      rw [Option.getD_some, Kind.admits_symbol entry]
      exact ⟨c, entry, rfl⟩

/-- A text is a lexeme of one kind at most. -/
theorem Formed.eq_of_text_eq (formed : lexeme.Formed) (again : other.Formed)
    (same : lexeme.text = other.text) : lexeme = other := by
  -- at the end of a text, any lexeme is what is scanned there
  have atEnd (l : Lexeme) : l.EndsBefore [] := by simp [EndsBefore]
  obtain ⟨c, rest, split, -⟩ := formed.exists_cons
  rw [← formed.first_eq (atEnd lexeme) split, ← again.first_eq (atEnd other) (same ▸ split)]

theorem Formed.isWord_iff (formed : lexeme.Formed) :
    lexeme.kind.IsWord ↔ lexeme.text ≠ [] ∧ ∀ c ∈ lexeme.text, isLetter c = true := by
  constructor
  · intro word
    have admits := formed.admits
    rwa [Kind.Admits, if_pos word] at admits
  · rintro ⟨some_left, letters⟩
    rw [formed.eq_of_text_eq (.word some_left letters) rfl]
    exact Kind.isWord_ofWord _

theorem Formed.kind_eq_keyword_iff (formed : lexeme.Formed) {kind : Kind}
    (keyword : kind ∈ Kind.keywords.map Prod.snd) :
    lexeme.kind = kind ↔ (String.ofList lexeme.text, kind) ∈ Kind.keywords := by
  rw [Kind.mem_keywords_iff]
  constructor
  · rintro rfl
    obtain ⟨some_left, letters⟩ := formed.isWord_iff.mp (.inr keyword)
    exact ⟨congrArg Lexeme.kind (formed.eq_of_text_eq (.word some_left letters) rfl).symm, keyword⟩
  · rintro ⟨word, -⟩
    obtain ⟨some_left, letters⟩ :=
      Kind.letters_of_mem_keywords (Kind.mem_keywords_iff.mpr ⟨word, keyword⟩)
    rw [String.toList_ofList] at some_left letters
    rw [formed.eq_of_text_eq (.word some_left letters) rfl, word]

theorem Formed.kind_eq_integer_iff (formed : lexeme.Formed) :
    lexeme.kind = .integer ↔ lexeme.text ≠ [] ∧ ∀ c ∈ lexeme.text, c.isDigit = true := by
  constructor
  · intro integer
    have admits := formed.admits
    rwa [integer] at admits
  · rintro ⟨some_left, digits⟩
    rw [formed.eq_of_text_eq (.integer some_left digits) rfl]

theorem Formed.kind_eq_equals_iff (formed : lexeme.Formed) :
    lexeme.kind = .equals ↔ lexeme.text = ['=', '='] := by
  constructor
  · intro equals
    have admits := formed.admits
    rwa [equals] at admits
  · intro text
    rw [formed.eq_of_text_eq (.pair (c := '=') rfl) text]

theorem Formed.kind_eq_notEquals_iff (formed : lexeme.Formed) :
    lexeme.kind = .notEquals ↔ lexeme.text = ['!', '='] := by
  constructor
  · intro notEquals
    have admits := formed.admits
    rwa [notEquals] at admits
  · intro text
    rw [formed.eq_of_text_eq (.pair (c := '!') rfl) text]

theorem Formed.kind_eq_symbol_iff (formed : lexeme.Formed) {c : Char} {kind : Kind}
    (entry : (c, kind) ∈ Kind.symbols) : lexeme.kind = kind ↔ lexeme.text = [c] := by
  obtain ⟨⟨layout, letter, digit⟩, unique, -⟩ := Kind.of_mem_symbols entry
  constructor
  · rintro rfl
    obtain ⟨d, again, text⟩ := (Kind.admits_symbol entry _).mp formed.admits
    rw [text, unique d again]
  · intro text
    rw [formed.eq_of_text_eq (.single layout letter digit) text,
      Kind.ofSymbol?_eq_some_iff.mpr entry, Option.getD_some]

theorem Formed.kind_eq_illegal_iff (formed : lexeme.Formed) :
    lexeme.kind = .illegal ↔
      ∃ c, lexeme.text = [c] ∧ isLayout c = false ∧ isLetter c = false ∧ c.isDigit = false ∧
        c ∉ Kind.symbols.map Prod.fst := by
  constructor
  · intro illegal
    have admits := formed.admits
    rwa [illegal] at admits
  · rintro ⟨c, text, layout, letter, digit, unlisted⟩
    rw [formed.eq_of_text_eq (.single layout letter digit) text,
      Kind.ofSymbol?_eq_none_iff.mpr unlisted, Option.getD_none]

theorem EndsBefore.isLongestRun_iff {behind : List Char} {p : Char → Bool}
    (ends : lexeme.EndsBefore behind)
    (goesOn : (lexeme.text ≠ [] ∧ ∀ c ∈ lexeme.text, p c = true) →
      ∀ next, p next = true → lexeme.kind.GoesOnWith next) :
    IsLongestRun p lexeme.text behind ↔ lexeme.text ≠ [] ∧ ∀ c ∈ lexeme.text, p c = true := by
  constructor
  · exact fun run => ⟨run.ne_nil, run.inside⟩
  · intro run
    refine ⟨run.1, run.2, fun next following => ?_⟩
    rw [← Bool.not_eq_true]
    exact fun more => ends next following (goesOn run next more)

/-- Kind and literal of a lexeme, where it ends, fit each other. -/
theorem Formed.classified {token : Token} {behind : List Char} (formed : token.lexeme.Formed)
    (ends : token.lexeme.EndsBefore behind) : token.Classified behind := by
  have literal (text : String) : token.literal = text ↔ token.lexeme.text = text.toList :=
    String.toList_inj.symm
  refine ⟨formed.kind_ne_endOfInput, ?_, ?_, ?_, ?_, ?_, ?_, ?_, ?_⟩
  · refine formed.isWord_iff.trans (Iff.symm (ends.isLongestRun_iff fun run next letter => ?_))
    exact (formed.isWord_iff.mpr run).goesOnWith_iff.mpr letter
  · intro kind keyword
    have listed := formed.kind_eq_keyword_iff keyword
    rwa [Token.lexeme, String.ofList_toList] at listed
  · refine formed.kind_eq_integer_iff.trans
      (Iff.symm (ends.isLongestRun_iff fun run next digit => ?_))
    rw [formed.kind_eq_integer_iff.mpr run]
    exact Kind.goesOnWith_integer.mpr digit
  · rw [literal]
    exact formed.kind_eq_equals_iff
  · rw [literal]
    exact formed.kind_eq_notEquals_iff
  · intro c kind entry
    rw [literal, String.toList_singleton]
    exact formed.kind_eq_symbol_iff entry
  · intro sign following
    exact ends '=' following (.inr (.inr ⟨sign, rfl⟩))
  · simp only [literal, String.toList_singleton]
    exact formed.kind_eq_illegal_iff

end Lexeme

end Frontend
