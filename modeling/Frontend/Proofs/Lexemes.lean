import Frontend.Token.Scan

/-!
# Lexemes

A text is layout and formed lexemes in turn, where each lexeme goes on for as long as it can
(`text_induction`). Whether it can is a matter of its kind and of the next character
(`Kind.GoesOnWith`).
-/
namespace Frontend

/-! ### Which kinds go on -/

/-- The kind of a word: an identifier or a keyword. -/
def Kind.IsWord (kind : Kind) : Prop :=
  kind = .identifier ∨ kind ∈ Kind.keywords.map Prod.snd

instance : DecidablePred Kind.IsWord := fun _ => inferInstanceAs (Decidable (_ ∨ _))

/-- A token of the kind does not end ahead of the character. -/
def Kind.GoesOnWith (kind : Kind) (next : Char) : Prop :=
  kind.IsWord ∧ isLetter next = true ∨ kind = .integer ∧ next.isDigit = true ∨
    (kind = .assignment ∨ kind = .not) ∧ next = '='

theorem Kind.isWord_ofWord (word : String) : (Kind.ofWord word).IsWord := by
  rw [Kind.ofWord]
  cases found : Kind.keywords.lookup word with
  | none => exact .inl rfl
  | some kind =>
    obtain ⟨_, _, split, -⟩ := List.lookup_eq_some_iff.mp found
    exact .inr (List.mem_map.mpr ⟨(word, kind), by simp [split], rfl⟩)

theorem Kind.IsWord.goesOnWith_iff {kind : Kind} (word : kind.IsWord) {next : Char} :
    kind.GoesOnWith next ↔ isLetter next = true := by
  have others : kind ≠ .integer ∧ kind ≠ .assignment ∧ kind ≠ .not := by
    revert word
    cases kind <;> decide
  simp [GoesOnWith, word, others]

theorem Kind.goesOnWith_integer {next : Char} :
    Kind.integer.GoesOnWith next ↔ next.isDigit = true := by
  have noWord : ¬ Kind.integer.IsWord := by decide
  simp [GoesOnWith, noWord]

/-- Among the other kinds, only the two that also begin a pair ever go on. -/
theorem Kind.GoesOnWith.eq_of_symbol {kind : Kind} {next : Char} (more : kind.GoesOnWith next)
    (noWord : ¬ kind.IsWord) (noInteger : kind ≠ .integer) :
    (kind = .assignment ∨ kind = .not) ∧ next = '=' := by
  rcases more with ⟨word, -⟩ | ⟨integer, -⟩ | sign
  · exact absurd word noWord
  · exact absurd integer noInteger
  · exact sign

theorem Kind.ofSymbol?_getD (c : Char) :
    ¬ ((Kind.ofSymbol? c).getD .illegal).IsWord ∧ (Kind.ofSymbol? c).getD .illegal ≠ .integer ∧
      ((Kind.ofSymbol? c).getD .illegal = .assignment → c = '=') ∧
      ((Kind.ofSymbol? c).getD .illegal = .not → c = '!') := by
  cases found : Kind.ofSymbol? c with
  | none =>
    refine ⟨by decide, by decide, ?_, ?_⟩ <;> intro impossible <;> cases impossible
  | some kind =>
    obtain ⟨_, _, split, -⟩ := List.lookup_eq_some_iff.mp found
    have entries : ∀ entry ∈ Kind.symbols, ¬ entry.2.IsWord ∧ entry.2 ≠ .integer ∧
        (entry.2 = .assignment → entry.1 = '=') ∧ (entry.2 = .not → entry.1 = '!') := by
      decide
    exact entries (c, kind) (by simp [split])

/-! ### Lexemes -/

/-- The token without its position. -/
def Token.lexeme (token : Token) : Lexeme := ⟨token.kind, token.literal.toList⟩

theorem isLetter_of_isLayout {c : Char} (layout : isLayout c = true) : isLetter c = false := by
  simp only [isLayout, Bool.or_eq_true, beq_iff_eq] at layout
  rcases layout with ((rfl | rfl) | rfl) | rfl <;> decide

theorem isDigit_of_isLayout {c : Char} (layout : isLayout c = true) : c.isDigit = false := by
  simp only [isLayout, Bool.or_eq_true, beq_iff_eq] at layout
  rcases layout with ((rfl | rfl) | rfl) | rfl <;> decide

theorem isLetter_of_isDigit {c : Char} (digit : c.isDigit = true) : isLetter c = false := by
  rw [← Bool.not_eq_true]
  intro letter
  change (decide (48 ≤ c.val) && decide (c.val ≤ 57)) = true at digit
  change ((decide (65 ≤ c.val ∧ c.val ≤ 90) || (decide (97 ≤ c.val) && decide (c.val ≤ 122))) ||
    c == '_') = true at letter
  simp only [Bool.or_eq_true, Bool.and_eq_true, decide_eq_true_eq, beq_iff_eq,
    UInt32.le_iff_toNat_le] at digit letter
  rcases letter with (upper | lower) | rfl
  · exact absurd (Nat.le_trans upper.1 digit.2) (by decide)
  · exact absurd (Nat.le_trans lower.1 digit.2) (by decide)
  · exact absurd digit.2 (by decide)

theorem Kind.not_goesOnWith {kind : Kind} {next : Char} (noLetter : isLetter next = false)
    (noDigit : next.isDigit = false) (noEqual : next ≠ '=') : ¬ kind.GoesOnWith next := by
  rintro (⟨-, letter⟩ | ⟨-, digit⟩ | ⟨-, equal⟩)
  · rw [noLetter] at letter
    cases letter
  · rw [noDigit] at digit
    cases digit
  · exact noEqual equal

theorem Kind.not_goesOnWith_of_isLayout {kind : Kind} {next : Char}
    (layout : isLayout next = true) : ¬ kind.GoesOnWith next := by
  refine Kind.not_goesOnWith (isLetter_of_isLayout layout) (isDigit_of_isLayout layout) ?_
  rintro rfl
  exact absurd layout (by decide)

theorem Kind.ofPair?_eq_some_iff {first second : Char} {kind : Kind} :
    Kind.ofPair? first second = some kind ↔
      second = '=' ∧ (first = '=' ∧ kind = .equals ∨ first = '!' ∧ kind = .notEquals) := by
  rw [Kind.ofPair?]
  split
  next equal =>
    split
    next first => simp [equal, first, eq_comm]
    · split
      next first => simp [equal, first, eq_comm]
      next noEqual noBang => simp [noEqual, noBang]
  next other => simp [other]

theorem Kind.not_goesOnWith_of_pair {first second next : Char} {kind : Kind}
    (paired : Kind.ofPair? first second = some kind) : ¬ kind.GoesOnWith next := by
  obtain ⟨-, ⟨-, rfl⟩ | ⟨-, rfl⟩⟩ := Kind.ofPair?_eq_some_iff.mp paired
  · exact fun more => absurd (more.eq_of_symbol (by decide) (by decide)).1 (by decide)
  · exact fun more => absurd (more.eq_of_symbol (by decide) (by decide)).1 (by decide)

theorem Kind.ofPair?_eq_none_iff {first second : Char} :
    Kind.ofPair? first second = none ↔ (second = '=' → first ≠ '=' ∧ first ≠ '!') := by
  simp only [Option.eq_none_iff_forall_ne_some, ne_eq, Kind.ofPair?_eq_some_iff]
  constructor
  · intro none equal
    exact ⟨fun first => none .equals ⟨equal, .inl ⟨first, rfl⟩⟩,
      fun first => none .notEquals ⟨equal, .inr ⟨first, rfl⟩⟩⟩
  · rintro unpaired kind ⟨equal, ⟨first, -⟩ | ⟨first, -⟩⟩
    · exact (unpaired equal).1 first
    · exact (unpaired equal).2 first

theorem bind_ofPair?_eq_none {p : Char → Bool} {c : Char} (inside : p c = true)
    (equal : p '=' = false) (bang : p '!' = false) (next? : Option Char) :
    next?.bind (Kind.ofPair? c) = none := by
  refine Option.bind_eq_none_iff.mpr fun second _ => Kind.ofPair?_eq_none_iff.mpr fun _ => ⟨?_, ?_⟩
  · rintro rfl
    rw [equal] at inside
    cases inside
  · rintro rfl
    rw [bang] at inside
    cases inside

namespace Lexeme

/-- What a lexeme can be, wherever it stands. -/
inductive Formed : Lexeme → Prop
  | pair {c : Char} {kind : Kind} : Kind.ofPair? c '=' = some kind → Formed ⟨kind, [c, '=']⟩
  | word {text : List Char} : text ≠ [] → (∀ c ∈ text, isLetter c = true) →
      Formed ⟨Kind.ofWord (String.ofList text), text⟩
  | integer {text : List Char} : text ≠ [] → (∀ c ∈ text, c.isDigit = true) →
      Formed ⟨.integer, text⟩
  | single {c : Char} : isLayout c = false → isLetter c = false → c.isDigit = false →
      Formed ⟨(Kind.ofSymbol? c).getD .illegal, [c]⟩

/-- The text `behind` does not go on with the lexeme. -/
def EndsBefore (lexeme : Lexeme) (behind : List Char) : Prop :=
  ∀ next ∈ behind.head?, ¬ lexeme.kind.GoesOnWith next

theorem Formed.exists_cons {lexeme : Lexeme} (formed : lexeme.Formed) :
    ∃ c rest, lexeme.text = c :: rest ∧ isLayout c = false := by
  -- the first character decides, and no class of characters has layout in it
  have noLayout {c : Char} (other : isLetter c = true ∨ c.isDigit = true) :
      isLayout c = false := by
    rw [← Bool.not_eq_true]
    intro layout
    rw [isLetter_of_isLayout layout, isDigit_of_isLayout layout] at other
    simp at other
  cases formed with
  | pair paired =>
    obtain ⟨-, ⟨rfl, -⟩ | ⟨rfl, -⟩⟩ := Kind.ofPair?_eq_some_iff.mp paired
    · exact ⟨'=', ['='], rfl, by decide⟩
    · exact ⟨'!', ['='], rfl, by decide⟩
  | word some_left letters =>
    obtain ⟨c, rest, split⟩ := List.exists_cons_of_ne_nil some_left
    exact ⟨c, rest, split, noLayout (.inl (letters c (by simp [split])))⟩
  | integer some_left digits =>
    obtain ⟨c, rest, split⟩ := List.exists_cons_of_ne_nil some_left
    exact ⟨c, rest, split, noLayout (.inr (digits c (by simp [split])))⟩
  | @single c layout _ _ => exact ⟨c, [], rfl, layout⟩

theorem Formed.byteLength_pos {lexeme : Lexeme} (formed : lexeme.Formed) :
    0 < Text.byteLength lexeme.text := by
  obtain ⟨c, rest, split, -⟩ := formed.exists_cons
  rw [split]
  exact Text.byteLength_pos (List.cons_ne_nil c rest)

/-- The end of a text is no lexeme. -/
theorem Formed.kind_ne_endOfInput {lexeme : Lexeme} (formed : lexeme.Formed) :
    lexeme.kind ≠ .endOfInput := by
  cases formed with
  | pair paired =>
    obtain ⟨-, ⟨-, rfl⟩ | ⟨-, rfl⟩⟩ := Kind.ofPair?_eq_some_iff.mp paired
    · exact Kind.noConfusion
    · exact Kind.noConfusion
  | @word text _ _ =>
    intro ends
    have word := Kind.isWord_ofWord (String.ofList text)
    rw [show Kind.ofWord (String.ofList text) = .endOfInput from ends] at word
    exact absurd word (by decide)
  | integer => exact Kind.noConfusion
  | @single c _ _ _ =>
    have entries : ∀ entry ∈ Kind.symbols, entry.2 ≠ .endOfInput := by decide
    cases found : Kind.ofSymbol? c with
    | none => simp
    | some kind =>
      obtain ⟨_, _, split, -⟩ := List.lookup_eq_some_iff.mp found
      exact entries (c, kind) (by simp [split])

theorem takeWhile_append_of_ends {p : Char → Bool} {run behind : List Char}
    (inside : ∀ c ∈ run, p c = true) (ends : ∀ next ∈ behind.head?, ¬ p next = true) :
    (run ++ behind).takeWhile p = run := by
  rw [List.takeWhile_append_of_pos inside]
  cases behind with
  | nil => simp
  | cons next rest => simp [ends next rfl]

/-- The lexeme at the front of a text is the one that ends where it can go on no further. -/
theorem Formed.first_eq {lexeme : Lexeme} {c : Char} {rest behind : List Char}
    (formed : lexeme.Formed) (ends : lexeme.EndsBefore behind) (split : lexeme.text = c :: rest) :
    first c (rest ++ behind) = lexeme := by
  cases formed with
  | pair paired =>
    obtain ⟨rfl, rfl⟩ := List.cons.inj split
    simp [first, paired]
  | word some_left letters =>
    subst split
    have letter := letters c List.mem_cons_self
    -- a word and a number are longest runs, and what follows ends them
    have run := takeWhile_append_of_ends letters fun next following more =>
      ends next following ((Kind.isWord_ofWord _).goesOnWith_iff.mpr more)
    rw [List.cons_append] at run
    rw [first, bind_ofPair?_eq_none letter (by decide) (by decide)]
    simp only [letter, if_true, run]
  | integer some_left digits =>
    subst split
    have digit := digits c List.mem_cons_self
    have run := takeWhile_append_of_ends digits fun next following more =>
      ends next following (Kind.goesOnWith_integer.mpr more)
    rw [List.cons_append] at run
    rw [first, bind_ofPair?_eq_none digit (by decide) (by decide)]
    simp only [isLetter_of_isDigit digit, digit, if_true, run, Bool.false_eq_true, if_false]
  | @single c layout noLetter noDigit =>
    obtain ⟨rfl, rfl⟩ := List.cons.inj split
    -- `=` and `!` are symbols of their own only where no pair begins
    have unpaired : ([] ++ behind).head?.bind (Kind.ofPair? c) = none := by
      refine Option.bind_eq_none_iff.mpr fun second following =>
        Kind.ofPair?_eq_none_iff.mpr fun equal => ⟨?_, ?_⟩
      · rintro rfl
        exact ends second following (.inr (.inr ⟨.inl rfl, equal⟩))
      · rintro rfl
        exact ends second following (.inr (.inr ⟨.inr rfl, equal⟩))
    rw [first, unpaired]
    simp only [noLetter, noDigit, Bool.false_eq_true, if_false]

theorem exists_run (p : Char → Bool) (text : List Char) :
    ∃ behind, text = text.takeWhile p ++ behind ∧ (∀ c ∈ text.takeWhile p, p c = true) ∧
      ∀ next ∈ behind.head?, ¬ p next = true := by
  refine ⟨text.dropWhile p, List.takeWhile_append_dropWhile.symm,
    List.all_eq_true.mp List.all_takeWhile, fun next following => ?_⟩
  have stops := List.head?_dropWhile_not p text
  rw [Option.mem_def.mp following] at stops
  simpa using stops

/-- What is in front of a text is a formed lexeme, and it goes on for as long as it can. -/
theorem first_formed {c : Char} (rest : List Char) (layout : isLayout c = false) :
    (first c rest).Formed ∧
      ∃ behind, c :: rest = (first c rest).text ++ behind ∧ (first c rest).EndsBefore behind := by
  rw [first]
  split
  next kind paired =>
    obtain ⟨second, following, paired⟩ := Option.bind_eq_some_iff.mp paired
    obtain ⟨rest, rfl⟩ := List.head?_eq_some_iff.mp following
    -- a pair goes on with nothing
    obtain ⟨rfl, -⟩ := Kind.ofPair?_eq_some_iff.mp paired
    exact ⟨.pair paired, rest, rfl, fun next _ => Kind.not_goesOnWith_of_pair paired⟩
  next unpaired =>
    split
    next letter =>
      obtain ⟨behind, split, inside, stops⟩ := exists_run isLetter (c :: rest)
      exact ⟨.word (by simp [letter]) inside, behind, split, fun next following more =>
        stops next following ((Kind.isWord_ofWord _).goesOnWith_iff.mp more)⟩
    next noLetter =>
      split
      next digit =>
        obtain ⟨behind, split, inside, stops⟩ := exists_run Char.isDigit (c :: rest)
        exact ⟨.integer (by simp [digit]) inside, behind, split, fun next following more =>
          stops next following (Kind.goesOnWith_integer.mp more)⟩
      next noDigit =>
        refine ⟨.single layout (by simpa using noLetter) (by simpa using noDigit), rest, rfl, ?_⟩
        -- where a sign could go on, a pair would have been found
        intro next following more
        obtain ⟨noWord, noInteger, assignment, bang⟩ := Kind.ofSymbol?_getD c
        obtain ⟨sign, equal⟩ := more.eq_of_symbol noWord noInteger
        have single := Kind.ofPair?_eq_none_iff.mp
          (Option.bind_eq_none_iff.mp unpaired next following) equal
        exact sign.elim (fun kind => single.1 (assignment kind)) fun kind => single.2 (bang kind)

end Lexeme

/-- A text is empty, or begins with layout, or begins with a formed lexeme that goes on for as
long as it can. -/
@[elab_as_elim]
theorem text_induction {motive : List Char → Prop} (nil : motive [])
    (layout : ∀ c rest, isLayout c = true → motive rest → motive (c :: rest))
    (lexeme : ∀ (lexeme : Lexeme) (behind : List Char), lexeme.Formed →
      lexeme.EndsBefore behind → motive behind → motive (lexeme.text ++ behind))
    (text : List Char) : motive text := by
  -- on the length, since a lexeme takes more than one character off the front
  induction size : text.length using Nat.strongRecOn generalizing text with
  | ind n ih =>
    cases text with
    | nil => exact nil
    | cons c rest =>
      cases blank : isLayout c with
      | true => exact layout c rest blank (ih rest.length (by simp [← size]) rest rfl)
      | false =>
        obtain ⟨formed, behind, split, ends⟩ := Lexeme.first_formed rest blank
        have positive := List.length_pos_iff.mpr (Lexeme.text_ne_nil c rest)
        have shorter : behind.length < n := by
          rw [← size, split, List.length_append]
          omega
        rw [split]
        exact lexeme _ behind formed ends (ih behind.length shorter behind rfl)

end Frontend
