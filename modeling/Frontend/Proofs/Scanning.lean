import Frontend.Proofs.Lexemes

/-!
# Scanning a text in parts

Equations for scanning over layout and over a lexeme, what scanning makes of two texts one behind
the other (`scan_append`), and where the tokens of a text stand.
-/
namespace Frontend

/-! ### Scanning, piece by piece -/

theorem scan_of_none {offset : Nat} {text : List Char} (none : Step.next? offset text = none) :
    scan offset text = [] := by
  rw [scan]
  split
  · rfl
  next taken =>
    rw [none] at taken
    cases taken

theorem scan_of_some {offset : Nat} {text : List Char} {step : Step}
    (taken : Step.next? offset text = some step) :
    scan offset text = step.token :: scan (offset + step.width) step.rest := by
  rw [scan]
  split
  next none =>
    rw [taken] at none
    cases none
  next same =>
    rw [taken] at same
    cases same
    rfl

theorem scan_of_blank {text : List Char} (blank : text.dropWhile isLayout = []) (offset : Nat) :
    scan offset text = [] := by
  apply scan_of_none
  simp only [Step.next?, blank]

theorem scan_of_body {text rest : List Char} {c : Char}
    (body : text.dropWhile isLayout = c :: rest) (offset : Nat) :
    scan offset text =
      ⟨(Lexeme.first c rest).kind, String.ofList (Lexeme.first c rest).text,
          Position.ofOffset (offset + Text.byteLength (text.takeWhile isLayout))⟩ ::
        scan (offset + (Text.byteLength (text.takeWhile isLayout) +
            Text.byteLength (Lexeme.first c rest).text))
          ((c :: rest).drop (Lexeme.first c rest).text.length) := by
  have taken : Step.next? offset text = some
      ⟨⟨(Lexeme.first c rest).kind, String.ofList (Lexeme.first c rest).text,
          Position.ofOffset (offset + Text.byteLength (text.takeWhile isLayout))⟩,
        Text.byteLength (text.takeWhile isLayout) + Text.byteLength (Lexeme.first c rest).text,
        (c :: rest).drop (Lexeme.first c rest).text.length⟩ := by
    simp only [Step.next?, body]
  exact scan_of_some taken

@[simp] theorem scan_nil (offset : Nat) : scan offset [] = [] := scan_of_blank rfl offset

/-- Layout only moves what follows. -/
theorem scan_layout {c : Char} (layout : isLayout c = true) (offset : Nat) (rest : List Char) :
    scan offset (c :: rest) = scan (offset + c.utf8Size) rest := by
  have dropped := List.dropWhile_cons_of_pos (l := rest) layout
  cases body : rest.dropWhile isLayout with
  | nil => rw [scan_of_blank (dropped.trans body), scan_of_blank body]
  | cons d tail =>
    rw [scan_of_body (dropped.trans body), scan_of_body body,
      List.takeWhile_cons_of_pos layout, Text.byteLength_cons]
    simp only [Nat.add_assoc]

/-- A formed lexeme is a token by itself if what follows does not go on with it. -/
theorem scan_lexeme {lexeme : Lexeme} {behind : List Char} (formed : lexeme.Formed)
    (ends : lexeme.EndsBefore behind) (offset : Nat) :
    scan offset (lexeme.text ++ behind) =
      ⟨lexeme.kind, String.ofList lexeme.text, Position.ofOffset offset⟩ ::
        scan (offset + Text.byteLength lexeme.text) behind := by
  obtain ⟨c, rest, split, layout⟩ := formed.exists_cons
  have noLayout : ¬ isLayout c = true := by rw [layout]; exact Bool.false_ne_true
  have text : lexeme.text ++ behind = c :: (rest ++ behind) := by rw [split, List.cons_append]
  have body := List.dropWhile_cons_of_neg (l := rest ++ behind) noLayout
  rw [← text] at body
  rw [scan_of_body (body.trans text), formed.first_eq ends split, ← text, List.drop_left, text,
    List.takeWhile_cons_of_neg noLayout, Text.byteLength_nil, Nat.add_zero, Nat.zero_add]

/-! ### Scanning two texts one behind the other -/

/-- A text may be cut behind a token that does not go on with what follows. -/
theorem scan_append (offset : Nat) (text more : List Char)
    (apart : ∀ token ∈ (scan offset text).getLast?, ∀ next ∈ more.head?,
      ¬ token.kind.GoesOnWith next) :
    scan offset (text ++ more) =
      scan offset text ++ scan (offset + Text.byteLength text) more := by
  induction text using text_induction generalizing offset with
  | nil => simp
  | layout c rest layout ih =>
    rw [scan_layout layout] at apart
    rw [List.cons_append, scan_layout layout, scan_layout layout, ih _ apart,
      Text.byteLength_cons, Nat.add_assoc]
  | lexeme lexeme behind formed ends ih =>
    rw [scan_lexeme formed ends, List.getLast?_cons] at apart
    -- the seam is behind this lexeme only if it is the last one
    have endsBefore : lexeme.EndsBefore (behind ++ more) := by
      intro next following
      cases behind with
      | nil =>
        rw [scan_nil] at apart
        exact apart _ rfl next following
      | cons d rest => exact ends next following
    have later : ∀ token ∈ (scan (offset + Text.byteLength lexeme.text) behind).getLast?,
        ∀ next ∈ more.head?, ¬ token.kind.GoesOnWith next := by
      intro token last
      exact apart token (by rw [Option.mem_def.mp last]; rfl)
    rw [List.append_assoc, scan_lexeme formed endsBefore, scan_lexeme formed ends, ih _ later,
      Text.byteLength_append, List.cons_append, Nat.add_assoc]

/-- No token goes on with layout, so a text may be cut there. -/
theorem scan_append_layout {c : Char} (layout : isLayout c = true) (offset : Nat)
    (text more : List Char) :
    scan offset (text ++ c :: more) =
      scan offset text ++ scan (offset + Text.byteLength text + c.utf8Size) more := by
  rw [scan_append, scan_layout layout]
  rintro token - next following
  obtain rfl := Option.some.inj following
  exact Kind.not_goesOnWith_of_isLayout layout

/-- A text may be cut behind any of its tokens. -/
theorem exists_split_of_scan {offset : Nat} {text : List Char} {before after : List Token}
    (split : scan offset text = before ++ after) :
    ∃ first rest, text = first ++ rest ∧ scan offset first = before ∧
      scan (offset + Text.byteLength first) rest = after ∧
      ∀ last ∈ before.getLast?, last.literal.toList <:+ first := by
  induction text using text_induction generalizing offset before with
  | nil =>
    rw [scan_nil, List.nil_eq_append_iff] at split
    obtain ⟨rfl, rfl⟩ := split
    exact ⟨[], [], rfl, scan_nil _, scan_nil _, by simp⟩
  | layout c rest layout ih =>
    rw [scan_layout layout] at split
    obtain ⟨first, behind, rfl, scanned, remains, ends⟩ := ih split
    refine ⟨c :: first, behind, rfl, by rw [scan_layout layout, scanned], ?_, ?_⟩
    · rwa [Text.byteLength_cons, ← Nat.add_assoc]
    · exact fun last isLast => (ends last isLast).trans (List.suffix_cons c first)
  | lexeme lexeme behind formed ends ih =>
    cases before with
    | nil => exact ⟨[], lexeme.text ++ behind, rfl, scan_nil _, split, by simp⟩
    | cons token before =>
      rw [scan_lexeme formed ends, List.cons_append, List.cons.injEq] at split
      obtain ⟨rfl, later⟩ := split
      cases before with
      | nil =>
        -- the text is cut directly behind the lexeme, where that ends too
        have atEnd : lexeme.EndsBefore [] := by simp [Lexeme.EndsBefore]
        have alone := scan_lexeme formed atEnd offset
        rw [List.append_nil, scan_nil] at alone
        exact ⟨lexeme.text, behind, rfl, alone, later, by simp⟩
      | cons second before =>
        obtain ⟨first, rest, rfl, scanned, remains, suffix⟩ := ih later
        -- where the text is cut, the lexeme still ends
        have endsBefore : lexeme.EndsBefore first := by
          intro next following
          exact ends next (by rw [List.head?_append, Option.mem_def.mp following]; rfl)
        refine ⟨lexeme.text ++ first, rest, (List.append_assoc _ _ _).symm, ?_, ?_, ?_⟩
        · rw [scan_lexeme formed endsBefore, scanned]
        · rwa [Text.byteLength_append, ← Nat.add_assoc]
        · intro last isLast
          rw [List.getLast?_cons_cons] at isLast
          exact (suffix last isLast).trans (List.suffix_append _ _)

theorem exists_prefix_of_scan {offset : Nat} {text : List Char} {before after : List Token}
    (split : scan offset text = before ++ after) :
    ∃ first, first <+: text ∧ scan offset first = before := by
  obtain ⟨first, rest, rfl, scanned, -⟩ := exists_split_of_scan split
  exact ⟨first, List.prefix_append first rest, scanned⟩

/-! ### The lexemes of the tokens -/

/-- Where a text stands makes no difference to its lexemes. -/
theorem map_lexeme_scan (offset other : Nat) (text : List Char) :
    (scan offset text).map Token.lexeme = (scan other text).map Token.lexeme := by
  induction text using text_induction generalizing offset other with
  | nil => simp
  | layout c rest layout ih =>
    rw [scan_layout layout, scan_layout layout]
    exact ih _ _
  | lexeme lexeme behind formed ends ih =>
    rw [scan_lexeme formed ends, scan_lexeme formed ends, List.map_cons, List.map_cons, ih]
    rfl

theorem formed_of_mem_scan {offset : Nat} {text : List Char} {token : Token}
    (member : token ∈ scan offset text) : token.lexeme.Formed := by
  induction text using text_induction generalizing offset with
  | nil => simp at member
  | layout c rest layout ih =>
    rw [scan_layout layout] at member
    exact ih member
  | lexeme lexeme behind formed ends ih =>
    rw [scan_lexeme formed ends] at member
    rcases List.mem_cons.mp member with rfl | later
    · simpa [Token.lexeme] using formed
    · exact ih later

theorem kind_ne_endOfInput_of_mem_scan {offset : Nat} {text : List Char} {token : Token}
    (member : token ∈ scan offset text) : token.kind ≠ .endOfInput :=
  (formed_of_mem_scan member).kind_ne_endOfInput

/-! ### Positions -/

/-- The token stands ahead of the other one. -/
def Token.Precedes (s t : Token) : Prop := s.position.offset < t.position.offset

theorem Token.Precedes.position_ne {s t : Token} (precedes : s.Precedes t) :
    s.position ≠ t.position := by
  intro same
  rw [Precedes, same] at precedes
  exact Nat.lt_irrefl _ precedes

theorem position_mem_scan {offset : Nat} {text : List Char}
    (fits : offset + Text.byteLength text ≤ Position.limit) {token : Token}
    (member : token ∈ scan offset text) :
    offset ≤ token.position.offset ∧
      token.position.offset < offset + Text.byteLength text := by
  induction text using text_induction generalizing offset with
  | nil => simp at member
  | layout c rest layout ih =>
    rw [Text.byteLength_cons] at fits ⊢
    rw [scan_layout layout] at member
    have inside := ih (by omega) member
    omega
  | lexeme lexeme behind formed ends ih =>
    have positive := formed.byteLength_pos
    rw [Text.byteLength_append] at fits ⊢
    rw [scan_lexeme formed ends] at member
    rcases List.mem_cons.mp member with rfl | later
    · rw [Position.ofOffset_of_le (by omega)]
      dsimp only
      omega
    · have inside := ih (by omega) later
      omega

theorem pairwise_scan {offset : Nat} {text : List Char}
    (fits : offset + Text.byteLength text ≤ Position.limit) :
    (scan offset text).Pairwise Token.Precedes := by
  induction text using text_induction generalizing offset with
  | nil => simp
  | layout c rest layout ih =>
    rw [Text.byteLength_cons] at fits
    rw [scan_layout layout]
    exact ih (by omega)
  | lexeme lexeme behind formed ends ih =>
    have positive := formed.byteLength_pos
    rw [Text.byteLength_append] at fits
    rw [scan_lexeme formed ends, List.pairwise_cons]
    refine ⟨fun token later => ?_, ih (by omega)⟩
    have inside := position_mem_scan (by omega) later
    rw [Token.Precedes, Position.ofOffset_of_le (by omega)]
    dsimp only
    omega

/-- The width of a text is its number of bytes. -/
theorem byteLength_toList (source : String) :
    Text.byteLength source.toList = source.utf8ByteSize := by
  have width (cs : List Char) : Text.byteLength cs = (String.ofList cs).utf8ByteSize := by
    induction cs with
    | nil => rfl
    | cons c cs ih =>
      rw [← List.singleton_append, String.ofList_append, String.utf8ByteSize_append, ← ih,
        ← String.singleton_eq_ofList, String.utf8ByteSize_singleton]
      rfl
  rw [width, String.ofList_toList]

/-- The tokens of a text stand in order, the end token last. -/
theorem pairwise_tokenize {source : String} (fits : source.utf8ByteSize ≤ Position.limit) :
    (tokenize source).Pairwise Token.Precedes := by
  rw [← byteLength_toList] at fits
  rw [tokenize, List.pairwise_append]
  refine ⟨pairwise_scan (by omega), List.pairwise_singleton _ _, fun token member last isLast => ?_⟩
  rw [List.mem_singleton.mp isLast, Token.Precedes, Position.ofOffset_of_le fits]
  have inside := (position_mem_scan (by omega) member).2
  rwa [Nat.zero_add] at inside

/-- No two tokens of a text stand at one position. -/
theorem position_ne_of_tokenize_eq {source : String} {before after : List Token} {token : Token}
    (fits : source.utf8ByteSize ≤ Position.limit)
    (split : tokenize source = before ++ token :: after) :
    ∀ other ∈ before ++ after, other.position ≠ token.position := by
  have ordered := pairwise_tokenize fits
  rw [split, List.pairwise_append, List.pairwise_cons] at ordered
  obtain ⟨-, ⟨behind, -⟩, across⟩ := ordered
  intro other member
  rcases List.mem_append.mp member with inBefore | inAfter
  · exact (across other inBefore token List.mem_cons_self).position_ne
  · exact (behind other inAfter).position_ne.symm

end Frontend
