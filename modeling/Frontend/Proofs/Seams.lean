import Frontend.Proofs.Relocation

/-!
# Where a text may be cut

The tokens of a text are those of its two parts exactly if no token reaches over the seam between
them (`tokenize_append_iff`). Only the last token of the first part can do so: it has to stand
directly at the seam, and to go on with what comes behind it. Scanning keeps nothing else in mind.
-/
namespace Frontend

/-- The offset behind the last byte of the token. -/
def Token.finish (token : Token) : Nat := token.position.offset + token.literal.utf8ByteSize

/-- The last of the tokens ends at the seam and goes on with the characters behind it. -/
def ReachesOver (seam : Nat) (behind : List Char) (tokens : List Token) : Prop :=
  ∃ last ∈ tokens.getLast?, last.finish = seam ∧
    ∃ next ∈ behind.head?, last.kind.GoesOnWith next

theorem not_reachesOver_nil {seam : Nat} {behind : List Char} : ¬ ReachesOver seam behind [] := by
  rintro ⟨last, ⟨⟩, -⟩

theorem reachesOver_singleton_iff {seam : Nat} {behind : List Char} {token : Token}
    (finish : token.finish = seam) :
    ReachesOver seam behind [token] ↔ ¬ token.lexeme.EndsBefore behind := by
  simp [ReachesOver, finish, Lexeme.EndsBefore, Token.lexeme]

/-- A token that ends ahead of the seam plays no part. -/
theorem reachesOver_cons_iff {seam : Nat} {behind : List Char} {first : Token}
    {tokens : List Token} (ahead : first.finish < seam) :
    ReachesOver seam behind (first :: tokens) ↔ ReachesOver seam behind tokens := by
  cases tokens with
  | nil =>
    refine iff_of_false ?_ not_reachesOver_nil
    rintro ⟨last, same, finish, -⟩
    obtain rfl := Option.some.inj same
    exact Nat.ne_of_lt ahead finish
  | cons second tokens => rw [ReachesOver, ReachesOver, List.getLast?_cons_cons]

/-- A formed lexeme is a token by itself only if what follows does not go on with it. -/
theorem scan_lexeme_iff {lexeme : Lexeme} (formed : lexeme.Formed) (offset : Nat)
    (behind : List Char) :
    scan offset (lexeme.text ++ behind) =
        ⟨lexeme.kind, String.ofList lexeme.text, Position.ofOffset offset⟩ ::
          scan (offset + Text.byteLength lexeme.text) behind ↔
      lexeme.EndsBefore behind := by
  refine ⟨fun scanned => ?_, fun ends => scan_lexeme formed ends offset⟩
  obtain ⟨c, rest, split, layout⟩ := formed.exists_cons
  have noLayout : ¬ isLayout c = true := by rw [layout]; exact Bool.false_ne_true
  have text : lexeme.text ++ behind = c :: (rest ++ behind) := by rw [split, List.cons_append]
  have body := List.dropWhile_cons_of_neg (l := rest ++ behind) noLayout
  -- what is scanned at the front is the lexeme, and it goes on for as long as it can
  rw [text, scan_of_body body, List.cons.injEq, Token.mk.injEq, String.ofList_inj] at scanned
  obtain ⟨⟨kind, literal, -⟩, -⟩ := scanned
  obtain ⟨-, following, taken, ends⟩ := Lexeme.first_formed (rest ++ behind) layout
  rw [← text, literal] at taken
  rw [Lexeme.EndsBefore, kind] at ends
  rwa [List.append_cancel_left taken]

theorem finish_lexeme {offset : Nat} (fits : offset ≤ Position.limit) (kind : Kind)
    (text : List Char) :
    Token.finish ⟨kind, String.ofList text, Position.ofOffset offset⟩ =
      offset + Text.byteLength text := by
  rw [Token.finish, Position.ofOffset_of_le fits, ← byteLength_toList, String.toList_ofList]

theorem scan_append_iff {offset : Nat} {text more : List Char}
    (fits : offset + Text.byteLength text ≤ Position.limit) :
    scan offset (text ++ more) =
        scan offset text ++ scan (offset + Text.byteLength text) more ↔
      ¬ ReachesOver (offset + Text.byteLength text) more (scan offset text) := by
  induction text using text_induction generalizing offset with
  | nil => simp [not_reachesOver_nil]
  | layout c rest layout ih =>
    rw [Text.byteLength_cons, ← Nat.add_assoc] at fits ⊢
    rw [List.cons_append, scan_layout layout, scan_layout layout]
    exact ih fits
  | lexeme lexeme behind formed ends ih =>
    rw [Text.byteLength_append] at fits
    have within : offset ≤ Position.limit := by omega
    have finish := finish_lexeme within lexeme.kind lexeme.text
    rw [List.append_assoc, scan_lexeme formed ends, List.cons_append, Text.byteLength_append]
    cases behind with
    | nil =>
      -- the lexeme stands at the seam
      rw [List.nil_append, scan_nil, List.nil_append, Text.byteLength_nil, Nat.add_zero,
        scan_lexeme_iff formed, reachesOver_singleton_iff finish, not_not, Token.lexeme,
        String.toList_ofList]
    | cons d rest =>
      -- something stands between the lexeme and the seam, and the lexeme ends ahead of it
      have endsBefore : lexeme.EndsBefore ((d :: rest) ++ more) := ends
      have positive := d.utf8Size_pos
      rw [scan_lexeme formed endsBefore, List.cons.injEq, and_iff_right rfl, ← Nat.add_assoc,
        reachesOver_cons_iff]
      · exact ih (by omega)
      · rw [finish, Text.byteLength_cons]
        omega

/-- Two texts one behind the other have the tokens of the first, but for its end, and then those of
the second, further on, exactly if the last token of the first does not reach over the seam: if it
ends there, then the second does not begin with a letter behind a word, with a digit behind an
integer, or with `=` behind `=` or `!`. -/
theorem tokenize_append_iff (a b : String) (fits : (a ++ b).utf8ByteSize ≤ Position.limit) :
    tokenize (a ++ b) =
        (tokenize a).dropLast ++
          (tokenize b).map (Token.relocate (Position.shift a.utf8ByteSize)) ↔
      ¬ ReachesOver a.utf8ByteSize b.toList (tokenize a).dropLast := by
  rw [String.utf8ByteSize_append, ← byteLength_toList, ← byteLength_toList] at fits
  have first : (tokenize a).dropLast = scan 0 a.toList := by rw [tokenize, List.dropLast_concat]
  have second : (tokenize b).map (Token.relocate (Position.shift a.utf8ByteSize)) =
      scan (0 + Text.byteLength a.toList) b.toList ++
        [.endOfInput (Position.ofOffset (Text.byteLength (a ++ b).toList))] := by
    rw [tokenize, List.map_append, ← byteLength_toList, scan_shift (by omega), List.map_singleton,
      String.toList_append, Text.byteLength_append, Position.ofOffset_of_le (by omega),
      Position.ofOffset_of_le (by omega), Nat.add_comm]
    rfl
  rw [first, second, tokenize, ← List.append_assoc, List.append_cancel_right_eq,
    String.toList_append, scan_append_iff (by omega), Nat.zero_add, byteLength_toList]

theorem tokenize_append_iff_of_signs :
    ("é x !==" ++ "= y").utf8ByteSize ≤ Position.limit ∧
      (tokenize ("é x !==" ++ "= y") =
          (tokenize "é x !==").dropLast ++
            (tokenize "= y").map (Token.relocate (Position.shift "é x !==".utf8ByteSize)) ↔
        ¬ ReachesOver "é x !==".utf8ByteSize "= y".toList (tokenize "é x !==").dropLast) :=
  ⟨by decide, tokenize_append_iff _ _ (by decide)⟩

end Frontend
