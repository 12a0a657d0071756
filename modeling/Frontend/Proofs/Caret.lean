import Frontend.Proofs.DisplayLines

/-!
# The caret

The caret of a diagnostic stands behind as many dashes as there are bytes in front of the offending
token, where its line is shown from its indentation on. So it points at the token exactly if the
characters in front of it take one byte each, and if the token has not been trimmed off as white
space (`caret_points_at_iff`).
-/
namespace Frontend

open Text

/-- The character stands behind `shown` on the fourth of the lines, and on the fifth the caret
stands in the same column. -/
def CaretPointsAt (display : String) (shown : List Char) (c : Char) : Prop :=
  (∃ fourth ∈ (Text.lines display)[3]?, shown ++ [c] <+: fourth.toList) ∧
    ∃ fifth ∈ (Text.lines display)[4]?, fifth.toList.idxOf '^' = shown.length

instance (display : String) (shown : List Char) (c : Char) :
    Decidable (CaretPointsAt display shown c) :=
  inferInstanceAs (Decidable (_ ∧ _))

/-- The first character behind `lead` is shown unless there is only white space up to the end. -/
theorem isPrefix_trimEnd_iff {lead rest : List Char} {c : Char} (noNewline : c ≠ '\n') :
    lead ++ [c] <+: trimEnd (lead ++ c :: rest) ++ ['\n'] ↔
      ∃ other ∈ c :: rest, isWhitespace other = false := by
  by_cases white : ∀ other ∈ c :: rest, isWhitespace other = true
  · refine iff_of_false (fun inFront => ?_) (fun ⟨other, member, visible⟩ => ?_)
    · -- then no more than `lead` is shown, and a newline behind it
      rw [trimEnd_append, if_pos (trimEnd_eq_nil_iff.mpr white)] at inFront
      have shorter := (trimEnd_isPrefix lead).length_le
      have longer := inFront.length_le
      simp only [List.length_append, List.length_singleton] at longer
      have whole := (trimEnd_isPrefix lead).eq_of_length (by omega)
      rw [whole, List.prefix_append_right_inj] at inFront
      exact noNewline (List.singleton_inj.mp (inFront.eq_of_length rfl))
    · rw [white other member] at visible
      cases visible
  · have some_left : trimEnd (c :: rest) ≠ [] := fun empty => white (trimEnd_eq_nil_iff.mp empty)
    rw [trimEnd_append, if_neg some_left, List.append_assoc, List.prefix_append_right_inj]
    refine iff_of_true ?_ (by simpa only [not_forall, exists_prop, Bool.not_eq_true] using white)
    obtain ⟨first, others, kept⟩ := List.exists_cons_of_ne_nil some_left
    obtain ⟨behind, split⟩ := trimEnd_isPrefix (c :: rest)
    rw [kept, List.cons_append, List.cons.injEq] at split
    rw [kept, split.1]
    exact ⟨others ++ ['\n'], rfl⟩

/-- In front of the caret, there are the margin and the dashes. -/
theorem idxOf_caret (number : String) (dashes : Nat) :
    (String.ofList (List.replicate (number.length + 1) ' ') ++ "|" ++ " " ++
      String.ofList (List.replicate dashes '-') ++ "^" ++ "\n").toList.idxOf '^' =
        (number ++ " | ").toList.length + dashes := by
  have noCaret : '^' ∉ List.replicate (number.length + 1) ' ' ++ '|' :: ' ' ::
      List.replicate dashes '-' := by
    simp [List.mem_replicate]
  have spelled : (String.ofList (List.replicate (number.length + 1) ' ') ++ "|" ++ " " ++
      String.ofList (List.replicate dashes '-') ++ "^" ++ "\n").toList =
        (List.replicate (number.length + 1) ' ' ++ '|' :: ' ' :: List.replicate dashes '-') ++
          ['^', '\n'] := by
    simp
  rw [spelled, List.idxOf_append_of_notMem noCaret, List.idxOf_cons_self]
  simp [← String.length_toList]
  omega

/-- Of a line that is shown from `lead` on, with a caret behind as many columns as `lead` has bytes,
the first character behind `lead` is pointed at if `lead` is as long in characters and is not all
that is left of the line. -/
theorem caretPointsAt_iff_of_lines {display : String} {gutter lead rest : List Char} {c : Char}
    {fourth fifth : String} (isFourth : (Text.lines display)[3]? = some fourth)
    (isFifth : (Text.lines display)[4]? = some fifth)
    (written : fourth.toList = gutter ++ (trimEnd (lead ++ c :: rest) ++ ['\n']))
    (column : fifth.toList.idxOf '^' = gutter.length + byteLength lead) (noNewline : c ≠ '\n') :
    CaretPointsAt display (gutter ++ lead) c ↔
      (∀ other ∈ lead, other.utf8Size = 1) ∧
        ∃ other ∈ c :: rest, isWhitespace other = false := by
  have sameColumn : gutter.length + byteLength lead = (gutter ++ lead).length ↔
      ∀ other ∈ lead, other.utf8Size = 1 := by
    rw [List.length_append, Nat.add_left_cancel_iff, byteLength_eq_length_iff]
  have shown : gutter ++ lead ++ [c] <+: gutter ++ (trimEnd (lead ++ c :: rest) ++ ['\n']) ↔
      ∃ other ∈ c :: rest, isWhitespace other = false := by
    rw [List.append_assoc, List.prefix_append_right_inj]
    exact isPrefix_trimEnd_iff noNewline
  rw [CaretPointsAt, isFourth, isFifth]
  simp only [Option.mem_def, Option.some.injEq, exists_eq_left', written, column]
  rw [sameColumn, shown, and_comm]

/-- The caret stands behind as many columns as the text in front of the offending token has bytes.
So it points at the first character of the token exactly if each character in front of it takes one
byte, and if the token is shown, which it is unless there is only white space from there to the end
of the line. -/
theorem caret_points_at_iff {source file : String} {d : Diagnostic} {token : Token}
    (fits : source.utf8ByteSize ≤ Position.limit) (member : d ∈ (parse source).2)
    (inText : token ∈ tokenize source) (place : token.position = d.position)
    (inner : token.kind ≠ .endOfInput) (plainFile : '\n' ∉ file.toList) :
    ∃ before indent lead c more behind,
      token.literal.toList = c :: more ∧
      OnLine source.toList d.position.offset before indent lead (c :: more ++ behind) ∧
      let gutter := (toString (1 + before.count '\n') ++ " | ").toList
      (∃ fifth ∈ (Text.lines (d.display source file))[4]?,
        fifth.toList.idxOf '^' = gutter.length + byteLength lead) ∧
      (CaretPointsAt (d.display source file) (gutter ++ lead) c ↔
        (∀ other ∈ lead, other.utf8Size = 1) ∧
          ∃ other ∈ c :: more ++ behind.takeWhile (· != '\n'), isWhitespace other = false) := by
  have inScan : token ∈ scan 0 source.toList := by
    rw [tokenize, List.mem_append, List.mem_singleton] at inText
    exact inText.resolve_right fun last => inner (by rw [last]; rfl)
  obtain ⟨before, indent, lead, behind, onLine⟩ := exists_token_onLine fits inScan
  obtain ⟨c, more, text, -⟩ := (formed_of_mem_scan inScan).exists_cons
  have literal : token.literal.toList = c :: more := text
  rw [place, literal] at onLine
  have plain : ∀ other ∈ c :: more, (other != '\n') = true := by
    intro other inLiteral
    rw [bne_iff_ne]
    rintro rfl
    exact newline_not_mem_literal inScan (literal ▸ inLiteral)
  have displayed := lines_display member plainFile onLine
  rw [Diagnostic.displayLines_of_onLine onLine, List.takeWhile_append_of_pos plain] at displayed
  refine ⟨before, indent, lead, c, more, behind, literal, onLine, ?_⟩
  intro gutter
  have fourth : ∃ fourth, (Text.lines (d.display source file))[3]? = some fourth ∧
      fourth.toList = gutter ++
        (trimEnd (lead ++ (c :: more ++ behind.takeWhile (· != '\n'))) ++ ['\n']) := by
    refine ⟨_, by rw [displayed]; rfl, ?_⟩
    rw [String.toList_append, String.toList_append, String.toList_ofList, List.append_assoc]
    rfl
  have fifth : ∃ fifth, (Text.lines (d.display source file))[4]? = some fifth ∧
      fifth.toList.idxOf '^' = gutter.length + byteLength lead :=
    ⟨_, by rw [displayed]; rfl, idxOf_caret _ _⟩
  obtain ⟨sourceLine, isFourth, written⟩ := fourth
  obtain ⟨caretLine, isFifth, column⟩ := fifth
  exact ⟨⟨caretLine, isFifth, column⟩, caretPointsAt_iff_of_lines isFourth isFifth written column
    (bne_iff_ne.mp (plain c List.mem_cons_self))⟩

/-- The token is on the second line, so the characters of two bytes on the first do not matter. -/
theorem caret_points_at_iff_behind_tab :
    let source := "éé;\n\tlet x @; é"
    let d : Diagnostic := ⟨.unexpectedToken .assignment .illegal, ⟨13⟩⟩
    let token : Token := ⟨.illegal, "@", ⟨13⟩⟩
    source.utf8ByteSize ≤ Position.limit ∧ d ∈ (parse source).2 ∧ token ∈ tokenize source ∧
      token.position = d.position ∧ token.kind ≠ .endOfInput ∧ '\n' ∉ "in".toList ∧
      CaretPointsAt (d.display source "in") "2 | let x ".toList '@' ∧
      ∃ before indent lead c more behind,
        token.literal.toList = c :: more ∧
        OnLine source.toList d.position.offset before indent lead (c :: more ++ behind) ∧
        let gutter := (toString (1 + before.count '\n') ++ " | ").toList
        (∃ fifth ∈ (Text.lines (d.display source "in"))[4]?,
          fifth.toList.idxOf '^' = gutter.length + byteLength lead) ∧
        (CaretPointsAt (d.display source "in") (gutter ++ lead) c ↔
          (∀ other ∈ lead, other.utf8Size = 1) ∧
            ∃ other ∈ c :: more ++ behind.takeWhile (· != '\n'),
              isWhitespace other = false) := by
  intro source d token
  have fits : source.utf8ByteSize ≤ Position.limit := by decide
  have member : d ∈ (parse source).2 := by decide +kernel
  have inText : token ∈ tokenize source := by decide +kernel
  have inner : token.kind ≠ .endOfInput := by decide
  have plainFile : '\n' ∉ "in".toList := by decide
  exact ⟨fits, member, inText, rfl, inner, plainFile, by decide +kernel,
    caret_points_at_iff fits member inText rfl inner plainFile⟩

/-- A character of two bytes on the same line moves the caret one column beyond the token. -/
theorem caret_beyond_character_behind_two_bytes :
    let source := "é; @"
    let d : Diagnostic := ⟨.illegalToken "@", ⟨4⟩⟩
    d ∈ (parse source).2 ∧ ⟨.illegal, "@", ⟨4⟩⟩ ∈ tokenize source ∧
      OnLine source.toList d.position.offset [] [] "é; ".toList ['@'] ∧
      ¬ CaretPointsAt (d.display source "in") "1 | é; ".toList '@' := by
  intro source d
  have onLine : OnLine source.toList d.position.offset [] [] "é; ".toList ['@'] :=
    ⟨by decide, by decide, by decide, List.forall_mem_nil _, by decide, by simp [isIndent]⟩
  exact ⟨by decide +kernel, by decide +kernel, onLine, by decide +kernel⟩

end Frontend
