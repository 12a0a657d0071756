import Frontend.Proofs.DisplayLines

/-!
# How wide the row of a caret is

The row of a caret has a dash for each byte of the line in front of the place, so a diagnostic is
displayed in every text that is shorter than the widest field (`canDisplay_of_utf8ByteSize_lt`). In
longer texts it depends on how the lines are filled: two tokens with enough blanks between them have
a diagnostic that is not displayed (`canDisplay_farApart_iff`).
-/
namespace Frontend

open Text

namespace Diagnostic

theorem canDisplay_iff {d : Diagnostic} {source : String} :
    d.canDisplay source = true ↔ d.caretColumn source + 1 ≤ widestField :=
  decide_eq_true_iff

theorem caretColumn_le (d : Diagnostic) (source : String) :
    d.caretColumn source ≤ source.utf8ByteSize :=
  (Nat.sub_le _ _).trans (offset_find_le source _)

/-- A short text has no place that is too far from the start of its line. -/
theorem canDisplay_of_utf8ByteSize_lt {source : String} (short : source.utf8ByteSize < widestField)
    (d : Diagnostic) : d.canDisplay source = true :=
  canDisplay_iff.mpr (Nat.lt_of_le_of_lt (d.caretColumn_le source) short)

end Diagnostic

/-! ### Tokens that are far apart -/

/-- A line with a sound statement and an illegal character, and blanks between them. -/
def farApart (blanks : Nat) : String :=
  String.ofList ('1' :: List.replicate blanks ' ' ++ ['@', '\n'])

variable {blanks : Nat}

theorem toList_farApart (blanks : Nat) :
    (farApart blanks).toList = '1' :: List.replicate blanks ' ' ++ ['@', '\n'] :=
  String.toList_ofList

theorem byteLength_one_blanks (blanks : Nat) :
    byteLength ('1' :: List.replicate blanks ' ') = blanks + 1 := by
  have width : byteLength ('1' :: List.replicate blanks ' ') =
      ('1' :: List.replicate blanks ' ').length :=
    byteLength_eq_length_iff.mpr
      (List.forall_mem_cons.mpr ⟨rfl, fun _ member => List.eq_of_mem_replicate member ▸ rfl⟩)
  rw [width, List.length_cons, List.length_replicate]

theorem utf8ByteSize_farApart (blanks : Nat) : (farApart blanks).utf8ByteSize = blanks + 3 := by
  rw [← byteLength_toList, toList_farApart, byteLength_append, byteLength_one_blanks]
  rfl

theorem lines_farApart (blanks : Nat) : lines (farApart blanks) = [farApart blanks] := by
  have plain : '\n' ∉ '1' :: List.replicate blanks ' ' ++ ['@'] := by simp
  have cut := splitAfter_piece plain []
  rw [List.append_assoc] at cut
  rw [lines, toList_farApart, farApart]
  exact congrArg (List.map String.ofList) cut

theorem terminated_farApart (blanks : Nat) :
    Terminated '\n'.toUInt8 (farApart blanks).toByteArray.data.toList := by
  rw [← bytesOf_toList, toList_farApart]
  refine terminated_bytesOf fun last isLast => ?_
  rw [List.getLast?_append] at isLast
  exact (Option.some.inj isLast).symm

theorem scan_farApart (blanks : Nat) :
    scan 0 (farApart blanks).toList =
      [⟨.integer, "1", ⟨0⟩⟩, ⟨.illegal, "@", Position.ofOffset (blanks + 1)⟩] := by
  have layout : ∀ c ∈ List.replicate blanks ' ', isLayout c = true :=
    fun _ member => List.eq_of_mem_replicate member ▸ rfl
  have number : Lexeme.Formed ⟨.integer, ['1']⟩ :=
    .integer (List.cons_ne_nil _ _) (List.forall_mem_singleton.mpr rfl)
  have ends : Lexeme.EndsBefore ⟨.integer, ['1']⟩
      (List.replicate blanks ' ' ++ (['@'] ++ ['\n'])) := by
    cases blanks <;> rintro next ⟨⟩ <;> exact Kind.not_goesOnWith rfl rfl (by decide)
  have illegal : Lexeme.Formed ⟨.illegal, ['@']⟩ :=
    .single (c := '@') (by decide) (by decide) (by decide)
  have closes : Lexeme.EndsBefore ⟨.illegal, ['@']⟩ ['\n'] := by
    rintro next ⟨⟩
    exact Kind.not_goesOnWith rfl rfl (by decide)
  have text : (farApart blanks).toList =
      ['1'] ++ (List.replicate blanks ' ' ++ (['@'] ++ ['\n'])) := toList_farApart blanks
  have offset : 0 + byteLength ['1'] + byteLength (List.replicate blanks ' ') = blanks + 1 := by
    rw [← byteLength_one_blanks, Nat.zero_add, ← byteLength_append]
    rfl
  rw [text, scan_lexeme number ends, scan_gap layout, scan_lexeme illegal closes,
    scan_layout rfl, scan_nil, offset]
  rfl

theorem diagnostics_farApart (fits : blanks + 3 ≤ Position.limit) :
    (parse (farApart blanks)).2 = [⟨.illegalToken "@", ⟨blanks + 1⟩⟩] := by
  -- the number is a statement that ends without a semicolon, and the symbol a broken one
  have items : itemsOf (farApart blanks) =
      [.ok (.bare ⟨.integer, "1", ⟨0⟩⟩ (.integer ⟨.integer, "1", ⟨0⟩⟩ 1)),
        .error ⟨.illegalToken "@", ⟨blanks + 1⟩⟩] := by
    refine itemsOf_eq_of_account ?_ (by rwa [utf8ByteSize_farApart])
    rw [Window.ofSource, Window.ofText, scan_farApart, Position.ofOffset_of_le (by omega)]
    have spelled := @Statement.SpelledBy.bare ⟨.integer, "1", ⟨0⟩⟩
      (.integer ⟨.integer, "1", ⟨0⟩⟩ 1) rfl ⟨rfl, by decide⟩
    have breaks : Breaks [⟨.illegal, "@", ⟨blanks + 1⟩⟩] .operand
        [⟨.illegal, "@", ⟨blanks + 1⟩⟩] :=
      .operand (.bare (by simp) (by simp)) rfl
    exact .sound spelled trivial (.unclosed (by simp; decide)) (.broken breaks .nil)
  rw [parse_eq, items]
  rfl

theorem caretColumn_farApart {d : Diagnostic} (place : d.position = ⟨blanks + 1⟩) :
    d.caretColumn (farApart blanks) = blanks + 1 := by
  -- nothing stands before the line, and it has no indentation
  have onLine : OnLine (farApart blanks).toList d.position.offset [] []
      ('1' :: List.replicate blanks ' ') ['@', '\n'] := by
    refine ⟨toList_farApart blanks, ?_, nofun, nofun, by simp, ?_⟩
    · rw [place, byteLength_one_blanks, byteLength_nil, Nat.zero_add, Nat.zero_add]
    · rintro c ⟨⟩
      rfl
  rw [Diagnostic.caretColumn_of_onLine onLine, byteLength_one_blanks]

/-- The diagnostic is displayed exactly if the two tokens are near enough. -/
theorem canDisplay_farApart_iff (fits : blanks + 3 ≤ Position.limit) :
    (∀ d ∈ (parse (farApart blanks)).2, d.canDisplay (farApart blanks) = true) ↔
      blanks + 2 ≤ Diagnostic.widestField := by
  rw [diagnostics_farApart fits, List.forall_mem_singleton, Diagnostic.canDisplay_iff,
    caretColumn_farApart rfl]

end Frontend
