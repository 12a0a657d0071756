import Frontend.Diagnostic.Display
import Frontend.Proofs.Blame
import Frontend.Proofs.Decomposition
import Frontend.Proofs.Places
import Mathlib.Data.List.DropRight

/-!
# The lines of a display

A diagnostic is displayed in five lines, and none of them has a newline of its own. For a place that
is not inside the indentation of its line (`OnLine`), the line is shown from the end of its
indentation on, and there are as many dashes in front of the caret as there are bytes from there to
the place (`Diagnostic.displayLines_of_onLine`).
-/
namespace Frontend

open Text

/-! ### Trimming -/

namespace Text

theorem trimEnd_eq_nil_iff {text : List Char} :
    trimEnd text = [] ↔ ∀ c ∈ text, isWhitespace c = true :=
  List.rdropWhile_eq_nil_iff

theorem trimEnd_isPrefix (text : List Char) : trimEnd text <+: text :=
  List.rdropWhile_prefix isWhitespace text

/-- A text is trimmed at its end, and in front of that only where the end is all white space. -/
theorem trimEnd_append (text more : List Char) :
    trimEnd (text ++ more) = if trimEnd more = [] then trimEnd text else text ++ trimEnd more := by
  rw [trimEnd, List.reverse_append, List.dropWhile_append]
  simp only [trimEnd, List.reverse_eq_nil_iff, List.isEmpty_iff]
  split
  · rfl
  · rw [List.reverse_append, List.reverse_reverse]

theorem length_le_byteLength (text : List Char) : text.length ≤ byteLength text := by
  induction text with
  | nil => exact Nat.le_refl _
  | cons c text ih =>
    have positive := c.utf8Size_pos
    rw [List.length_cons, byteLength_cons]
    omega

/-- A text has as many bytes as characters exactly if each of them takes one. -/
theorem byteLength_eq_length_iff {text : List Char} :
    byteLength text = text.length ↔ ∀ c ∈ text, c.utf8Size = 1 := by
  induction text with
  | nil => simp
  | cons c text ih =>
    have positive := c.utf8Size_pos
    have atLeast := length_le_byteLength text
    rw [List.forall_mem_cons, ← ih, List.length_cons, byteLength_cons]
    omega

end Text

theorem utf8Size_of_isIndent {c : Char} (indent : isIndent c = true) : c.utf8Size = 1 := by
  simp only [isIndent, Bool.or_eq_true, beq_iff_eq] at indent
  rcases indent with rfl | rfl <;> decide

/-! ### A place on its line -/

/-- The text in front of an offset ends in a line that begins with `indent` and then `lead`, and the
text goes on `behind` the offset. All of the indentation is in front of the offset. -/
structure OnLine (text : List Char) (offset : Nat) (before indent lead behind : List Char) :
    Prop where
  split : text = before ++ (indent ++ (lead ++ behind))
  offset : offset = byteLength before + (byteLength indent + byteLength lead)
  begins : Terminated '\n' before
  indented : ∀ c ∈ indent, isIndent c = true
  plain : '\n' ∉ lead
  unindented : ∀ c ∈ (lead ++ behind).head?, isIndent c = false

theorem exists_onLine {text head behind : List Char} (split : text = head ++ behind)
    (unindented : ∀ c ∈ behind.head?, isIndent c = false) :
    ∃ before indent lead, OnLine text (byteLength head) before indent lead behind := by
  obtain ⟨before, line, rfl, begins, plain⟩ := exists_last_line head
  refine ⟨before, line.takeWhile isIndent, line.dropWhile isIndent, ?_, ?_, begins, ?_, ?_, ?_⟩
  · rw [← List.append_assoc (line.takeWhile isIndent), List.takeWhile_append_dropWhile,
      ← List.append_assoc, split]
  · rw [← byteLength_append (line.takeWhile isIndent), List.takeWhile_append_dropWhile,
      byteLength_append]
  · exact fun c member => List.all_eq_true.mp List.all_takeWhile c member
  · exact fun member => plain ((List.dropWhile_suffix _).mem member)
  · intro c first
    cases rest : line.dropWhile isIndent with
    | nil => exact unindented c (by simpa [rest] using first)
    | cons d more =>
      have stopped := List.head?_dropWhile_not isIndent line
      rw [rest, List.head?_cons] at stopped
      obtain rfl : d = c := by simpa [rest] using first
      simpa using stopped

namespace OnLine

variable {text before indent lead behind : List Char} {offset : Nat}

theorem lineAround (onLine : OnLine text offset before indent lead behind) :
    LineAround text offset before (indent ++ (lead ++ behind.takeWhile (· != '\n')))
      (behind.dropWhile (· != '\n')) := by
  obtain ⟨rfl, rfl, begins, indented, plain, -⟩ := onLine
  have noIndent : '\n' ∉ indent := fun member => absurd (indented _ member) (by decide)
  have noRest : '\n' ∉ behind.takeWhile (· != '\n') := fun member => by
    simpa using List.mem_takeWhile_imp member
  refine ⟨?_, begins, ?_, ?_, Nat.le_add_right _ _, .inl ?_⟩
  · rw [List.append_assoc, List.append_assoc, List.takeWhile_append_dropWhile]
  · simp only [List.mem_append, not_or]
    exact ⟨noIndent, plain, noRest⟩
  · intro next first
    have stopped := List.head?_dropWhile_not (· != '\n') behind
    rw [Option.mem_def.mp first] at stopped
    simpa using stopped
  · simp only [byteLength_append]
    omega

/-- The line has as much text in front of its newline as there is, and begins as that does. -/
theorem head?_line (onLine : OnLine text offset before indent lead behind) :
    ∀ c ∈ (lead ++ (behind.takeWhile (· != '\n') ++
      (behind.dropWhile (· != '\n')).take 1)).head?, isIndent c = false := by
  have same : (behind.takeWhile (· != '\n') ++ (behind.dropWhile (· != '\n')).take 1).head? =
      behind.head? := by
    rw [List.head?_append, List.head?_take, if_neg Nat.one_ne_zero, ← List.head?_append,
      List.takeWhile_append_dropWhile]
  have unindented := onLine.unindented
  rwa [List.head?_append, ← same, ← List.head?_append] at unindented

/-- The newline of the line is white space, and so trimmed off. -/
theorem trimEnd_line (onLine : OnLine text offset before indent lead behind) :
    trimEnd (lead ++ (behind.takeWhile (· != '\n') ++
      (behind.dropWhile (· != '\n')).take 1)) =
        trimEnd (lead ++ behind.takeWhile (· != '\n')) := by
  rw [← List.append_assoc, trimEnd_append, if_pos]
  rw [trimEnd_eq_nil_iff]
  intro c member
  rw [List.take_one] at member
  rw [onLine.lineAround.ends c (Option.mem_toList.mp member)]
  decide

end OnLine

/-- Indentation goes on up to the first character that is none. -/
theorem span_isIndent {indent rest : List Char} (indented : ∀ c ∈ indent, isIndent c = true)
    (unindented : ∀ c ∈ rest.head?, isIndent c = false) :
    (indent ++ rest).takeWhile isIndent = indent ∧ (indent ++ rest).dropWhile isIndent = rest := by
  rw [List.takeWhile_append_of_pos indented, List.dropWhile_append_of_pos indented]
  cases rest with
  | nil => exact ⟨List.append_nil indent, rfl⟩
  | cons c rest =>
    have stops : ¬ isIndent c = true := by rw [unindented c rfl]; exact Bool.false_ne_true
    rw [List.takeWhile_cons_of_neg stops, List.dropWhile_cons_of_neg stops]
    exact ⟨List.append_nil indent, rfl⟩

/-! ### Tokens on their lines -/

theorem Lexeme.Formed.not_isLayout {lexeme : Lexeme} (formed : lexeme.Formed) :
    ∀ c ∈ lexeme.text, isLayout c = false := by
  intro c member
  rw [← Bool.not_eq_true]
  intro layout
  cases formed with
  | pair paired =>
    obtain ⟨-, ⟨rfl, -⟩ | ⟨rfl, -⟩⟩ := Kind.ofPair?_eq_some_iff.mp paired
    · rcases List.mem_pair.mp member with rfl | rfl <;> exact absurd layout (by decide)
    · rcases List.mem_pair.mp member with rfl | rfl <;> exact absurd layout (by decide)
  | word _ letters =>
    have letter := letters c member
    rw [isLetter_of_isLayout layout] at letter
    cases letter
  | integer _ digits =>
    have digit := digits c member
    rw [isDigit_of_isLayout layout] at digit
    cases digit
  | single noLayout =>
    rw [List.mem_singleton.mp member, noLayout] at layout
    cases layout

theorem newline_not_mem_literal {offset : Nat} {text : List Char} {token : Token}
    (member : token ∈ scan offset text) : '\n' ∉ token.literal.toList := fun newline =>
  absurd ((formed_of_mem_scan member).not_isLayout '\n' newline) (by decide)

/-- A token stands in the text where its position says. -/
theorem exists_standing {source : String} (fits : source.utf8ByteSize ≤ Position.limit)
    {token : Token} (member : token ∈ scan 0 source.toList) :
    ∃ head behind, source.toList = head ++ (token.literal.toList ++ behind) ∧
      token.position.offset = byteLength head := by
  obtain ⟨pieces, closing, text, cut⟩ := exists_cut 0 source.toList
  have scanned := cut.scan_eq
  rw [← text] at scanned
  rw [scanned] at member
  obtain ⟨piece, inPieces, rfl⟩ := List.mem_map.mp member
  obtain ⟨before, after, rfl⟩ := List.append_of_mem inPieces
  rw [← byteLength_toList, text, byteLength_append] at fits
  have stands := cut.standsBetween (by omega)
  refine ⟨before.flatMap Piece.text ++ piece.gap, after.flatMap Piece.text ++ closing, ?_,
    stands.position⟩
  rw [text, List.flatMap_append, List.flatMap_cons, Piece.text]
  simp only [List.append_assoc]

theorem isIndent_of_not_isLayout {c : Char} (noLayout : isLayout c = false) :
    isIndent c = false := by
  simp only [isLayout, Bool.or_eq_false_iff] at noLayout
  rw [isIndent, noLayout.1.1.1, noLayout.1.1.2]
  rfl

/-- No token is inside the indentation of its line. -/
theorem exists_token_onLine {source : String} (fits : source.utf8ByteSize ≤ Position.limit)
    {token : Token} (member : token ∈ scan 0 source.toList) :
    ∃ before indent lead behind, OnLine source.toList token.position.offset before indent lead
      (token.literal.toList ++ behind) := by
  obtain ⟨head, behind, split, position⟩ := exists_standing fits member
  obtain ⟨c, rest, text, noLayout⟩ := (formed_of_mem_scan member).exists_cons
  have literal : token.literal.toList = c :: rest := text
  have unindented : ∀ first ∈ (token.literal.toList ++ behind).head?, isIndent first = false := by
    intro first isFirst
    rw [literal] at isFirst
    obtain rfl := Option.some.inj isFirst
    exact isIndent_of_not_isLayout noLayout
  obtain ⟨before, indent, lead, onLine⟩ := exists_onLine split unindented
  exact ⟨before, indent, lead, behind, position ▸ onLine⟩

/-- Where a diagnostic is for a token, this is not inside the indentation of its line, and it begins
with no newline. Where a diagnostic is for the end of the text, nothing follows. -/
theorem exists_diagnostic_onLine {source : String} (fits : source.utf8ByteSize ≤ Position.limit)
    {d : Diagnostic} (member : d ∈ (parse source).2) :
    ∃ before indent lead behind, OnLine source.toList d.position.offset before indent lead behind ∧
      (d.IsAtEnd ∧ behind = [] ∨ ¬ d.IsAtEnd ∧ ∃ c ∈ behind.head?, c ≠ '\n') := by
  obtain ⟨_, _, found, gap, ahead, -, rfl⟩ := exists_breaks_of_mem_diagnostics member
  rw [Gap.position_diagnostic, Gap.isAtEnd_diagnostic_iff]
  cases found with
  | nil =>
    obtain ⟨before, indent, lead, onLine⟩ :=
      exists_onLine (List.append_nil source.toList).symm nofun
    have finish : (Window.ofSource source).final.position = ⟨byteLength source.toList⟩ := by
      rw [← byteLength_toList] at fits
      rw [Window.final, Window.ofSource, Window.ofText, Nat.zero_add, Position.ofOffset_of_le fits]
      rfl
    rw [List.headD_nil, finish]
    exact ⟨before, indent, lead, [], onLine, .inl ⟨rfl, rfl⟩⟩
  | cons token found =>
    have inAhead : token ∈ (Window.ofSource source).ahead := by simp [ahead]
    have inScan : token ∈ scan 0 source.toList := inAhead
    obtain ⟨before, indent, lead, behind, onLine⟩ := exists_token_onLine fits inScan
    obtain ⟨c, more, text, noLayout⟩ := (formed_of_mem_scan inScan).exists_cons
    have literal : token.literal.toList = c :: more := text
    have first : c ∈ (token.literal.toList ++ behind).head? := by
      rw [literal]
      rfl
    refine ⟨before, indent, lead, _, onLine,
      .inr ⟨kind_ne_endOfInput_of_mem_scan inScan, c, first, ?_⟩⟩
    rintro rfl
    exact absurd noLayout (by decide)

/-! ### The five lines -/

namespace Diagnostic

section

variable {d : Diagnostic} {source : String} {before indent lead behind : List Char}

/-- From the end of the indentation on, the bytes up to the place are counted. -/
theorem caretColumn_of_onLine
    (onLine : OnLine source.toList d.position.offset before indent lead behind) :
    d.caretColumn source = byteLength lead := by
  have place := onLine.lineAround.find_eq
  rw [List.append_assoc, List.append_assoc] at place
  obtain ⟨taken, -⟩ := span_isIndent onLine.indented onLine.head?_line
  have width : byteLength indent = indent.length :=
    byteLength_eq_length_iff.mpr fun c member => utf8Size_of_isIndent (onLine.indented c member)
  simp only [caretColumn, place, String.toList_ofList, taken]
  rw [onLine.offset, onLine.split]
  simp only [byteLength_append]
  omega

/-- The source line is shown with its number, and below it the caret. -/
theorem displayLines_of_onLine
    (onLine : OnLine source.toList d.position.offset before indent lead behind) (file : String) :
    let number := toString (1 + before.count '\n')
    let margin := String.ofList (List.replicate (number.length + 1) ' ') ++ "|"
    d.displayLines source file =
      [d.headline, "-> " ++ file, margin,
        number ++ " | " ++ String.ofList (trimEnd (lead ++ behind.takeWhile (· != '\n'))),
        margin ++ " " ++ String.ofList (List.replicate (byteLength lead) '-') ++ "^"] := by
  intro number margin
  have place := onLine.lineAround.find_eq
  rw [List.append_assoc, List.append_assoc] at place
  obtain ⟨-, dropped⟩ := span_isIndent onLine.indented onLine.head?_line
  have trimmed := onLine.trimEnd_line
  simp only [displayLines, place, String.toList_ofList, dropped, trimmed,
    caretColumn_of_onLine onLine]
  rfl

end

end Diagnostic

/-! ### Nothing that is displayed has a newline -/

theorem newline_not_mem_append {s t : String} (first : '\n' ∉ s.toList) (second : '\n' ∉ t.toList) :
    '\n' ∉ (s ++ t).toList := by
  rw [String.toList_append, List.mem_append, not_or]
  exact ⟨first, second⟩

theorem Kind.newline_not_mem_name (kind : Kind) : '\n' ∉ kind.name.toList := by
  cases kind <;> decide

theorem newline_not_mem_toString (n : Nat) : '\n' ∉ (toString n).toList := by
  intro member
  have digits : (toString n).toList = Nat.toDigits 10 n := by simp [toString]
  rw [digits] at member
  exact absurd (Nat.isDigit_of_mem_toDigits (by decide) (by decide) member) (by decide)

namespace Cause

/-- The literal of an integer is the only text of the source that a tip quotes. -/
theorem newline_not_mem_tip {cause : Cause} {tip : String} (given : cause.tip? = some tip)
    (plain : ∀ literal, cause = .integerOutOfRange literal → '\n' ∉ literal.toList) :
    '\n' ∉ tip.toList := by
  cases cause with
  | illegalToken literal => cases given
  | unexpectedToken expected found =>
    cases given
    have opening := newline_not_mem_append (s := "expected next token to be ") (by decide)
      expected.newline_not_mem_name
    have middle := newline_not_mem_append (t := ", got ") opening (by decide)
    exact newline_not_mem_append (newline_not_mem_append middle found.newline_not_mem_name)
      (by decide)
  | missingOperand kind =>
    cases given
    have opening := newline_not_mem_append (s := "`") (by decide) kind.newline_not_mem_name
    exact newline_not_mem_append opening (by decide)
  | integerOutOfRange literal =>
    cases given
    have opening := newline_not_mem_append (s := "Invalid integer: `") (by decide)
      (plain literal rfl)
    exact newline_not_mem_append opening (by decide)

end Cause

namespace Diagnostic

theorem newline_not_mem_headline {d : Diagnostic}
    (plain : ∀ literal, d.cause = .integerOutOfRange literal → '\n' ∉ literal.toList) :
    '\n' ∉ d.headline.toList := by
  have name : '\n' ∉ d.cause.name.toList := by
    cases d.cause <;> (rw [Cause.name]; decide)
  have opening := newline_not_mem_append (s := "Error: ") (by decide) name
  rw [headline]
  split
  · exact opening
  next tip given =>
    have quoted := Cause.newline_not_mem_tip given plain
    exact newline_not_mem_append
      (newline_not_mem_append (newline_not_mem_append opening (by decide)) quoted) (by decide)

end Diagnostic

/-- Texts without newlines, each written with one behind it, are the lines of what is written. -/
theorem lines_join_map_newline {entries : List String}
    (plain : ∀ entry ∈ entries, '\n' ∉ entry.toList) :
    Text.lines (String.join (entries.map (· ++ "\n"))) = entries.map (· ++ "\n") := by
  have written : (String.join (entries.map (· ++ "\n"))).toList =
      entries.flatMap fun entry => entry.toList ++ ['\n'] := by
    rw [String.toList_join, List.flatMap_map]
    exact List.flatMap_congr fun entry _ => String.toList_append
  rw [Text.lines, written, splitAfter_flatMap_concat plain, List.map_map]
  refine List.map_congr_left fun entry _ => ?_
  rw [Function.comp_apply, String.ofList_append, String.ofList_toList]

theorem newline_not_mem_headline_of_mem {source : String} {d : Diagnostic}
    (member : d ∈ (parse source).2) : '\n' ∉ d.headline.toList := by
  obtain ⟨earlier, before, found, gap, ahead, breaks, rfl⟩ :=
    exists_breaks_of_mem_diagnostics member
  apply Diagnostic.newline_not_mem_headline
  intro literal cause
  have describes :
      (gap.diagnostic (found.headD (Window.ofSource source).final)).cause.Describes _ _ :=
    breaks.describes [] (Window.ofSource source).finish
  rw [cause] at describes
  obtain ⟨integer, rfl, -⟩ := describes
  cases found with
  | nil => cases integer
  | cons token found =>
    have member : token ∈ (Window.ofSource source).ahead := by rw [ahead]; simp
    exact newline_not_mem_literal member

/-- The display of a diagnostic, line by line. -/
theorem lines_display {source file : String} {d : Diagnostic} (member : d ∈ (parse source).2)
    (plainFile : '\n' ∉ file.toList) {before indent lead behind : List Char}
    (onLine : OnLine source.toList d.position.offset before indent lead behind) :
    Text.lines (d.display source file) = (d.displayLines source file).map (· ++ "\n") := by
  rw [Diagnostic.display]
  apply lines_join_map_newline
  rw [Diagnostic.displayLines_of_onLine onLine]
  have number := newline_not_mem_toString (1 + before.count '\n')
  have margin : '\n' ∉ (String.ofList
      (List.replicate ((toString (1 + before.count '\n')).length + 1) ' ') ++ "|").toList :=
    newline_not_mem_append (by simp [List.mem_replicate]) (by decide)
  have shown : '\n' ∉ trimEnd (lead ++ behind.takeWhile (· != '\n')) := by
    intro newline
    rcases List.mem_append.mp ((trimEnd_isPrefix _).mem newline) with inLead | inRest
    · exact onLine.plain inLead
    · simpa using List.mem_takeWhile_imp inRest
  have dashes : '\n' ∉ (String.ofList (List.replicate (byteLength lead) '-')).toList := by
    simp [List.mem_replicate]
  intro entry inLines
  simp only [List.mem_cons, List.not_mem_nil, or_false] at inLines
  rcases inLines with rfl | rfl | rfl | rfl | rfl
  · exact newline_not_mem_headline_of_mem member
  · exact newline_not_mem_append (by decide) plainFile
  · exact margin
  · exact newline_not_mem_append (newline_not_mem_append number (by decide))
      (by rwa [String.toList_ofList])
  · exact newline_not_mem_append
      (newline_not_mem_append (newline_not_mem_append margin (by decide)) dashes) (by decide)

end Frontend
