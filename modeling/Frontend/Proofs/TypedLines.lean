import Frontend.Proofs.DisplayBytes
import Frontend.Proofs.LineByLine

/-!
# The line that was typed

The interactive loop answers a broken line by its diagnostics, up to the first that has no display,
and each of them shows the line that was typed, as line number one (`typed_line_shown`). There is one
exception. What breaks off at the end of a line with a newline has its place behind the newline, and
there a second line begins, which is empty.
-/
namespace Frontend

open Text

namespace Text

/-- A piece of a list is not cut any further. -/
theorem splitAfter_of_mem_splitAfter {α : Type} [DecidableEq α] {separator : α} {xs piece : List α}
    (member : piece ∈ splitAfter separator xs) : splitAfter separator piece = [piece] := by
  induction xs using piece_induction separator with
  | nil => cases member
  | piece body rest plain ih =>
    rw [splitAfter_piece plain] at member
    rcases List.mem_cons.mp member with rfl | later
    · exact splitAfter_piece plain []
    · exact ih later
  | last body plain some_left =>
    rw [splitAfter_of_not_mem plain some_left] at member
    rw [List.mem_singleton.mp member, splitAfter_of_not_mem plain some_left]

/-- What is one piece has no separator but at its end. -/
theorem not_mem_dropLast_of_splitAfter {α : Type} [DecidableEq α] {separator : α} {xs : List α}
    (whole : splitAfter separator xs = [xs]) : separator ∉ xs.dropLast := by
  induction xs using piece_induction separator with
  | nil => cases whole
  | piece body rest plain =>
    rw [splitAfter_piece plain, List.cons.injEq] at whole
    rw [← whole.1, List.dropLast_concat]
    exact plain
  | last body plain => exact fun member => plain (List.dropLast_subset body member)

end Text

namespace Session

/-- A line of an input that is a text has no newline but at its end. -/
theorem newline_not_mem_dropLast {input : ByteArray} {line : List UInt8} {source : String}
    (read : line ∈ inputLines input)
    (decoded : String.fromUTF8? line.toByteArray = some source) :
    '\n' ∉ source.toList.dropLast := by
  have bytes : bytesOf source.toList = line := by
    rw [bytesOf_toList, ← fromUTF8?_eq_some_iff.mp decoded, List.toList_data_toByteArray]
  have whole := splitAfter_of_mem_splitAfter read
  rw [← bytes, splitAfter_bytesOf, List.map_eq_singleton_iff] at whole
  obtain ⟨piece, cut, -⟩ := whole
  have same : [piece].flatten = source.toList := cut ▸ flatten_splitAfter '\n' source.toList
  rw [List.flatten_singleton] at same
  exact not_mem_dropLast_of_splitAfter (same ▸ cut)

end Session

/-! ### A text of one line -/

namespace OnLine

variable {text before indent lead behind : List Char} {offset : Nat}

/-- Only the empty line behind a last newline is not the first line. -/
theorem before_eq_nil (onLine : OnLine text offset before indent lead behind)
    (single : '\n' ∉ text.dropLast) (some_left : indent ++ (lead ++ behind) ≠ []) :
    before = [] := by
  rcases onLine.begins.eq_nil_or_concat with empty | ⟨earlier, rfl⟩
  · exact empty
  · -- what is before the line ends in a newline, which is not the last character of the text
    rw [onLine.split, List.dropLast_append_of_ne_nil some_left] at single
    exact absurd (by simp) single

/-- The first line is all of the text, and shown as that. -/
theorem trimEnd_eq (onLine : OnLine text offset [] indent lead behind)
    (single : '\n' ∉ text.dropLast) :
    trimEnd (lead ++ behind.takeWhile (· != '\n')) = trimEnd (text.dropWhile isIndent) := by
  have body : text.dropWhile isIndent = lead ++ behind := by
    rw [onLine.split]
    exact (span_isIndent onLine.indented onLine.unindented).2
  have ending : (behind.dropWhile (· != '\n')).take 1 = behind.dropWhile (· != '\n') := by
    have text_eq : text = indent ++ (lead ++ behind.takeWhile (· != '\n')) ++
        behind.dropWhile (· != '\n') := onLine.lineAround.split.trans (List.nil_append _).symm
    cases rest : behind.dropWhile (· != '\n') with
    | nil => rfl
    | cons next more =>
      obtain rfl := onLine.lineAround.ends next (by rw [rest]; rfl)
      cases more with
      | nil => rfl
      | cons c more =>
        -- then the newline is not at the end of the text
        rw [text_eq, rest] at single
        exact absurd (by simp) single
  rw [body, ← onLine.trimEnd_line, ending, List.takeWhile_append_dropWhile]

/-- Behind a newline, there is nothing on the line of the end of the text. -/
theorem eq_nil_of_getLast? (onLine : OnLine text offset before indent lead [])
    (last : text.getLast? = some '\n') : indent = [] ∧ lead = [] := by
  rw [← List.append_eq_nil_iff]
  by_contra some_left
  have inside : '\n' ∈ indent ++ lead := by
    apply List.mem_of_getLast?
    rwa [onLine.split, List.append_nil, List.getLast?_append_of_ne_nil _ some_left] at last
  rcases List.mem_append.mp inside with inIndent | inLead
  · exact absurd (onLine.indented '\n' inIndent) (by decide)
  · exact onLine.plain inLead

end OnLine

/-- The fourth line of a display. -/
theorem fourth_line_display {source file : String} {d : Diagnostic} (member : d ∈ (parse source).2)
    (plainFile : '\n' ∉ file.toList) {before indent lead behind : List Char}
    (onLine : OnLine source.toList d.position.offset before indent lead behind) :
    (Text.lines (d.display source file))[3]? =
      some (toString (1 + before.count '\n') ++ " | " ++
        String.ofList (trimEnd (lead ++ behind.takeWhile (· != '\n'))) ++ "\n") := by
  rw [lines_display member plainFile onLine, Diagnostic.displayLines_of_onLine onLine]
  rfl

section

variable {source file : String} {d : Diagnostic} (fits : source.utf8ByteSize ≤ Position.limit)
  (single : '\n' ∉ source.toList.dropLast) (member : d ∈ (parse source).2)
  (plainFile : '\n' ∉ file.toList)

include fits single member plainFile

/-- What breaks off behind a newline is shown with the empty line that begins there. -/
theorem fourth_line_behind_newline (atEnd : d.IsAtEnd)
    (newline : source.toList.getLast? = some '\n') :
    (Text.lines (d.display source file))[3]? = some "2 | \n" := by
  obtain ⟨before, indent, lead, behind, onLine, place⟩ := exists_diagnostic_onLine fits member
  obtain ⟨-, rfl⟩ := place.resolve_right fun inner => inner.1 atEnd
  obtain ⟨rfl, rfl⟩ := onLine.eq_nil_of_getLast? newline
  have before_eq : source.toList.dropLast ++ ['\n'] = before := by
    rw [List.dropLast_append_getLast? '\n' newline, onLine.split]
    simp
  have counted : before.count '\n' = 1 := by
    rw [← before_eq, List.count_append, List.count_eq_zero.mpr single]
    decide
  rw [fourth_line_display member plainFile onLine, counted]
  rfl

/-- Otherwise the line itself is shown, as the first one. -/
theorem fourth_line_of_line (inside : ¬ (d.IsAtEnd ∧ source.toList.getLast? = some '\n')) :
    (Text.lines (d.display source file))[3]? =
      some ("1 | " ++ String.ofList (trimEnd (source.toList.dropWhile isIndent)) ++ "\n") := by
  obtain ⟨before, indent, lead, behind, onLine, place⟩ := exists_diagnostic_onLine fits member
  have first : before = [] := by
    rcases place with ⟨atEnd, rfl⟩ | ⟨-, c, found, -⟩
    · rcases onLine.begins.eq_nil_or_concat with empty | ⟨earlier, rfl⟩
      · exact empty
      · -- with nothing on its line, the end would stand behind a newline
        apply onLine.before_eq_nil single
        intro nothing_left
        apply inside
        rw [onLine.split, nothing_left, List.append_nil]
        exact ⟨atEnd, List.getLast?_concat⟩
    · apply onLine.before_eq_nil single
      intro nothing_left
      rw [(List.append_eq_nil_iff.mp (List.append_eq_nil_iff.mp nothing_left).2).2] at found
      cases found
  subst first
  rw [fourth_line_display member plainFile onLine, onLine.trimEnd_eq single]
  rfl

end

namespace Session

/-- Whatever comes of a line, the prompt and the answer to it are written. -/
theorem exists_text_conversation_cons (mode : Mode) (line : List UInt8)
    (lines : List (List UInt8)) :
    ∃ later, (conversation mode (line :: lines)).text =
      promptText ++ lineReply mode line ++ later := by
  cases stops : stopAt? mode line with
  | none => exact ⟨_, congrArg Transcript.text (conversation_of_goesOn stops lines)⟩
  | some stop =>
    rw [conversation_of_stop stops]
    exact ⟨"", (String.append_empty).symm⟩

/-- Where the loop comes to a broken line, it goes on with the diagnostics of that line. -/
theorem exists_written_behind {input : ByteArray} {before after : List (List UInt8)}
    {line : List UInt8} {source : String} (cut : inputLines input = before ++ line :: after)
    (goesOn : ∀ other ∈ before, GoesOn .program other)
    (decoded : String.fromUTF8? line.toByteArray = some source) (broken : (parse source).2 ≠ []) :
    ∃ later, ((interact .program input).onBlank none).2 =
      ((interact .program before.flatten.toByteArray).onBlank none).2 ++
        (String.join ((displayed source).map fun d => d.display source shellFile)).toByteArray ++
          later := by
  have answer : lineReply .program line =
      String.join ((displayed source).map fun d => d.display source shellFile) := by
    rw [lineReply, decoded]
    exact reply_of_broken broken shellFile
  obtain ⟨later, written⟩ := exists_text_conversation_cons .program line after
  refine ⟨later.toByteArray, ?_⟩
  -- the lines before come to the same text whether they are the whole input or not
  rw [onBlank_interact, onBlank_interact, inputLines_flatten cut, cut, conversation_append goesOn,
    conversation_of_forall_goesOn goesOn, written, answer]
  simp only [String.toByteArray_append, ByteArray.append_assoc]

/-- When the loop comes to a line that is a text and broken, it goes on with the diagnostics of that
line, up to the first that has no display. All of them show the line, trimmed, as line number one;
but a diagnostic for the end of a line that has a newline shows the empty line behind it, which has
number two. -/
theorem typed_line_shown {input : ByteArray} {before after : List (List UInt8)}
    {line : List UInt8} {source : String} (cut : inputLines input = before ++ line :: after)
    (goesOn : ∀ other ∈ before, GoesOn .program other)
    (decoded : String.fromUTF8? line.toByteArray = some source)
    (fits : source.utf8ByteSize ≤ Position.limit) (broken : (parse source).2 ≠ []) :
    (∃ later, ((interact .program input).onBlank none).2 =
      ((interact .program before.flatten.toByteArray).onBlank none).2 ++
        (String.join ((displayed source).map fun d => d.display source shellFile)).toByteArray ++
          later) ∧
    ∃ indent shown blank, Trimmed source.toList indent shown blank ∧
      ∀ d ∈ (parse source).2,
        (¬ (d.IsAtEnd ∧ source.toList.getLast? = some '\n') →
          (Text.lines (d.display source shellFile))[3]? =
            some ("1 | " ++ String.ofList shown ++ "\n")) ∧
        (d.IsAtEnd ∧ source.toList.getLast? = some '\n' →
          (Text.lines (d.display source shellFile))[3]? = some "2 | \n") := by
  have single := newline_not_mem_dropLast (cut ▸ List.mem_append_right _ List.mem_cons_self) decoded
  have plainFile : '\n' ∉ shellFile.toList := by decide
  obtain ⟨blank, trimmed⟩ := exists_trimmed source.toList
  refine ⟨exists_written_behind cut goesOn decoded broken, _, _, blank, trimmed, fun d member => ?_⟩
  exact ⟨fourth_line_of_line fits single member plainFile,
    fun ⟨atEnd, newline⟩ => fourth_line_behind_newline fits single member plainFile atEnd newline⟩

/-- A line with a diagnostic for a character of two bytes and one for its end, between a sound line
and one that is no text. -/
theorem typed_line_shown_with_two_diagnostics :
    let source := "\té; 1 +\r\n"
    let line := source.toByteArray.data.toList
    let before := ["x\n".toByteArray.data.toList]
    let input := "x\n\té; 1 +\r\n".toByteArray ++ ⟨#[0xFF]⟩
    inputLines input = before ++ line :: [[0xFF]] ∧ (∀ other ∈ before, GoesOn .program other) ∧
      String.fromUTF8? line.toByteArray = some source ∧
      source.utf8ByteSize ≤ Position.limit ∧
      (parse source).2 = [⟨.illegalToken "é", ⟨1⟩⟩, ⟨.missingOperand .endOfInput, ⟨10⟩⟩] ∧
      (∃ later, ((interact .program input).onBlank none).2 =
        ((interact .program before.flatten.toByteArray).onBlank none).2 ++
          (String.join ((displayed source).map fun d => d.display source shellFile)).toByteArray ++
            later) ∧
      ∃ indent shown blank, Trimmed source.toList indent shown blank ∧
        ∀ d ∈ (parse source).2,
          (¬ (d.IsAtEnd ∧ source.toList.getLast? = some '\n') →
            (Text.lines (d.display source shellFile))[3]? =
              some ("1 | " ++ String.ofList shown ++ "\n")) ∧
          (d.IsAtEnd ∧ source.toList.getLast? = some '\n' →
            (Text.lines (d.display source shellFile))[3]? = some "2 | \n") := by
  intro source line before input
  have cut : inputLines input = before ++ line :: [[0xFF]] := by decide +kernel
  have goesOn : ∀ other ∈ before, GoesOn .program other := by decide +kernel
  have decoded : String.fromUTF8? line.toByteArray = some source := fromUTF8?_toByteArray source
  have fits : source.utf8ByteSize ≤ Position.limit := by decide
  have diagnostics : (parse source).2 =
      [⟨.illegalToken "é", ⟨1⟩⟩, ⟨.missingOperand .endOfInput, ⟨10⟩⟩] := by decide +kernel
  have broken : (parse source).2 ≠ [] := by rw [diagnostics]; exact List.cons_ne_nil _ _
  exact ⟨cut, goesOn, decoded, fits, diagnostics,
    typed_line_shown cut goesOn decoded fits broken⟩

/-- A line that is typed with its newline and lacks its last operand is not shown. -/
theorem typed_line_not_shown_at_end :
    let source := "1 +\n"
    let d : Diagnostic := ⟨.missingOperand .endOfInput, ⟨4⟩⟩
    inputLines source.toByteArray = [source.toByteArray.data.toList] ∧ (parse source).2 = [d] ∧
      ((interact .program source.toByteArray).onBlank none).2 =
        (promptText ++ d.display source shellFile ++ promptText).toByteArray ∧
      Trimmed source.toList [] "1 +".toList ['\n'] ∧
      (Text.lines (d.display source shellFile))[3]? = some "2 | \n" ∧
      (Text.lines (d.display source shellFile))[3]? ≠ some "1 | 1 +\n" := by
  intro source d
  refine ⟨by decide +kernel, by decide +kernel, by decide +kernel, ?_, by decide +kernel,
    by decide +kernel⟩
  refine ⟨by decide, nofun, ?_, List.forall_mem_singleton.mpr rfl, ?_⟩ <;> rintro c ⟨⟩ <;> rfl

end Session

end Frontend
