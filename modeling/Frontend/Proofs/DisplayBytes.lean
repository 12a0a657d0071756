import Frontend.Proofs.DisplayLines

/-!
# The bytes of a display

Byte for byte, a display is told by the newlines around the place of its diagnostic, and by the line
between them (`display_byte_exact`). What is shown of that line is `Trimmed`: the blanks that it
begins with are left out, and the white space at its end. No diagnostic is for a place among those
blanks, so the caret never stands further left than it should; and if the shown text goes on up to
the column of the caret, the byte there is the one that the diagnostic is for.
-/
namespace Frontend

open Text

/-- `shown` is the line without the blanks that it begins with and the white space at its end. -/
structure Trimmed (line indent shown blank : List Char) : Prop where
  split : line = indent ++ (shown ++ blank)
  indented : ∀ c ∈ indent, isIndent c = true
  unindented : ∀ c ∈ (shown ++ blank).head?, isIndent c = false
  white : ∀ c ∈ blank, isWhitespace c = true
  visible : ∀ c ∈ shown.getLast?, isWhitespace c = false

theorem exists_trimmed (line : List Char) :
    ∃ blank, Trimmed line (line.takeWhile isIndent) (trimEnd (line.dropWhile isIndent)) blank := by
  obtain ⟨blank, split, white⟩ := eq_trimEnd_append (line.dropWhile isIndent)
  refine ⟨blank, ?_, fun c member => List.mem_takeWhile_imp member, ?_, white, fun c last => ?_⟩
  · rw [← split, List.takeWhile_append_dropWhile]
  · intro c first
    have stopped := List.head?_dropWhile_not isIndent line
    rw [split, Option.mem_def.mp first] at stopped
    simpa using stopped
  · obtain ⟨some_left, rfl⟩ := List.mem_getLast?_eq_getLast last
    exact Bool.eq_false_iff.mpr (List.rdropWhile_last_not isWhitespace _ some_left)

/-- The bytes of a text come first in any text that it begins. -/
theorem getElem?_bytesOf_of_isPrefix {text longer : List Char} (begins : text <+: longer) {n : Nat}
    (inside : n < (bytesOf text).length) : (bytesOf text)[n]? = (bytesOf longer)[n]? := by
  obtain ⟨more, rfl⟩ := begins
  rw [bytesOf_append, List.getElem?_append_left inside]

/-! ### The line of an offset, in bytes -/

section

variable (source : String) (offset : Nat)

/-- The offset at which the line of an offset begins. -/
def lineStart : Nat := behindNewline (bytesAhead source offset)

/-- The number of the line of an offset, counted from one. -/
def lineNumber : Nat := 1 + (bytesAhead source offset).count '\n'.toUInt8

/-- The bytes of the line of an offset, its newline among them. -/
def lineBytes : List UInt8 :=
  throughNewline (source.toByteArray.data.toList.drop (lineStart source offset))

end

namespace OnLine

variable {source : String} {before indent lead behind : List Char} {offset : Nat}

theorem lineStart_eq (onLine : OnLine source.toList offset before indent lead behind) :
    lineStart source offset = byteLength before := by
  obtain ⟨part, taken, plain⟩ := onLine.lineAround.take_bytesOf
  rw [lineStart, bytesAhead, ← bytesOf_toList, taken,
    behindNewline_append (terminated_bytesOf onLine.begins) plain, length_bytesOf]

theorem lineNumber_eq (onLine : OnLine source.toList offset before indent lead behind) :
    lineNumber source offset = 1 + before.count '\n' := by
  obtain ⟨part, taken, plain⟩ := onLine.lineAround.take_bytesOf
  rw [lineNumber, bytesAhead, ← bytesOf_toList, taken, List.count_append, count_newline_bytesOf,
    List.count_eq_zero.mpr plain, Nat.add_zero]

theorem lineBytes_eq (onLine : OnLine source.toList offset before indent lead behind) :
    lineBytes source offset = bytesOf (indent ++ (lead ++ (behind.takeWhile (· != '\n') ++
      (behind.dropWhile (· != '\n')).take 1))) := by
  rw [lineBytes, onLine.lineStart_eq, ← length_bytesOf, ← bytesOf_toList,
    onLine.lineAround.throughNewline_drop, List.append_assoc, List.append_assoc]

/-- From where its line begins, the offset is as far as the indentation and what follows it. -/
theorem offset_eq (onLine : OnLine source.toList offset before indent lead behind) :
    offset = lineStart source offset + indent.length + byteLength lead := by
  have width : byteLength indent = indent.length :=
    byteLength_eq_length_iff.mpr fun c member => utf8Size_of_isIndent (onLine.indented c member)
  rw [onLine.lineStart_eq, ← width, Nat.add_assoc]
  exact onLine.offset

/-- What is taken off the column as indentation is not more than the column. -/
theorem length_indent_le (onLine : OnLine source.toList offset before indent lead behind) :
    indent.length ≤ (Place.find source offset).offset := by
  have ahead : offset ≤ byteLength source.toList := by
    rw [onLine.offset, onLine.split]
    simp only [byteLength_append]
    omega
  have place := onLine.offset_eq
  rw [onLine.lineStart_eq] at place
  rw [onLine.lineAround.find_eq]
  simp only [Nat.min_eq_left ahead]
  omega

/-- Where the text that is shown goes on up to the column of the offset, the byte there is the one at
the offset. -/
theorem getElem?_shown (onLine : OnLine source.toList offset before indent lead behind)
    (reaches : byteLength lead < (bytesOf (trimEnd (lead ++ behind.takeWhile (· != '\n')))).length) :
    (bytesOf (trimEnd (lead ++ behind.takeWhile (· != '\n'))))[byteLength lead]? =
      source.toByteArray.data.toList[offset]? := by
  have begins : trimEnd (lead ++ behind.takeWhile (· != '\n')) <+: lead ++ behind :=
    (trimEnd_isPrefix _).trans ((List.prefix_append_right_inj lead).mpr (List.takeWhile_prefix _))
  -- both texts go on with `lead ++ behind` where the indentation ends
  have split : bytesOf source.toList = bytesOf (before ++ indent) ++ bytesOf (lead ++ behind) := by
    rw [onLine.split, ← bytesOf_append, List.append_assoc]
  have width : (bytesOf (before ++ indent)).length + byteLength lead = offset := by
    rw [length_bytesOf, byteLength_append, onLine.offset, Nat.add_assoc]
  rw [getElem?_bytesOf_of_isPrefix begins reaches, ← bytesOf_toList, split, ← width,
    List.getElem?_append_right (Nat.le_add_right _ _), Nat.add_sub_cancel_left]

end OnLine

/-- The five lines in which a diagnostic is displayed, each with its newline, where `shown` is the
text of the line with the given number, and the caret points at the given column of it. -/
def Diagnostic.rows (d : Diagnostic) (file : String) (number : Nat) (shown : List Char)
    (column : Nat) : List String :=
  let digits := toString number
  let margin := String.ofList (List.replicate (digits.length + 1) ' ') ++ "|"
  [d.headline ++ "\n", "-> " ++ file ++ "\n", margin ++ "\n",
    digits ++ " | " ++ String.ofList shown ++ "\n",
    margin ++ " " ++ String.ofList (List.replicate column '-') ++ "^" ++ "\n"]

/-- A diagnostic of a text is displayed in five lines, each with a newline at its end and no other.
The line of the offending place is shown trimmed, behind its number in decimal. The column of the
caret is the number of bytes from the end of the indentation up to the place, which is never inside
the indentation; and the byte that is shown there, if there is one, is that at the place. -/
theorem display_byte_exact {source file : String} {d : Diagnostic}
    (fits : source.utf8ByteSize ≤ Position.limit) (member : d ∈ (parse source).2)
    (plainFile : '\n' ∉ file.toList) :
    let offset := d.position.offset
    ∃ line indent shown blank : List Char,
      bytesOf line = lineBytes source offset ∧ Trimmed line indent shown blank ∧
      lineStart source offset + indent.length ≤ offset ∧
      indent.length ≤ (Place.find source offset).offset ∧
      let column := offset - lineStart source offset - indent.length
      let rows := d.rows file (lineNumber source offset) shown column
      d.display source file = String.join rows ∧ Text.lines (d.display source file) = rows ∧
      (column < (bytesOf shown).length →
        (bytesOf shown)[column]? = source.toByteArray.data.toList[offset]?) := by
  intro offset
  obtain ⟨before, indent, lead, behind, onLine, -⟩ := exists_diagnostic_onLine fits member
  -- the newline of the line is among the white space that is taken off
  obtain ⟨blank, trimmed⟩ := exists_trimmed (indent ++ (lead ++
    (behind.takeWhile (· != '\n') ++ (behind.dropWhile (· != '\n')).take 1)))
  obtain ⟨taken, dropped⟩ := span_isIndent onLine.indented onLine.head?_line
  rw [taken, dropped, onLine.trimEnd_line] at trimmed
  have place : offset = lineStart source offset + indent.length + byteLength lead :=
    onLine.offset_eq
  have column : offset - lineStart source offset - indent.length = byteLength lead := by omega
  have displayed := Diagnostic.displayLines_of_onLine onLine file
  rw [← onLine.lineNumber_eq] at displayed
  refine ⟨_, indent, _, blank, onLine.lineBytes_eq.symm, trimmed, by omega,
    onLine.length_indent_le, ?_⟩
  rw [column]
  have rows := lines_display member plainFile onLine
  rw [displayed] at rows
  refine ⟨?_, rows, onLine.getElem?_shown⟩
  rw [Diagnostic.display, displayed]
  rfl

/-- Behind a tab and a character of two bytes, on a line that ends in white space which is no blank
of the language. -/
theorem display_byte_exact_behind_two_bytes :
    let source := "x;\n\té; 1 + @ é\u3000\n"
    let d : Diagnostic := ⟨.illegalToken "@", ⟨12⟩⟩
    source.utf8ByteSize ≤ Position.limit ∧ d ∈ (parse source).2 ∧ '\n' ∉ "in".toList ∧
      d.display source "in" = String.join (d.rows "in" 2 "é; 1 + @ é".toList 8) ∧
      ∃ line indent shown blank : List Char,
        bytesOf line = lineBytes source 12 ∧ Trimmed line indent shown blank ∧
        lineStart source 12 + indent.length ≤ 12 ∧
        indent.length ≤ (Place.find source 12).offset ∧
        let column := 12 - lineStart source 12 - indent.length
        let rows := d.rows "in" (lineNumber source 12) shown column
        d.display source "in" = String.join rows ∧ Text.lines (d.display source "in") = rows ∧
        (column < (bytesOf shown).length →
          (bytesOf shown)[column]? = source.toByteArray.data.toList[12]?) := by
  intro source d
  have fits : source.utf8ByteSize ≤ Position.limit := by decide
  have member : d ∈ (parse source).2 := by decide +kernel
  have plainFile : '\n' ∉ "in".toList := by decide
  exact ⟨fits, member, plainFile, by decide +kernel, display_byte_exact fits member plainFile⟩

end Frontend
