import Frontend.Proofs.CaretRow
import Frontend.Proofs.Transcript

/-!
# The loop goes line by line

The interactive loop takes nothing along from one line to the next (`interact_line_by_line`): what it
writes for an input is what it writes for the first lines, but for the prompt behind them, and then
what it writes for the others. It goes on behind every text (`GoesOn`), unless this has a diagnostic
without a display. A line that is no text stops it, and what was written by then is what it writes
for the lines before. A text that stops it is answered up to the diagnostic that has no display
(`interact_stops_at_wide_line`). All lines of an input are cut at once in `interact`; a loop that
reads each line only when it is to be answered does the same (`interact_eq_loop`).
-/
namespace Frontend

namespace Session

/-! ### Reading line after line -/

/-- The bytes up to and including the next newline, and those behind it. -/
def readLine : List UInt8 → List UInt8 × List UInt8
  | [] => ([], [])
  | byte :: rest =>
    if byte = '\n'.toUInt8 then ([byte], rest)
    else (byte :: (readLine rest).1, (readLine rest).2)

theorem length_readLine_lt {input : List UInt8} (some_left : (readLine input).1 ≠ []) :
    (readLine input).2.length < input.length := by
  induction input with
  | nil => exact absurd rfl some_left
  | cons byte rest ih =>
    rw [readLine]
    split
    · exact Nat.lt_succ_self _
    · by_cases empty : (readLine rest).1 = []
      · cases rest with
        | nil => exact Nat.lt_succ_self _
        | cons next rest =>
          rw [readLine] at empty
          split at empty <;> cases empty
      · exact Nat.lt_succ_of_lt (ih empty)

/-- The loop over what is left of an input, which ends where no line is left. -/
def loop (mode : Mode) (input : List UInt8) : Session Unit := do
  write promptText
  if some_left : (readLine input).1 ≠ [] then
    have := length_readLine_lt some_left
    answerLine mode (readLine input).1
    loop mode (readLine input).2
termination_by input.length

theorem readLine_piece {body : List UInt8} (plain : '\n'.toUInt8 ∉ body) (rest : List UInt8) :
    readLine (body ++ '\n'.toUInt8 :: rest) = (body ++ ['\n'.toUInt8], rest) := by
  induction body with
  | nil => rfl
  | cons byte body ih =>
    rw [List.mem_cons, not_or] at plain
    rw [List.cons_append, readLine, if_neg (Ne.symm plain.1), ih plain.2]
    rfl

theorem readLine_of_not_mem {body : List UInt8} (plain : '\n'.toUInt8 ∉ body) :
    readLine body = (body, []) := by
  induction body with
  | nil => rfl
  | cons byte body ih =>
    rw [List.mem_cons, not_or] at plain
    rw [readLine, if_neg (Ne.symm plain.1), ih plain.2]

theorem loop_nil (mode : Mode) : loop mode [] = write promptText := by
  rw [loop]
  exact bind_pure (write promptText)

theorem loop_of_readLine {input line rest : List UInt8} (read : readLine input = (line, rest))
    (some_left : line ≠ []) (mode : Mode) :
    loop mode input = (do write promptText; answerLine mode line; loop mode rest) := by
  have left : (readLine input).1 ≠ [] := by rwa [read]
  have opened : loop mode input = (do
      write promptText
      answerLine mode (readLine input).1
      loop mode (readLine input).2) := by
    rw [loop, dif_pos left]
  rwa [read] at opened

/-- Reading the lines one by one makes no difference. -/
theorem interact_eq_loop (mode : Mode) (input : ByteArray) :
    interact mode input = loop mode input.data.toList := by
  rw [interact, inputLines]
  induction input.data.toList using Text.piece_induction '\n'.toUInt8 with
  | nil => exact (loop_nil mode).symm
  | piece body rest plain ih =>
    rw [Text.splitAfter_piece plain, answerLines, ih,
      loop_of_readLine (readLine_piece plain rest) (by simp)]
  | last body plain some_left =>
    rw [Text.splitAfter_of_not_mem plain some_left, answerLines, answerLines,
      loop_of_readLine (readLine_of_not_mem plain) some_left, loop_nil]

/-! ### Lines that are texts -/

/-- The bytes are a text in UTF-8. -/
def IsText (line : List UInt8) : Prop := line.toByteArray.IsValidUTF8

instance : DecidablePred IsText := fun line =>
  inferInstanceAs (Decidable line.toByteArray.IsValidUTF8)

theorem IsText.exists_bytes_eq {line : List UInt8} (text : IsText line) :
    ∃ source : String, line = source.toByteArray.data.toList :=
  ⟨⟨line.toByteArray, text⟩, List.toList_data_toByteArray.symm⟩

theorem toByteArray_toList (bytes : ByteArray) : bytes.data.toList.toByteArray = bytes :=
  ByteArray.ext (by simp)

theorem isText_toByteArray (source : String) : IsText source.toByteArray.data.toList := by
  rw [IsText, toByteArray_toList]
  exact source.isValidUTF8

theorem fromUTF8?_toByteArray (source : String) :
    String.fromUTF8? source.toByteArray.data.toList.toByteArray = some source :=
  Text.fromUTF8?_eq_some_iff.mpr (toByteArray_toList source.toByteArray)

theorem fromUTF8?_of_not_isText {line : List UInt8} (noText : ¬ IsText line) :
    String.fromUTF8? line.toByteArray = none :=
  dif_neg noText

/-! ### Lines behind which the loop goes on -/

theorem stopAt?_toByteArray (mode : Mode) (source : String) :
    stopAt? mode source.toByteArray.data.toList = stopIn? mode source := by
  rw [stopAt?, fromUTF8?_toByteArray]

theorem lineReply_toByteArray (mode : Mode) (source : String) :
    lineReply mode source.toByteArray.data.toList = reply mode source shellFile := by
  rw [lineReply, fromUTF8?_toByteArray]

theorem stopAt?_of_not_isText {line : List UInt8} (noText : ¬ IsText line) (mode : Mode) :
    stopAt? mode line = some .notText := by
  rw [stopAt?, fromUTF8?_of_not_isText noText]

theorem lineReply_of_not_isText {line : List UInt8} (noText : ¬ IsText line) (mode : Mode) :
    lineReply mode line = "" := by
  rw [lineReply, fromUTF8?_of_not_isText noText]

/-- The loop is not stopped in the line. -/
def GoesOn (mode : Mode) (line : List UInt8) : Prop := stopAt? mode line = none

instance (mode : Mode) : DecidablePred (GoesOn mode) := fun line =>
  inferInstanceAs (Decidable (stopAt? mode line = none))

/-- Behind a text, the loop goes on unless there is a diagnostic that has no display. -/
theorem goesOn_toByteArray_iff {mode : Mode} {source : String} :
    GoesOn mode source.toByteArray.data.toList ↔
      mode = .tokens ∨ ∀ d ∈ (parse source).2, d.canDisplay source = true := by
  rw [GoesOn, stopAt?_toByteArray, stopIn?_eq_none_iff]

theorem GoesOn.isText {mode : Mode} {line : List UInt8} (goesOn : GoesOn mode line) :
    IsText line := by
  by_contra noText
  rw [GoesOn, stopAt?_of_not_isText noText] at goesOn
  cases goesOn

theorem goesOn_iff {mode : Mode} {line : List UInt8} : GoesOn mode line ↔
    ∃ source : String, line = source.toByteArray.data.toList ∧
      (mode = .tokens ∨ ∀ d ∈ (parse source).2, d.canDisplay source = true) := by
  constructor
  · intro goesOn
    obtain ⟨source, rfl⟩ := goesOn.isText.exists_bytes_eq
    exact ⟨source, rfl, goesOn_toByteArray_iff.mp goesOn⟩
  · rintro ⟨source, rfl, narrow⟩
    exact goesOn_toByteArray_iff.mpr narrow

/-- A line that is a text stops the loop only where a diagnostic has no display. -/
theorem IsText.stopAt?_eq {mode : Mode} {line : List UInt8} (text : IsText line)
    (stops : ¬ GoesOn mode line) : stopAt? mode line = some .tooWide := by
  obtain ⟨source, rfl⟩ := text.exists_bytes_eq
  rw [GoesOn, stopAt?_toByteArray] at stops
  rw [stopAt?_toByteArray]
  exact (stopIn?_of_ne_none stops).2

/-! ### What the loop makes of its lines -/

theorem conversation_of_goesOn {mode : Mode} {line : List UInt8} (goesOn : GoesOn mode line)
    (lines : List (List UInt8)) :
    conversation mode (line :: lines) =
      ⟨promptText ++ lineReply mode line ++ (conversation mode lines).text,
        (conversation mode lines).result⟩ := by
  have passed : stopAt? mode line = none := goesOn
  rw [conversation, passed]
  rfl

theorem conversation_of_stop {mode : Mode} {line : List UInt8} {stop : Stop}
    (stops : stopAt? mode line = some stop) (lines : List (List UInt8)) :
    conversation mode (line :: lines) = ⟨promptText ++ lineReply mode line, .error stop⟩ := by
  rw [conversation, stops]
  rfl

/-- Up to where it is stopped, the loop answers the lines one by one, and goes on behind each as it
would have begun there. -/
theorem conversation_append {mode : Mode} {before : List (List UInt8)}
    (goesOn : ∀ line ∈ before, GoesOn mode line) (after : List (List UInt8)) :
    conversation mode (before ++ after) =
      ⟨String.join (before.map fun line => promptText ++ lineReply mode line) ++
        (conversation mode after).text, (conversation mode after).result⟩ := by
  induction before with
  | nil => rw [List.nil_append, List.map_nil, String.join_nil, String.empty_append]
  | cons line before ih =>
    rw [List.forall_mem_cons] at goesOn
    rw [List.cons_append, conversation_of_goesOn goesOn.1, ih goesOn.2, List.map_cons,
      String.join_cons]
    simp only [String.append_assoc]

/-- The lines begin with some behind which the loop goes on, and then they are at an end or it is
stopped. -/
theorem exists_up_to_stop (mode : Mode) (lines : List (List UInt8)) :
    ∃ before after, lines = before ++ after ∧ (∀ line ∈ before, GoesOn mode line) ∧
      ∀ line ∈ after.head?, ¬ GoesOn mode line := by
  refine ⟨lines.takeWhile (GoesOn mode), lines.dropWhile (GoesOn mode),
    List.takeWhile_append_dropWhile.symm, fun line member => ?_, fun line first => ?_⟩
  · simpa using List.mem_takeWhile_imp member
  · have stopped := List.head?_dropWhile_not (GoesOn mode) lines
    rw [Option.mem_def.mp first] at stopped
    simpa using stopped

theorem conversation_of_forall_goesOn {mode : Mode} {lines : List (List UInt8)}
    (goesOn : ∀ line ∈ lines, GoesOn mode line) :
    conversation mode lines =
      ⟨String.join (lines.map fun line => promptText ++ lineReply mode line) ++ promptText,
        .ok ()⟩ := by
  have alone := conversation_append goesOn []
  rwa [List.append_nil] at alone

/-- The loop comes to the first thing that stops it, and ends well if there is none. -/
theorem conversation_result (mode : Mode) (lines : List (List UInt8)) :
    (conversation mode lines).result = stopOr (lines.findSome? (stopAt? mode)) () := by
  induction lines with
  | nil => rfl
  | cons line lines ih =>
    rw [List.findSome?_cons]
    cases first : stopAt? mode line with
    | none => rw [conversation_of_goesOn first, ih]
    | some stop =>
      rw [conversation_of_stop first]
      rfl

theorem inputLines_toByteArray (source : String) :
    inputLines source.toByteArray =
      (Text.lines source).map fun line => line.toByteArray.data.toList := by
  rw [inputLines, Text.splitAfter_toByteArray]

theorem interact_toByteArray {mode : Mode} {source : String}
    (narrow : ∀ line ∈ Text.lines source, stopIn? mode line = none) :
    interact mode source.toByteArray =
      play ⟨String.join ((Text.lines source).map fun line =>
        promptText ++ reply mode line shellFile) ++ promptText, .ok ()⟩ := by
  have goesOn : ∀ line ∈ (Text.lines source).map (·.toByteArray.data.toList), GoesOn mode line := by
    simpa [GoesOn, stopAt?_toByteArray] using narrow
  rw [interact, inputLines_toByteArray, answerLines_eq_play, conversation_of_forall_goesOn goesOn,
    List.map_map]
  simp only [Function.comp_def, lineReply_toByteArray]

theorem onBlank_interact (mode : Mode) (input : ByteArray) :
    (interact mode input).onBlank none =
      ((conversation mode (inputLines input)).result,
        (conversation mode (inputLines input)).text.toByteArray) := by
  rw [interact, answerLines_eq_play, onBlank_play]

theorem inputLines_append {x : ByteArray}
    (terminated : Text.Terminated '\n'.toUInt8 x.data.toList) (y : ByteArray) :
    inputLines (x ++ y) = inputLines x ++ inputLines y := by
  rw [inputLines, ByteArray.toList_data_append, Text.splitAfter_append terminated]
  rfl

/-- The lines before a line are the lines of an input of their own. -/
theorem inputLines_flatten {input : ByteArray} {line : List UInt8} {before after : List (List UInt8)}
    (cut : inputLines input = before ++ line :: after) :
    inputLines before.flatten.toByteArray = before := by
  rw [inputLines, List.toList_data_toByteArray]
  exact Text.splitAfter_flatten cut

/-- Where the loop is stopped in a line, it has written what it writes for the lines before, and then
the answer to this line as far as it goes. -/
theorem onBlank_interact_of_stop {mode : Mode} {input : ByteArray} {line : List UInt8}
    {before after : List (List UInt8)} {stop : Stop}
    (cut : inputLines input = before ++ line :: after)
    (goesOn : ∀ other ∈ before, GoesOn mode other) (stops : stopAt? mode line = some stop) :
    (interact mode input).onBlank none =
      (.error stop, ((interact mode before.flatten.toByteArray).onBlank none).2 ++
        (lineReply mode line).toByteArray) := by
  -- the prompt behind the lines before is the prompt for the line in which it stops
  rw [onBlank_interact, onBlank_interact, inputLines_flatten cut, cut, conversation_append goesOn,
    conversation_of_stop stops, conversation_of_forall_goesOn goesOn]
  simp only [String.toByteArray_append, ByteArray.append_assoc]

/-! ### A line that is too wide -/

theorem inputLines_farApart (blanks : Nat) :
    inputLines (farApart blanks).toByteArray = [(farApart blanks).toByteArray.data.toList] := by
  rw [inputLines_toByteArray, lines_farApart, List.map_singleton]

theorem isText_of_mem_farApart (blanks : Nat) :
    ∀ line ∈ inputLines (farApart blanks).toByteArray, IsText line := by
  rw [inputLines_farApart, List.forall_mem_singleton]
  exact isText_toByteArray _

section

variable {blanks : Nat} (fits : blanks + 3 ≤ Position.limit)
  (wide : Diagnostic.widestField < blanks + 2)

include fits wide

theorem stopIn?_farApart : stopIn? .program (farApart blanks) = some .tooWide := by
  refine (stopIn?_of_ne_none fun none => ?_).2
  rcases stopIn?_eq_none_iff.mp none with tokens | narrow
  · cases tokens
  · exact absurd ((canDisplay_farApart_iff fits).mp narrow) (Nat.not_le_of_lt wide)

theorem not_goesOn_farApart : ¬ GoesOn .program (farApart blanks).toByteArray.data.toList := by
  rw [GoesOn, stopAt?_toByteArray, stopIn?_farApart fits wide]
  exact Option.some_ne_none _

/-- The only diagnostic is not displayed. -/
theorem reply_farApart (file : String) : reply .program (farApart blanks) file = "" := by
  have stops : stopIn? .program (farApart blanks) ≠ none := by
    rw [stopIn?_farApart fits wide]
    exact Option.some_ne_none _
  have hidden : ¬ Diagnostic.canDisplay ⟨.illegalToken "@", ⟨blanks + 1⟩⟩ (farApart blanks) = true := by
    rw [Diagnostic.canDisplay_iff, caretColumn_farApart rfl]
    exact Nat.not_le_of_lt wide
  rw [reply_of_broken (broken_of_stopIn? stops), displayed, diagnostics_farApart fits,
    List.takeWhile_cons, if_neg hidden]
  rfl

theorem onBlank_interact_farApart (y : ByteArray) :
    (interact .program ((farApart blanks).toByteArray ++ y)).onBlank none =
      (.error .tooWide, promptText.toByteArray) := by
  have cut : inputLines ((farApart blanks).toByteArray ++ y) =
      [] ++ (farApart blanks).toByteArray.data.toList :: inputLines y := by
    rw [inputLines_append (terminated_farApart blanks), inputLines_farApart]
    rfl
  have stops := (stopAt?_toByteArray .program (farApart blanks)).trans (stopIn?_farApart fits wide)
  rw [onBlank_interact_of_stop cut nofun stops, lineReply_toByteArray, reply_farApart fits wide]
  rfl

end

/-- The loop reads line after line. Lines behind which it goes on, up to a newline, are answered by
themselves: the loop writes for them, and then goes on with what follows as if it began there, and
ends as it does there. It ends well exactly if it goes on behind all lines. At the first line that is
no text, it has written what it writes for the lines before. It goes on behind all other lines but
those with a diagnostic that has no display: there, it has written the displays of the diagnostics
before this one as well. No line is like that which is shorter than the widest field. -/
theorem interact_line_by_line (mode : Mode) :
    (∀ input : ByteArray, interact mode input = loop mode input.data.toList) ∧
    (∀ x y : ByteArray, Text.Terminated '\n'.toUInt8 x.data.toList →
      (∀ line ∈ inputLines x, GoesOn mode line) →
        ∃ shown : ByteArray,
          (interact mode x).onBlank none = (.ok (), shown ++ promptText.toByteArray) ∧
          (interact mode (x ++ y)).onBlank none =
            (((interact mode y).onBlank none).1, shown ++ ((interact mode y).onBlank none).2)) ∧
    (∀ input : ByteArray, ((interact mode input).onBlank none).1 = .ok () ↔
      ∀ line ∈ inputLines input, GoesOn mode line) ∧
    (∀ (input : ByteArray) (before after : List (List UInt8)) (line : List UInt8),
      inputLines input = before ++ line :: after → (∀ other ∈ before, GoesOn mode other) →
        ¬ IsText line →
          (interact mode input).onBlank none =
            (.error .notText, ((interact mode before.flatten.toByteArray).onBlank none).2)) ∧
    (∀ (input : ByteArray) (before after : List (List UInt8)) (source : String),
      inputLines input = before ++ source.toByteArray.data.toList :: after →
        (∀ other ∈ before, GoesOn mode other) → ¬ GoesOn mode source.toByteArray.data.toList →
          (interact mode input).onBlank none =
            (.error .tooWide, ((interact mode before.flatten.toByteArray).onBlank none).2 ++
              (String.join ((displayed source).map fun d =>
                d.display source shellFile)).toByteArray)) ∧
    ∀ source : String,
      (GoesOn mode source.toByteArray.data.toList ↔ mode = .tokens ∨
        ∀ d ∈ (parse source).2, d.caretColumn source + 1 ≤ Diagnostic.widestField) ∧
      (source.utf8ByteSize < Diagnostic.widestField →
        GoesOn mode source.toByteArray.data.toList) := by
  refine ⟨interact_eq_loop mode, fun x y terminated goesOn => ?_, fun input => ?_, ?_, ?_,
    fun source => ⟨?_, ?_⟩⟩
  · refine ⟨(String.join ((inputLines x).map fun line =>
      promptText ++ lineReply mode line)).toByteArray, ?_, ?_⟩
    · rw [onBlank_interact, conversation_of_forall_goesOn goesOn, String.toByteArray_append]
    · rw [onBlank_interact, onBlank_interact, inputLines_append terminated,
        conversation_append goesOn, String.toByteArray_append]
  · rw [onBlank_interact, conversation_result, stopOr_eq_ok_iff, List.findSome?_eq_none_iff]
    exact and_iff_left rfl
  · intro input before after line cut goesOn noText
    rw [onBlank_interact_of_stop cut goesOn (stopAt?_of_not_isText noText mode),
      lineReply_of_not_isText noText, String.toByteArray_empty, ByteArray.append_empty]
  · intro input before after source cut goesOn stops
    rw [GoesOn, stopAt?_toByteArray] at stops
    obtain ⟨rfl, stop⟩ := stopIn?_of_ne_none stops
    rw [onBlank_interact_of_stop cut goesOn ((stopAt?_toByteArray .program source).trans stop),
      lineReply_toByteArray, reply_of_broken (broken_of_stopIn? stops)]
  · simp only [goesOn_toByteArray_iff, Diagnostic.canDisplay_iff]
  · exact fun short => goesOn_toByteArray_iff.mpr
      (.inr fun d _ => Diagnostic.canDisplay_of_utf8ByteSize_lt short d)

/-- A broken line, one with a character of two bytes, and then one that is no text; and a line alone
that has a diagnostic without a display. -/
theorem interact_line_by_line_of_broken :
    let x := "let a 1;\n\nx + é\n".toByteArray
    let y : ByteArray := ⟨#[0x79, 0xFF, 0x0A, 0x7A]⟩
    (Text.Terminated '\n'.toUInt8 x.data.toList ∧ (∀ line ∈ inputLines x, GoesOn .program line) ∧
      (∃ shown : ByteArray,
        (interact .program x).onBlank none = (.ok (), shown ++ promptText.toByteArray) ∧
        (interact .program (x ++ y)).onBlank none =
          (((interact .program y).onBlank none).1,
            shown ++ ((interact .program y).onBlank none).2)) ∧
      inputLines (x ++ y) = inputLines x ++ [0x79, 0xFF, 0x0A] :: [[0x7A]] ∧
      ¬ IsText [0x79, 0xFF, 0x0A] ∧
      (interact .program (x ++ y)).onBlank none =
        (.error .notText,
          ((interact .program (inputLines x).flatten.toByteArray).onBlank none).2)) ∧
    ("x + é\n".utf8ByteSize < Diagnostic.widestField ∧
      GoesOn .program "x + é\n".toByteArray.data.toList) ∧
    ¬ GoesOn .program (farApart 70000).toByteArray.data.toList ∧
      (interact .program (farApart 70000).toByteArray).onBlank none =
        (.error .tooWide, ((interact .program ([].flatten : List UInt8).toByteArray).onBlank none).2 ++
          (String.join ((displayed (farApart 70000)).map fun d =>
            d.display (farApart 70000) shellFile)).toByteArray) := by
  intro x y
  have terminated : Text.Terminated '\n'.toUInt8 x.data.toList := by decide
  have goesOn : ∀ line ∈ inputLines x, GoesOn .program line := by decide +kernel
  have cut : inputLines (x ++ y) = inputLines x ++ [0x79, 0xFF, 0x0A] :: [[0x7A]] := by
    decide +kernel
  have noText : ¬ IsText [0x79, 0xFF, 0x0A] := by decide +kernel
  have short : "x + é\n".utf8ByteSize < Diagnostic.widestField := by decide +kernel
  have whole := inputLines_farApart 70000
  have stopsWide := @not_goesOn_farApart 70000 (by decide) (by decide)
  obtain ⟨-, alone, -, stops, wide, narrow⟩ := interact_line_by_line .program
  exact ⟨⟨terminated, goesOn, alone x y terminated goesOn, cut, noText,
    stops (x ++ y) (inputLines x) [[0x7A]] _ cut goesOn noText⟩,
    ⟨short, (narrow _).2 short⟩, stopsWide, wide _ [] [] _ whole nofun stopsWide⟩

/-- A line whose diagnostic is too far from its start stops the loop, though it is a text, and the
line behind it is not answered. -/
theorem interact_stops_at_wide_line :
    Text.Terminated '\n'.toUInt8 (farApart 70000).toByteArray.data.toList ∧
      (∀ line ∈ inputLines (farApart 70000).toByteArray, IsText line) ∧
      (interact .program (farApart 70000).toByteArray).onBlank none =
        (.error .tooWide, promptText.toByteArray) ∧
      (interact .program ((farApart 70000).toByteArray ++ "x\n".toByteArray)).onBlank none =
        (.error .tooWide, promptText.toByteArray) ∧
      (interact .program "x\n".toByteArray).onBlank none = (.ok (), ">> x\n>> ".toByteArray) := by
  have stopped := @onBlank_interact_farApart 70000 (by decide) (by decide)
  have alone := stopped ByteArray.empty
  rw [ByteArray.append_empty] at alone
  exact ⟨terminated_farApart 70000, isText_of_mem_farApart 70000, alone, stopped _,
    by decide +kernel⟩

end Session

end Frontend
