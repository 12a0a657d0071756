import Frontend.Proofs.LineByLine
import Frontend.Proofs.Quoting
import Frontend.Proofs.Rendering

/-!
# Tokens, one on a line

A source text that is answered by its tokens is answered by one line for each of them. The line of a
token shows its kind and its text, and nothing else (`Lexeme.line_injective`), so the answer tells the
tokens but for their positions (`tokens_told_apart`). Nor does a token go beyond a line of the source:
the lexemes of a text are those of its lines, and the text is answered as its lines are, one after
the other, in a file and in the interactive loop (`tokens_line_by_line`).
-/
namespace Frontend

/-! ### The lexemes of each line -/

theorem lexemesOf_append_newline (text more : List Char) :
    lexemesOf (text ++ '\n' :: more) = lexemesOf text ++ lexemesOf more := by
  rw [lexemesOf_append (by decide) (by decide) (by decide), lexemesOf_layout (by decide)]

/-- No lexeme goes beyond a line, and a line has the same lexemes wherever it stands. -/
theorem lexemesOf_eq_flatMap_lines (source : String) :
    lexemesOf source.toList = (Text.lines source).flatMap fun line => lexemesOf line.toList := by
  have pieces (text : List Char) :
      lexemesOf text = (Text.splitAfter '\n' text).flatMap lexemesOf := by
    induction text using Text.piece_induction '\n' with
    | nil => exact lexemesOf_nil
    | piece body rest plain ih =>
      rw [Text.splitAfter_piece plain, List.flatMap_cons, ← ih, lexemesOf_append_newline,
        lexemesOf_append_newline, lexemesOf_nil, List.append_nil]
    | last body plain some_left =>
      rw [Text.splitAfter_of_not_mem plain some_left, List.flatMap_singleton]
  rw [pieces, Text.lines, List.flatMap_map]
  simp only [String.toList_ofList]

/-! ### The line of a token -/

theorem Kind.name_injective : Function.Injective Kind.name := by
  have found (kind : Kind) : ofName? kind.name = some kind := by cases kind <;> decide
  intro kind other same
  rw [← Option.some_inj, ← found kind, ← found other, same]

theorem Kind.comma_not_mem_name (kind : Kind) : ',' ∉ kind.name.toList := by
  cases kind <;> decide

namespace Lexeme

/-- What a token of this kind and text is shown as, wherever it stands. -/
def describe (lexeme : Lexeme) : String :=
  Token.describe ⟨lexeme.kind, String.ofList lexeme.text, .start⟩

theorem toList_describe (lexeme : Lexeme) :
    lexeme.describe.toList = "Token \x7b kind: ".toList ++ (lexeme.kind.name.toList ++
      ',' :: (" literal: ".toList ++ ((Text.quoted (String.ofList lexeme.text)).toList ++
        " \x7d".toList))) := by
  have spelled : lexeme.describe = "Token \x7b kind: " ++ lexeme.kind.name ++ ", literal: " ++
      Text.quoted (String.ofList lexeme.text) ++ " \x7d" := rfl
  simp only [spelled, String.toList_append, List.append_assoc]
  rfl

theorem describe_injective : Function.Injective describe := by
  intro lexeme other same
  have written := congrArg String.toList same
  rw [toList_describe, toList_describe, List.append_cancel_left_eq] at written
  -- the first comma stands behind the name
  have pieces := congrArg (Text.splitAfter ',') written
  rw [Text.splitAfter_piece (Kind.comma_not_mem_name _),
    Text.splitAfter_piece (Kind.comma_not_mem_name _)] at pieces
  have name := List.append_cancel_right (List.cons.inj pieces).1
  rw [name, List.append_cancel_left_eq, List.cons.injEq, List.append_cancel_left_eq,
    Text.quoted_append_inj, String.ofList_inj] at written
  obtain ⟨kind, text⟩ := lexeme
  rw [mk.injEq]
  exact ⟨Kind.name_injective (String.toList_inj.mp name), written.2.1⟩

theorem newline_not_mem_describe (lexeme : Lexeme) : '\n' ∉ lexeme.describe.toList := by
  have name : '\n' ∉ lexeme.kind.name.toList := by cases lexeme.kind <;> decide
  have literal := Text.newline_not_mem_quoted (String.ofList lexeme.text)
  simp only [toList_describe, List.mem_append, List.mem_cons, not_or]
  exact ⟨by decide, name, by decide, by decide, literal, by decide⟩

/-- The line on which the lexeme is shown, in bytes. -/
def line (lexeme : Lexeme) : List UInt8 :=
  Text.bytesOf lexeme.describe.toList ++ ['\n'.toUInt8]

theorem line_injective : Function.Injective line := by
  intro lexeme other same
  have bytes := congrArg List.toByteArray (List.append_cancel_right same)
  rw [Text.toByteArray_bytesOf, Text.toByteArray_bytesOf, String.toByteArray_inj,
    String.ofList_toList, String.ofList_toList] at bytes
  exact describe_injective bytes

end Lexeme

theorem Token.describe_lexeme (token : Token) : token.lexeme.describe = token.describe := by
  change Token.describe ⟨token.kind, String.ofList token.literal.toList, .start⟩ = token.describe
  rw [String.ofList_toList]
  rfl

theorem filter_not_isEnd_tokenize (source : String) :
    (tokenize source).filter (fun token => !token.isEnd) = scan 0 source.toList := by
  have inner : ∀ token ∈ scan 0 source.toList, (!token.isEnd) = true := fun token member => by
    simpa [Token.isEnd] using kind_ne_endOfInput_of_mem_scan member
  rw [tokenize, List.filter_append, List.filter_eq_self.mpr inner]
  exact List.append_nil _

/-! ### Answers -/

namespace Session

/-- What a session writes where there is room for it. -/
def written {α : Type} (session : Session α) : List UInt8 :=
  (session.onBlank none).2.data.toList

theorem written_play {α : Type} (t : Transcript α) : written (play t) = Text.bytesOf t.text.toList := by
  rw [written, onBlank_play, Text.bytesOf_toList]

/-- In the interactive loop, the prompt stands in front of each answer, and once more at the end. -/
theorem written_interact_tokens (source : String) :
    written (interact .tokens source.toByteArray) =
      ((Text.lines source).flatMap fun line =>
        promptText.toByteArray.data.toList ++ written (answer .tokens line shellFile)) ++
        promptText.toByteArray.data.toList := by
  rw [interact_toByteArray fun _ _ => rfl, written_play, String.toList_append, Text.bytesOf_append,
    Text.bytesOf_join, Text.bytesOf_toList promptText]
  congr 1
  refine List.flatMap_congr fun line _ => ?_
  rw [answer_eq_play, written_play, String.toList_append, Text.bytesOf_append,
    Text.bytesOf_toList promptText]

theorem written_answer_tokens (source file : String) :
    written (answer .tokens source file) = (lexemesOf source.toList).flatMap Lexeme.line := by
  rw [answer_eq_play, written_play, reply, Text.bytesOf_join, lexemesOf, List.flatMap_map]
  refine List.flatMap_congr fun token _ => ?_
  rw [Lexeme.line, Token.describe_lexeme, String.toList_append, Text.bytesOf_append,
    ← Text.bytesOf_newline]
  rfl

theorem result_answer_tokens (source file : String) :
    ((answer .tokens source file).onBlank none).1 = .ok true := by
  rw [answer_eq_play, onBlank_play]
  rfl

theorem splitAfter_written_answer_tokens (source file : String) :
    Text.splitAfter '\n'.toUInt8 (written (answer .tokens source file)) =
      (lexemesOf source.toList).map Lexeme.line := by
  rw [written_answer_tokens]
  exact Text.splitAfter_flatMap_concat fun lexeme _ =>
    Text.newline_not_mem_bytesOf lexeme.newline_not_mem_describe

/-- Two source texts are answered alike by their tokens exactly if the tokens are the same but for
their positions. The answer has a line for each token but the last, which is the end of the text; a
token is shown without a newline, whatever is in its text. -/
theorem tokens_told_apart (first second file other : String) :
    (written (answer .tokens first file) = written (answer .tokens second other) ↔
      (tokenize first).map Token.lexeme = (tokenize second).map Token.lexeme) ∧
    ((answer .tokens first file).onBlank none).1 = .ok true ∧
    Text.splitAfter '\n'.toUInt8 (written (answer .tokens first file)) =
      (((tokenize first).filter fun token => !token.isEnd).map fun token =>
        Text.bytesOf token.describe.toList ++ ['\n'.toUInt8]) ∧
    ∀ token : Token, '\n'.toUInt8 ∉ Text.bytesOf token.describe.toList := by
  refine ⟨⟨fun same => ?_, fun same => ?_⟩, result_answer_tokens first file, ?_, fun token => ?_⟩
  · -- cut at the newlines, equal answers have equal lines
    have lines := congrArg (Text.splitAfter '\n'.toUInt8) same
    rw [splitAfter_written_answer_tokens, splitAfter_written_answer_tokens,
      List.map_inj_right fun _ _ => (Lexeme.line_injective ·)] at lines
    rw [lexemes_tokenize, lexemes_tokenize, lines]
  · rw [lexemes_tokenize, lexemes_tokenize, List.append_cancel_right_eq] at same
    rw [written_answer_tokens, written_answer_tokens, same]
  · rw [splitAfter_written_answer_tokens, filter_not_isEnd_tokenize, lexemesOf, List.map_map]
    refine List.map_congr_left fun token _ => ?_
    rw [Function.comp_apply, Lexeme.line, Token.describe_lexeme]
  · rw [← Token.describe_lexeme]
    exact Text.newline_not_mem_bytesOf (Lexeme.newline_not_mem_describe _)

/-- A source text is answered by its tokens as its lines are, one after the other. In the interactive
loop there is the prompt in front of each of them, and once more at the end. -/
theorem tokens_line_by_line (source file : String) :
    written (answer .tokens source file) =
      ((Text.lines source).flatMap fun line => written (answer .tokens line shellFile)) ∧
    written (interact .tokens source.toByteArray) =
      ((Text.lines source).flatMap fun line =>
        promptText.toByteArray.data.toList ++ written (answer .tokens line shellFile)) ++
        promptText.toByteArray.data.toList ∧
    ((answer .tokens source file).onBlank none).1 = .ok true ∧
    ((interact .tokens source.toByteArray).onBlank none).1 = .ok () := by
  refine ⟨?_, written_interact_tokens source, result_answer_tokens source file, ?_⟩
  · rw [written_answer_tokens, lexemesOf_eq_flatMap_lines, List.flatMap_assoc]
    refine List.flatMap_congr fun line _ => ?_
    rw [written_answer_tokens]
  · rw [interact_toByteArray fun _ _ => rfl, onBlank_play]

end Session

end Frontend
