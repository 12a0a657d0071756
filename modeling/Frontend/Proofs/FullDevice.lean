import Frontend.Proofs.LineByLine

/-!
# A full device

A device that is too small for what a session writes only cuts it off, and stops the session
(`full_device_truncates`). It does not matter where it gets full. A session hands over whole texts
to the device; one that hands over each name, operator and escape by itself (`answerInPieces`), and
reads each line only when it is to be answered, is the same session.
-/
namespace Frontend

open Session (write)

/-! ### Writing piece by piece -/

/-- Writes the text between double quotes, one character after the other. -/
def Session.writeQuoted (text : String) : Session Unit := do
  write "\""
  text.toList.forM fun c => write (String.ofList (Text.escape c))
  write "\""

def Token.emit (token : Token) : Session Unit := do
  write "Token \x7b kind: "
  write token.kind.name
  write ", literal: "
  Session.writeQuoted token.literal
  write " \x7d"

/-- Writes the expression node by node. -/
def Expression.emit : Expression → Session Unit
  | identifier name => write name.value
  | integer token _ => write token.literal
  | unary _ operator operand => do
    write "("
    write operator
    operand.emit
    write ")"
  | binary _ left operator right => do
    write "("
    left.emit
    write " "
    write operator
    write " "
    right.emit
    write ")"

def Statement.emit : Statement → Session Unit
  | binding token name value => do
    write token.literal
    write " "
    write name.value
    write " = "
    value.emit
    write ";"
  | returning token value => do
    write token.literal
    write " "
    value.emit
    write ";"
  | bare _ value => value.emit

def Program.emit (program : Program) : Session Unit := program.statements.forM Statement.emit

theorem Session.writeQuoted_eq (text : String) : writeQuoted text = write (Text.quoted text) := by
  have inner : String.join (text.toList.map fun c => String.ofList (Text.escape c)) =
      String.ofList (text.toList.flatMap Text.escape) := by
    induction text.toList with
    | nil => rfl
    | cons c rest ih =>
      rw [List.map_cons, String.join_cons, ih, List.flatMap_cons, String.ofList_append]
  have spelled : Text.quoted text =
      "\"" ++ (String.ofList (text.toList.flatMap Text.escape) ++ "\"") := by
    rw [Text.quoted, ← String.toList_inj]
    simp
  rw [writeQuoted, forM_write, inner, spelled, write_append, write_append]

theorem Token.emit_eq (token : Token) : token.emit = write token.describe := by
  have spelled : token.describe = "Token \x7b kind: " ++ (token.kind.name ++
      (", literal: " ++ (Text.quoted token.literal ++ " \x7d"))) := by
    rw [← String.append_assoc, ← String.append_assoc, ← String.append_assoc]
    rfl
  simp only [emit, Session.writeQuoted_eq, spelled, Session.write_append]

theorem Expression.emit_eq (e : Expression) : e.emit = write e.text := by
  induction e with
  | identifier name => rfl
  | integer token value => rfl
  | unary token operator operand ih =>
    simp only [emit, text, ih, Session.write_append, bind_assoc]
  | binary token left operator right leftIh rightIh =>
    simp only [emit, text, leftIh, rightIh, Session.write_append, bind_assoc]

theorem Statement.emit_eq (s : Statement) : s.emit = write s.text := by
  cases s <;> simp only [emit, text, Expression.emit_eq, Session.write_append, bind_assoc]

theorem Program.emit_eq (program : Program) : program.emit = write program.text := by
  rw [emit, text, ← Session.forM_write]
  exact congrArg _ (funext Statement.emit_eq)

namespace Session

/-- Answers a source text like `answer`, but piece by piece. -/
def answerInPieces (mode : Mode) (source file : String) : Session Bool :=
  match mode with
  | .tokens => do
    (scan 0 source.toList).forM fun token => do
      token.emit
      write "\n"
    return true
  | .program => do
    let (program, diagnostics) := parse source
    if diagnostics.isEmpty then
      program.emit
      write "\n"
      return true
    else
      writeDiagnostics diagnostics source file
      return false

def answerLineInPieces (mode : Mode) (line : List UInt8) : Session Unit :=
  match String.fromUTF8? line.toByteArray with
  | none => throw .notText
  | some source => do discard <| answerInPieces mode source shellFile

/-- The loop over what is left of an input, with answers that are written piece by piece. -/
def loopInPieces (mode : Mode) (input : List UInt8) : Session Unit := do
  write promptText
  if some_left : (readLine input).1 ≠ [] then
    have := length_readLine_lt some_left
    answerLineInPieces mode (readLine input).1
    loopInPieces mode (readLine input).2
termination_by input.length

theorem answerInPieces_eq (mode : Mode) (source file : String) :
    answerInPieces mode source file = answer mode source file := by
  cases mode with
  | tokens =>
    have line (token : Token) : (do token.emit; write "\n") = write (token.describe ++ "\n") := by
      rw [Token.emit_eq, write_append]
    simp only [answerInPieces, answer, writeTokens, line]
  | program =>
    simp only [answerInPieces, answer, Program.emit_eq, write_append, bind_assoc]

theorem answerLineInPieces_eq (mode : Mode) (line : List UInt8) :
    answerLineInPieces mode line = answerLine mode line := by
  rw [answerLineInPieces, answerLine]
  cases String.fromUTF8? line.toByteArray with
  | none => rfl
  | some source => exact congrArg discard (answerInPieces_eq mode source shellFile)

theorem loopInPieces_eq (mode : Mode) (input : List UInt8) :
    loopInPieces mode input = loop mode input := by
  induction input using loop.induct with
  | case1 input ih =>
    rw [loopInPieces, loop]
    by_cases some_left : (readLine input).1 ≠ []
    · rw [dif_pos some_left, dif_pos some_left, answerLineInPieces_eq, ih some_left]
    · rw [dif_neg some_left, dif_neg some_left]

/-! ### Truncation -/

variable {α : Type}

/-- On a device with a limit, the session comes to the same and writes the same as on one without,
if that fits. If not, it writes the first bytes of it, up to the limit, and is stopped by the
device, whatever else would have stopped it later. -/
def Truncates (session : Session α) : Prop :=
  ∀ limit, session.onBlank (some limit) =
    if (session.onBlank none).2.size ≤ limit then session.onBlank none
    else (.error .deviceFull, (session.onBlank none).2.extract 0 limit)

theorem truncates_play (t : Transcript α) : Truncates (play t) := by
  intro limit
  rw [onBlank_play, onBlank, play_apply, Device.blank]
  by_cases fits : t.text.toByteArray.size ≤ limit
  · simp only [Device.append, if_pos fits, if_true, ByteArray.empty_append]
  · simp only [Device.append, if_neg fits, Bool.false_eq_true, if_false, ByteArray.empty_append]

/-- Answering a source text and the interactive loop come to the same and write the same on any
device with room for it, and a smaller device only cuts off what they write. Writing piece by piece
makes no difference to this. By itself, an answer says whether there are no diagnostics, unless one
of them has no display; and the loop ends well, unless a line stops it, which is no text or has a
diagnostic without a display. -/
theorem full_device_truncates (mode : Mode) :
    (∀ source file, answerInPieces mode source file = answer mode source file ∧
      ((answer mode source file).onBlank none).1 =
        stopOr (stopIn? mode source) (isClean mode source) ∧
      Truncates (answer mode source file)) ∧
    ∀ input : ByteArray, loopInPieces mode input.data.toList = interact mode input ∧
      ((interact mode input).onBlank none).1 =
        stopOr ((inputLines input).findSome? (stopAt? mode)) () ∧
      Truncates (interact mode input) := by
  refine ⟨fun source file => ⟨answerInPieces_eq mode source file, ?_, ?_⟩,
    fun input => ⟨?_, ?_, ?_⟩⟩
  · rw [answer_eq_play, onBlank_play]
  · rw [answer_eq_play]
    exact truncates_play _
  · rw [loopInPieces_eq, interact_eq_loop]
  · rw [onBlank_interact, conversation_result]
  · rw [interact, answerLines_eq_play]
    exact truncates_play _

/-- The device gets full in the prompt for a line that is no text, which is never read. -/
example : ((interact .program ⟨#[0x31, 0x0A, 0xFF]⟩).onBlank (some 6)).2 =
    ">> 1\n>".toByteArray := by
  decide +kernel

end Session

end Frontend
