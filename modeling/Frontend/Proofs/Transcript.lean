import Frontend.Session.Interaction
import Mathlib.Data.List.TakeWhile

/-!
# Transcripts

All that a device sees of a session is one text, however many writings it comes in, and behind it
the session ends with an answer or stops (`Transcript`). The reason is that two texts written one
after the other are written joined, also where the device is full (`write_append`): the first one
that does not fit fills it to the last byte, as the joined text does. The answer to a source text and
the interactive loop are given as transcripts here (`answer_eq_play`, `answerLines_eq_play`). Two
things stop them: a line that is no text, and a diagnostic that has no display. Those before such a
diagnostic are displayed (`displayed`).
-/
namespace Frontend

namespace Device

theorem append_empty (d : Device) : d.append ByteArray.empty = (true, d) := by
  obtain ⟨written, room⟩ := d
  cases room with
  | none => simp only [append, ByteArray.append_empty]
  | some room => simp [append]

/-- Bytes written in two parts are written as they would be at once. -/
theorem append_append (d : Device) (first second : ByteArray) :
    d.append (first ++ second) =
      if (d.append first).1 then (d.append first).2.append second else d.append first := by
  obtain ⟨written, room⟩ := d
  cases room with
  | none => simp [append, ByteArray.append_assoc]
  | some room =>
    by_cases fits : first.size ≤ room
    · -- the first part fits, and the second has the room that is left
      have whole : first.extract 0 room = first := by
        rw [← Nat.max_eq_left fits, ByteArray.extract_zero_max_size]
      have cut : (first ++ second).extract 0 room =
          first ++ second.extract 0 (room - first.size) := by
        rw [ByteArray.extract_append, whole, Nat.zero_sub]
      have rest : first.size + second.size ≤ room ↔ second.size ≤ room - first.size := by omega
      simp only [append, if_pos fits, if_true, ByteArray.size_append, rest, cut,
        ByteArray.append_assoc, Nat.sub_sub]
    · have cut : (first ++ second).extract 0 room = first.extract 0 room := by
        have full : room - first.size = 0 := by omega
        rw [ByteArray.extract_append, full, Nat.zero_sub, ByteArray.extract_same,
          ByteArray.append_empty]
      have neither : ¬ first.size + second.size ≤ room := by omega
      simp only [append, if_neg fits, ByteArray.size_append, if_neg neither, cut,
        Bool.false_eq_true, if_false]

end Device

/-- A text to be written, and what comes behind it. -/
structure Transcript (α : Type) where
  text : String
  result : Except Stop α

/-- One transcript after the other. The second is not reached if the first is stopped. -/
def Transcript.andThen {α β : Type} (t : Transcript α) (next : α → Transcript β) : Transcript β :=
  match t.result with
  | .ok a => ⟨t.text ++ (next a).text, (next a).result⟩
  | .error stop => ⟨t.text, .error stop⟩

namespace Session

variable {α β : Type}

/-! ### Writing -/

theorem bind_apply (session : Session α) (next : α → Session β) (d : Device) :
    (session >>= next) d =
      match session d with
      | (.ok a, after) => next a after
      | (.error stop, after) => (.error stop, after) := by
  change ExceptT.bindCont next (session d).1 (session d).2 = _
  rcases session d with ⟨_ | _, after⟩ <;> rfl

theorem write_apply (text : String) (d : Device) :
    write text d =
      (if (d.append text.toByteArray).1 then .ok () else .error .deviceFull,
        (d.append text.toByteArray).2) := by
  change (do
    set (d.append text.toByteArray).2
    unless (d.append text.toByteArray).1 do throw Stop.deviceFull : Session Unit) d = _
  rcases d.append text.toByteArray with ⟨_ | _, after⟩ <;> rfl

theorem write_empty : write "" = pure () := by
  funext d
  rw [write_apply, String.toByteArray_empty, Device.append_empty]
  rfl

/-- Texts written one after the other are written joined. -/
theorem write_append (first second : String) :
    write (first ++ second) = (do write first; write second) := by
  funext d
  rw [bind_apply, write_apply, write_apply, String.toByteArray_append, Device.append_append]
  by_cases fits : (d.append first.toByteArray).1 = true
  · simp only [if_pos fits, write_apply]
  · simp only [if_neg fits]

theorem forM_write {γ : Type} (text : γ → String) (entries : List γ) :
    (entries.forM fun entry => write (text entry)) = write (String.join (entries.map text)) := by
  induction entries with
  | nil => exact write_empty.symm
  | cons entry entries ih =>
    rw [List.map_cons, String.join_cons, write_append, ← ih]
    rfl

/-! ### Transcripts -/

/-- The session with the given transcript. -/
def play (t : Transcript α) : Session α := do
  write t.text
  MonadExcept.ofExcept t.result

theorem play_apply (t : Transcript α) (d : Device) :
    play t d =
      (if (d.append t.text.toByteArray).1 then t.result else .error .deviceFull,
        (d.append t.text.toByteArray).2) := by
  obtain ⟨text, result⟩ := t
  rw [play, bind_apply, write_apply]
  rcases d.append text.toByteArray with ⟨_ | _, after⟩
  · rfl
  · cases result <;> rfl

/-- Without a limit, a device takes the whole text. -/
theorem onBlank_play (t : Transcript α) :
    (play t).onBlank none = (t.result, t.text.toByteArray) := by
  rw [onBlank, play_apply, Device.blank, Device.append, ByteArray.empty_append]
  rfl

theorem write_eq_play (text : String) : write text = play ⟨text, .ok ()⟩ := by
  rw [play]
  exact (bind_pure (write text)).symm

theorem throw_eq_play (stop : Stop) : (throw stop : Session α) = play ⟨"", .error stop⟩ := by
  rw [play, write_empty]
  exact (pure_bind _ _).symm

/-- Of two transcripts one after the other, the second is there only if the first has an answer. -/
theorem play_bind (t : Transcript α) (next : α → Transcript β) :
    (do let a ← play t; play (next a)) = play (t.andThen next) := by
  obtain ⟨text, result⟩ := t
  cases result with
  | error stop => exact bind_assoc (write text) _ _
  | ok a =>
    have answered : (do let a ← play ⟨text, .ok a⟩; play (next a)) =
        (do write text; play (next a)) := bind_assoc (write text) _ _
    rw [answered, play, ← bind_assoc, ← write_append]
    rfl

theorem map_play (f : α → β) (t : Transcript α) : f <$> play t = play ⟨t.text, t.result.map f⟩ := by
  rw [← bind_pure_comp, play, play, bind_assoc]
  refine bind_congr fun _ => ?_
  cases t.result <;> rfl

/-! ### Answers -/

/-- What a session comes to that is stopped, or else gives the answer. -/
def stopOr (stop? : Option Stop) (a : α) : Except Stop α := stop?.elim (.ok a) .error

theorem map_stopOr (f : α → β) (stop? : Option Stop) (a : α) :
    (stopOr stop? a).map f = stopOr stop? (f a) := by
  cases stop? <;> rfl

theorem stopOr_eq_ok_iff {stop? : Option Stop} {a b : α} :
    stopOr stop? a = .ok b ↔ stop? = none ∧ a = b := by
  cases stop? with
  | none => simp [stopOr]
  | some stop => exact iff_of_false nofun nofun

/-- The diagnostics that are displayed, which are those before the first that has no display. -/
def displayed (source : String) : List Diagnostic :=
  (parse source).2.takeWhile fun d => d.canDisplay source

/-- What a source text is answered by. -/
def reply (mode : Mode) (source file : String) : String :=
  match mode with
  | .tokens => String.join ((scan 0 source.toList).map fun token => token.describe ++ "\n")
  | .program =>
    let (program, diagnostics) := parse source
    if diagnostics.isEmpty then program.text ++ "\n"
    else String.join ((displayed source).map fun d => d.display source file)

/-- Whether a source text is answered as one without diagnostics. -/
def isClean (mode : Mode) (source : String) : Bool :=
  match mode with
  | .tokens => true
  | .program => (parse source).2.isEmpty

/-- What stops the answer to a source text. -/
def stopIn? (mode : Mode) (source : String) : Option Stop :=
  match mode with
  | .tokens => none
  | .program => if (parse source).2.all fun d => d.canDisplay source then none else some .tooWide

theorem reply_of_broken {source : String} (broken : (parse source).2 ≠ []) (file : String) :
    reply .program source file =
      String.join ((displayed source).map fun d => d.display source file) := by
  simp only [reply, List.isEmpty_eq_false_iff.mpr broken, Bool.false_eq_true, if_false]

theorem isClean_iff {mode : Mode} {source : String} :
    isClean mode source = true ↔ mode = .tokens ∨ (parse source).2 = [] := by
  cases mode with
  | tokens => exact iff_of_true rfl (.inl rfl)
  | program => simp [isClean]

theorem stopIn?_eq_none_iff {mode : Mode} {source : String} : stopIn? mode source = none ↔
    mode = .tokens ∨ ∀ d ∈ (parse source).2, d.canDisplay source = true := by
  cases mode with
  | tokens => exact iff_of_true rfl (.inl rfl)
  | program => simp [stopIn?]

theorem stopIn?_ne_none_iff {mode : Mode} {source : String} : stopIn? mode source ≠ none ↔
    mode = .program ∧ ∃ d ∈ (parse source).2, ¬ d.canDisplay source = true := by
  cases mode with
  | tokens => exact iff_of_false (fun stops => stops rfl) nofun
  | program => simp [Ne, stopIn?_eq_none_iff]

/-- All that stops an answer is a diagnostic that has no display. -/
theorem stopIn?_of_ne_none {mode : Mode} {source : String} (stops : stopIn? mode source ≠ none) :
    mode = .program ∧ stopIn? mode source = some .tooWide := by
  cases mode with
  | tokens => exact absurd rfl stops
  | program =>
    refine ⟨rfl, ?_⟩
    by_cases narrow : ((parse source).2.all fun d => d.canDisplay source) = true
    · exact absurd (if_pos narrow) stops
    · exact if_neg narrow

theorem broken_of_stopIn? {mode : Mode} {source : String} (stops : stopIn? mode source ≠ none) :
    (parse source).2 ≠ [] := by
  intro clean
  apply stops
  rw [stopIn?_eq_none_iff, clean]
  exact .inr (List.forall_mem_nil _)

theorem stopIn?_of_isClean {mode : Mode} {source : String} (clean : isClean mode source = true) :
    stopIn? mode source = none := by
  rcases isClean_iff.mp clean with tokens | sound
  · exact stopIn?_eq_none_iff.mpr (.inl tokens)
  · exact not_not.mp fun stops => broken_of_stopIn? stops sound

/-- What stops an answer is the first diagnostic that has no display. -/
theorem exists_hidden {mode : Mode} {source : String} (stops : stopIn? mode source ≠ none) :
    ∃ (d : Diagnostic) (after : List Diagnostic),
      (parse source).2 = displayed source ++ d :: after ∧ d.canDisplay source = false ∧
      ∀ other ∈ displayed source, other.canDisplay source = true := by
  have split := List.takeWhile_append_dropWhile (p := fun d : Diagnostic => d.canDisplay source)
    (l := (parse source).2)
  have stopped := List.head?_dropWhile_not (fun d : Diagnostic => d.canDisplay source)
    (parse source).2
  cases behind : (parse source).2.dropWhile fun d => d.canDisplay source with
  | nil =>
    -- then every diagnostic would have a display
    obtain ⟨-, d, member, hidden⟩ := stopIn?_ne_none_iff.mp stops
    exact absurd (List.dropWhile_eq_nil_iff.mp behind d member) hidden
  | cons d after =>
    rw [behind] at split stopped
    exact ⟨d, after, split.symm, by simpa using stopped, fun _ => List.mem_takeWhile_imp⟩

/-- Where all diagnostics have a display, all are displayed. -/
theorem displayed_eq {source : String}
    (narrow : ∀ d ∈ (parse source).2, d.canDisplay source = true) :
    displayed source = (parse source).2 :=
  List.takeWhile_eq_self_iff.mpr narrow

theorem writeDiagnostic_eq_play (d : Diagnostic) (source file : String) :
    writeDiagnostic d source file =
      play (if d.canDisplay source then ⟨d.display source file, .ok ()⟩
        else ⟨"", .error .tooWide⟩) := by
  rw [writeDiagnostic, Diagnostic.display?]
  cases d.canDisplay source with
  | true => exact write_eq_play _
  | false => exact throw_eq_play Stop.tooWide

/-- Diagnostics are displayed one after the other, up to the first that has no display. -/
theorem writeDiagnostics_eq_play (diagnostics : List Diagnostic) (source file : String) :
    writeDiagnostics diagnostics source file =
      play ⟨String.join ((diagnostics.takeWhile fun d => d.canDisplay source).map fun d =>
          d.display source file),
        stopOr (if diagnostics.all fun d => d.canDisplay source then none else some .tooWide) ()⟩ := by
  -- a diagnostic without a display ends the writing, so the others are not looked at
  induction diagnostics with
  | nil => exact write_empty.symm.trans (write_eq_play "")
  | cons d diagnostics ih =>
    have first : writeDiagnostics (d :: diagnostics) source file =
        writeDiagnostic d source file >>= fun _ => writeDiagnostics diagnostics source file := rfl
    rw [first, ih, writeDiagnostic_eq_play, play_bind, List.takeWhile_cons, List.all_cons]
    cases d.canDisplay source with
    | true =>
      simp only [if_true, Bool.true_and, List.map_cons, String.join_cons]
      rfl
    | false => rfl

theorem answer_eq_play (mode : Mode) (source file : String) :
    answer mode source file =
      play ⟨reply mode source file, stopOr (stopIn? mode source) (isClean mode source)⟩ := by
  cases mode with
  | tokens =>
    rw [answer, writeTokens, forM_write]
    rfl
  | program =>
    simp only [answer, reply, isClean, stopIn?, displayed]
    cases (parse source).2 with
    | nil => rfl
    | cons d diagnostics =>
      simp only [List.isEmpty_cons, Bool.false_eq_true, if_false, bind_pure_comp]
      rw [writeDiagnostics_eq_play, map_play, map_stopOr]

/-! ### The loop -/

/-- What a line is answered by, which is nothing if it is no text. -/
def lineReply (mode : Mode) (line : List UInt8) : String :=
  match String.fromUTF8? line.toByteArray with
  | none => ""
  | some source => reply mode source shellFile

/-- What stops the loop in a line. -/
def stopAt? (mode : Mode) (line : List UInt8) : Option Stop :=
  match String.fromUTF8? line.toByteArray with
  | none => some .notText
  | some source => stopIn? mode source

/-- What the interactive loop makes of its lines. -/
def conversation (mode : Mode) : List (List UInt8) → Transcript Unit
  | [] => ⟨promptText, .ok ()⟩
  | line :: lines =>
    Transcript.andThen ⟨promptText ++ lineReply mode line, stopOr (stopAt? mode line) ()⟩ fun _ =>
      conversation mode lines

theorem answerLine_eq_play (mode : Mode) (line : List UInt8) :
    answerLine mode line = play ⟨lineReply mode line, stopOr (stopAt? mode line) ()⟩ := by
  rw [answerLine, lineReply, stopAt?]
  cases String.fromUTF8? line.toByteArray with
  | none => exact throw_eq_play Stop.notText
  | some source =>
    simp only [discard, map_const, answer_eq_play]
    rw [Function.comp_apply, map_play, map_stopOr]

theorem answerLines_eq_play (mode : Mode) (lines : List (List UInt8)) :
    answerLines mode lines = play (conversation mode lines) := by
  induction lines with
  | nil => exact write_eq_play promptText
  | cons line lines ih =>
    rw [answerLines, conversation, answerLine_eq_play, ih, play_bind, write_eq_play, play_bind]
    cases stopAt? mode line with
    | none => exact congrArg (fun text => play ⟨text, _⟩) (String.append_assoc ..).symm
    | some stop => rfl

end Session

end Frontend
