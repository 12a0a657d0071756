import Frontend.Invocation
import Frontend.Proofs.LineByLine

/-!
# How an invocation ends

The exit code of an invocation tells what it came to, and with that what it wrote
(`invoke_outcome`). Wrong arguments write nothing. A file is answered as a whole: it fails if it
cannot be read, and then nothing is written, or if it has diagnostics, and then they are all that is
written. In the interactive loop, diagnostics are answers like others: it fails only at a line that
is no text, and what it wrote for the lines before stays written. A diagnostic without a display has
an exit code of its own, in a file and in the loop (`invoke_stops_at_wide_line`).
-/
namespace Frontend

open Session (IsText GoesOn inputLines isClean promptText reply lineReply stopIn? stopAt? shellFile)

namespace Outcome

variable {mode : Mode} {file : String} {contents : Option ByteArray} {input : ByteArray}

/-! ### Answering a file -/

/-- What comes of answering a file, given what it holds. -/
structure AnswersFile (outcome : Outcome) (mode : Mode) (file : String)
    (contents : Option ByteArray) : Prop where
  /-- The file holds a text, and this is answered by its tokens or has no diagnostics. -/
  success_iff : outcome.exitCode = 0 ↔
    ∃ source : String, contents = some source.toByteArray ∧
      (mode = .tokens ∨ (parse source).2 = [])
  /-- The file holds a text with a diagnostic that has no display. -/
  wide_iff : outcome.exitCode = 101 ↔
    ∃ source : String, contents = some source.toByteArray ∧ mode = .program ∧
      ∃ d ∈ (parse source).2, ¬ d.caretColumn source + 1 ≤ Diagnostic.widestField
  failure : outcome.exitCode ≠ 0 → outcome.exitCode ≠ 101 → outcome.exitCode = 1
  /-- Where no text can be read, nothing is written. -/
  unreadable : (∀ source : String, contents ≠ some source.toByteArray) →
    outcome.output = ByteArray.empty
  readable : ∀ source : String, contents = some source.toByteArray →
    outcome.output = (reply mode source file).toByteArray
  /-- With diagnostics, nothing else is written, and they show the name that was given. -/
  broken : ∀ source : String, contents = some source.toByteArray → mode = .program →
    (parse source).2 ≠ [] → outcome.exitCode ≠ 101 →
      outcome.output =
        (String.join ((parse source).2.map fun d => d.display source file)).toByteArray
  /-- Where a diagnostic has no display, those before it are written. -/
  cut : ∀ source : String, contents = some source.toByteArray → outcome.exitCode = 101 →
    ∃ (before : List Diagnostic) (d : Diagnostic) (after : List Diagnostic),
      (parse source).2 = before ++ d :: after ∧
        (∀ other ∈ before, other.canDisplay source = true) ∧ d.canDisplay source = false ∧
        outcome.output =
          (String.join (before.map fun other => other.display source file)).toByteArray

theorem ofFile_of_text (mode : Mode) (file source : String) :
    ofFile mode file (some source.toByteArray) =
      ⟨(stopIn? mode source).elim (if isClean mode source then 0 else 1) Stop.exitCode,
        (reply mode source file).toByteArray, none⟩ := by
  have decoded : (some source.toByteArray).bind String.fromUTF8? = some source :=
    Text.fromUTF8?_eq_some_iff.mpr rfl
  rw [ofFile, decoded]
  simp only [Session.answer_eq_play, Session.onBlank_play]
  cases stopIn? mode source <;> cases isClean mode source <;> rfl

theorem ofFile_of_unreadable (unreadable : ∀ source : String, contents ≠ some source.toByteArray)
    (mode : Mode) (file : String) : ofFile mode file contents = ⟨1, ByteArray.empty, none⟩ := by
  have undecoded : contents.bind String.fromUTF8? = none := by
    -- the bytes of what is decoded would be what the file holds
    refine Option.bind_eq_none_iff.mpr fun bytes held => ?_
    refine Option.eq_none_iff_forall_ne_some.mpr fun source decoded => ?_
    exact unreadable source (held.trans (congrArg some (Text.fromUTF8?_eq_some_iff.mp decoded)))
  rw [ofFile, undecoded]

theorem exitCode_ofFile_of_text (mode : Mode) (file source : String) :
    (ofFile mode file (some source.toByteArray)).exitCode =
      if isClean mode source then 0 else if stopIn? mode source = none then 1 else 101 := by
  rw [ofFile_of_text]
  cases clean : isClean mode source with
  | true =>
    rw [Session.stopIn?_of_isClean clean]
    rfl
  | false =>
    by_cases goesOn : stopIn? mode source = none
    · rw [if_pos goesOn, goesOn]
      rfl
    · rw [if_neg goesOn, (Session.stopIn?_of_ne_none goesOn).2]
      rfl

theorem exitCode_ofFile_of_text_eq_zero_iff {source : String} :
    (ofFile mode file (some source.toByteArray)).exitCode = 0 ↔
      mode = .tokens ∨ (parse source).2 = [] := by
  rw [exitCode_ofFile_of_text, ← Session.isClean_iff]
  split
  next clean => exact iff_of_true rfl clean
  next notClean => exact iff_of_false (by split <;> decide) notClean

theorem exitCode_ofFile_of_text_eq_wide_iff {source : String} :
    (ofFile mode file (some source.toByteArray)).exitCode = 101 ↔ stopIn? mode source ≠ none := by
  rw [exitCode_ofFile_of_text]
  split
  next clean => exact iff_of_false (by decide) fun stops => stops (Session.stopIn?_of_isClean clean)
  next =>
    split
    next goesOn => exact iff_of_false (by decide) fun stops => stops goesOn
    next stops => exact iff_of_true rfl stops

/-- But for the code of failure, each exit code is for a file that holds a text. -/
theorem exitCode_ofFile_eq_iff {code : UInt8} (noFailure : code ≠ 1) :
    (ofFile mode file contents).exitCode = code ↔
      ∃ source : String, contents = some source.toByteArray ∧
        (ofFile mode file (some source.toByteArray)).exitCode = code := by
  constructor
  · intro ends
    by_cases readable : ∃ source : String, contents = some source.toByteArray
    · obtain ⟨source, rfl⟩ := readable
      exact ⟨source, rfl, ends⟩
    · rw [ofFile_of_unreadable (not_exists.mp readable)] at ends
      exact absurd ends.symm noFailure
  · rintro ⟨source, rfl, ends⟩
    exact ends

theorem exitCode_ofFile_failure (nonzero : (ofFile mode file contents).exitCode ≠ 0)
    (narrow : (ofFile mode file contents).exitCode ≠ 101) :
    (ofFile mode file contents).exitCode = 1 := by
  by_cases readable : ∃ source : String, contents = some source.toByteArray
  · obtain ⟨source, rfl⟩ := readable
    rw [exitCode_ofFile_of_text] at nonzero narrow ⊢
    by_cases clean : isClean mode source = true
    · exact absurd (if_pos clean) nonzero
    · rw [if_neg clean] at narrow ⊢
      by_cases goesOn : stopIn? mode source = none
      · exact if_pos goesOn
      · exact absurd (if_neg goesOn) narrow
  · rw [ofFile_of_unreadable (not_exists.mp readable)]

theorem answersFile_ofFile (mode : Mode) (file : String) (contents : Option ByteArray) :
    (ofFile mode file contents).AnswersFile mode file contents where
  success_iff := by
    rw [exitCode_ofFile_eq_iff (by decide)]
    simp only [exitCode_ofFile_of_text_eq_zero_iff]
  wide_iff := by
    rw [exitCode_ofFile_eq_iff (by decide)]
    simp only [exitCode_ofFile_of_text_eq_wide_iff, Session.stopIn?_ne_none_iff,
      Diagnostic.canDisplay_iff]
  failure := exitCode_ofFile_failure
  unreadable unreadable := by rw [ofFile_of_unreadable unreadable]
  readable source held := by rw [held, ofFile_of_text]
  broken source held parsing broken narrow := by
    subst held parsing
    have goesOn := not_not.mp (mt exitCode_ofFile_of_text_eq_wide_iff.mpr narrow)
    have displayed := Session.displayed_eq
      ((Session.stopIn?_eq_none_iff.mp goesOn).resolve_left Mode.noConfusion)
    rw [ofFile_of_text, Session.reply_of_broken broken, displayed]
  cut source held wide := by
    subst held
    have stops := exitCode_ofFile_of_text_eq_wide_iff.mp wide
    obtain ⟨d, after, split, hidden, shown⟩ := Session.exists_hidden stops
    obtain ⟨rfl, -⟩ := Session.stopIn?_of_ne_none stops
    refine ⟨_, d, after, split, shown, hidden, ?_⟩
    rw [ofFile_of_text, Session.reply_of_broken (Session.broken_of_stopIn? stops)]

/-! ### The interactive loop -/

/-- What comes of the interactive loop over an input. -/
structure AnswersInput (outcome : Outcome) (mode : Mode) (input : ByteArray) : Prop where
  /-- Every line is a text. Diagnostics do not count, as long as all of them have a display. -/
  success_iff : outcome.exitCode = 0 ↔ ∀ line ∈ inputLines input, ∃ source : String,
    line = source.toByteArray.data.toList ∧ (mode = .tokens ∨
      ∀ d ∈ (parse source).2, d.caretColumn source + 1 ≤ Diagnostic.widestField)
  /-- The first line behind which the loop does not go on is no text. -/
  refused_iff : outcome.exitCode = 1 ↔ ∃ before line after,
    inputLines input = before ++ line :: after ∧ (∀ other ∈ before, GoesOn mode other) ∧
      ¬ IsText line
  /-- The first line behind which the loop does not go on has a diagnostic that has no display. -/
  wide_iff : outcome.exitCode = 101 ↔ ∃ before line after,
    inputLines input = before ++ line :: after ∧ (∀ other ∈ before, GoesOn mode other) ∧
      IsText line ∧ ¬ GoesOn mode line
  failure : outcome.exitCode ≠ 0 → outcome.exitCode ≠ 101 → outcome.exitCode = 1
  /-- The lines are answered up to the first that stops the loop, and this one as far as it goes. -/
  answered : ∃ before after : List (List UInt8),
    inputLines input = before ++ after ∧ (∀ line ∈ before, GoesOn mode line) ∧
      (∀ line ∈ after.head?, ¬ GoesOn mode line) ∧
      outcome.output = (String.join (before.map fun line => promptText ++ lineReply mode line) ++
        promptText ++ after.head?.elim "" (lineReply mode)).toByteArray

theorem ofInput_eq (mode : Mode) (input : ByteArray) :
    ofInput mode input =
      ⟨((inputLines input).findSome? (stopAt? mode)).elim 0 Stop.exitCode,
        (Session.conversation mode (inputLines input)).text.toByteArray, none⟩ := by
  rw [ofInput, Session.onBlank_interact, Session.conversation_result]
  cases (inputLines input).findSome? (stopAt? mode) <;> rfl

theorem exitCode_ne_zero (stop : Stop) : stop.exitCode ≠ 0 := by cases stop <;> decide

theorem exitCode_ofInput_eq_zero_iff :
    (ofInput mode input).exitCode = 0 ↔ ∀ line ∈ inputLines input, GoesOn mode line := by
  rw [ofInput_eq]
  cases first : (inputLines input).findSome? (stopAt? mode) with
  | none => exact iff_of_true rfl (List.findSome?_eq_none_iff.mp first)
  | some stop =>
    refine iff_of_false (exitCode_ne_zero stop) fun goesOn => ?_
    rw [List.findSome?_eq_none_iff.mpr goesOn] at first
    cases first

/-- Any other exit code is that of the first thing that stops the loop. -/
theorem exitCode_ofInput_eq_iff {code : UInt8} (nonzero : code ≠ 0) :
    (ofInput mode input).exitCode = code ↔ ∃ before line after,
      inputLines input = before ++ line :: after ∧ (∀ other ∈ before, GoesOn mode other) ∧
        ∃ stop, stopAt? mode line = some stop ∧ stop.exitCode = code := by
  rw [ofInput_eq]
  constructor
  · intro ends
    cases first : (inputLines input).findSome? (stopAt? mode) with
    | none =>
      rw [first] at ends
      exact absurd ends.symm nonzero
    | some stop =>
      rw [first] at ends
      obtain ⟨before, line, after, cut, stops, goesOn⟩ := List.findSome?_eq_some_iff.mp first
      exact ⟨before, line, after, cut, goesOn, stop, stops, ends⟩
  · rintro ⟨before, line, after, cut, goesOn, stop, stops, rfl⟩
    rw [List.findSome?_eq_some_iff.mpr ⟨before, line, after, cut, stops, goesOn⟩]
    rfl

/-- A line that is no text and one that is too wide stop the loop with different exit codes. -/
theorem exists_stopAt?_iff {line : List UInt8} {code : UInt8} :
    (∃ stop, stopAt? mode line = some stop ∧ stop.exitCode = code) ↔
      code = 1 ∧ ¬ IsText line ∨ code = 101 ∧ IsText line ∧ ¬ GoesOn mode line := by
  by_cases text : IsText line
  · by_cases goesOn : GoesOn mode line
    · have goes : stopAt? mode line = none := goesOn
      simp [goes, text, goesOn]
    · simp [text.stopAt?_eq goesOn, text, goesOn, Stop.exitCode, eq_comm]
  · simp [Session.stopAt?_of_not_isText text, text, Stop.exitCode, eq_comm]

theorem exitCode_ofInput_failure (nonzero : (ofInput mode input).exitCode ≠ 0)
    (narrow : (ofInput mode input).exitCode ≠ 101) : (ofInput mode input).exitCode = 1 := by
  rw [ofInput_eq] at nonzero narrow ⊢
  cases first : (inputLines input).findSome? (stopAt? mode) with
  | none =>
    rw [first] at nonzero
    exact absurd rfl nonzero
  | some stop =>
    rw [first] at narrow
    cases stop with
    | deviceFull => rfl
    | notText => rfl
    | tooWide => exact absurd rfl narrow

/-- Behind the prompt, only the line that stops the loop is still answered. -/
theorem text_conversation_of_head? {after : List (List UInt8)}
    (stops : ∀ line ∈ after.head?, ¬ GoesOn mode line) :
    (Session.conversation mode after).text =
      promptText ++ after.head?.elim "" (lineReply mode) := by
  cases after with
  | nil => exact String.append_empty.symm
  | cons line after =>
    obtain ⟨stop, stopped⟩ := Option.ne_none_iff_exists'.mp (stops line rfl)
    rw [Session.conversation_of_stop stopped]
    rfl

theorem answersInput_ofInput (mode : Mode) (input : ByteArray) :
    (ofInput mode input).AnswersInput mode input where
  success_iff := by
    simp only [exitCode_ofInput_eq_zero_iff, Session.goesOn_iff, Diagnostic.canDisplay_iff]
  refused_iff := by
    simp only [exitCode_ofInput_eq_iff (by decide : (1 : UInt8) ≠ 0), exists_stopAt?_iff]
    simp
  wide_iff := by
    simp only [exitCode_ofInput_eq_iff (by decide : (101 : UInt8) ≠ 0), exists_stopAt?_iff]
    simp
  failure := exitCode_ofInput_failure
  answered := by
    obtain ⟨before, after, cut, goesOn, stops⟩ := Session.exists_up_to_stop mode (inputLines input)
    refine ⟨before, after, cut, goesOn, stops, ?_⟩
    rw [ofInput_eq, cut, Session.conversation_append goesOn, text_conversation_of_head? stops]
    simp only [String.append_assoc]

/-! ### Diagnostics that have no display -/

section

variable {blanks : Nat} (fits : blanks + 3 ≤ Position.limit)
  (wide : Diagnostic.widestField < blanks + 2)

include fits wide

theorem ofFile_farApart (file : String) :
    ofFile .program file (some (farApart blanks).toByteArray) = ⟨101, ByteArray.empty, none⟩ := by
  rw [ofFile_of_text, Session.stopIn?_farApart fits wide, Session.reply_farApart fits wide,
    String.toByteArray_empty]
  rfl

theorem ofInput_farApart (y : ByteArray) :
    ofInput .program ((farApart blanks).toByteArray ++ y) =
      ⟨101, promptText.toByteArray, none⟩ := by
  rw [ofInput, Session.onBlank_interact_farApart fits wide]
  rfl

end

end Outcome

/-! ### Invocations -/

variable {arguments : List String} {logSetting : Option String}
  {contentsOf : String → Option ByteArray} {input : ByteArray}

theorem invoke_of_error {e : UsageError}
    (rejected : Options.ofArguments arguments logSetting = .error e) :
    invoke arguments logSetting contentsOf input = .ofUsageError e := by
  rw [invoke, rejected]

section

variable {options : Options} (accepted : Options.ofArguments arguments logSetting = .ok options)

include accepted

theorem invoke_of_file {file : String} (named : options.file = some file) :
    invoke arguments logSetting contentsOf input =
      .ofFile options.mode file (contentsOf file) := by
  rw [invoke, accepted]
  simp only [named]

theorem invoke_of_input (unnamed : options.file = none) :
    invoke arguments logSetting contentsOf input = .ofInput options.mode input := by
  rw [invoke, accepted]
  simp only [unnamed]

theorem answersFile_invoke {file : String} (named : options.file = some file) :
    (invoke arguments logSetting contentsOf input).AnswersFile options.mode file
      (contentsOf file) := by
  rw [invoke_of_file accepted named]
  exact Outcome.answersFile_ofFile options.mode file (contentsOf file)

theorem answersInput_invoke (unnamed : options.file = none) :
    (invoke arguments logSetting contentsOf input).AnswersInput options.mode input := by
  rw [invoke_of_input accepted unnamed]
  exact Outcome.answersInput_ofInput options.mode input

/-- Whatever comes of accepted arguments is told apart from a usage error. -/
theorem exitCode_invoke_ne_two : (invoke arguments logSetting contentsOf input).exitCode ≠ 2 := by
  have failure : (invoke arguments logSetting contentsOf input).exitCode ≠ 0 →
      (invoke arguments logSetting contentsOf input).exitCode ≠ 101 →
        (invoke arguments logSetting contentsOf input).exitCode = 1 := by
    cases named : options.file with
    | none => exact (answersInput_invoke accepted named).failure
    | some file => exact (answersFile_invoke accepted named).failure
  intro two
  -- two is neither zero nor one hundred and one, so it would have to be one
  rw [two] at failure
  exact absurd (failure (by decide) (by decide)) (by decide)

end

theorem exitCode_invoke_eq_two_iff :
    (invoke arguments logSetting contentsOf input).exitCode = 2 ↔
      ∃ e, Options.ofArguments arguments logSetting = .error e := by
  constructor
  · intro two
    cases result : Options.ofArguments arguments logSetting with
    | error e => exact ⟨e, rfl⟩
    | ok options => exact absurd two (exitCode_invoke_ne_two result)
  · rintro ⟨e, rejected⟩
    rw [invoke_of_error rejected]
    rfl

theorem invoke_eq_of_logSetting (other : Option String) :
    invoke arguments other contentsOf input = invoke arguments logSetting contentsOf input := by
  simp only [invoke, Options.ofArguments]
  cases Options.takeArguments .default none arguments <;> rfl

/-- Exit code two is for wrong arguments, on which nothing is written. Otherwise the file is answered
that is named, or the input if none is. The log setting has no part in this. -/
theorem invoke_outcome (arguments : List String) (logSetting : Option String)
    (contentsOf : String → Option ByteArray) (input : ByteArray) :
    ((invoke arguments logSetting contentsOf input).exitCode = 2 ↔
      ∃ e, Options.ofArguments arguments logSetting = .error e) ∧
    ((invoke arguments logSetting contentsOf input).exitCode = 2 →
      (invoke arguments logSetting contentsOf input).output = ByteArray.empty) ∧
    (∀ options, Options.ofArguments arguments logSetting = .ok options →
      (∀ file, options.file = some file →
        (invoke arguments logSetting contentsOf input).AnswersFile options.mode file
          (contentsOf file)) ∧
      (options.file = none →
        (invoke arguments logSetting contentsOf input).AnswersInput options.mode input)) ∧
    ∀ other, invoke arguments other contentsOf input =
      invoke arguments logSetting contentsOf input := by
  refine ⟨exitCode_invoke_eq_two_iff, fun two => ?_, fun options accepted => ⟨?_, ?_⟩,
    invoke_eq_of_logSetting⟩
  · obtain ⟨e, rejected⟩ := exitCode_invoke_eq_two_iff.mp two
    rw [invoke_of_error rejected]
    rfl
  · exact fun file named => answersFile_invoke accepted named
  · exact fun unnamed => answersInput_invoke accepted unnamed

/-- The same broken text is a failure in a file and none in the interactive loop, which goes on to
the line that is no text. -/
theorem invoke_outcome_of_broken :
    let source := "é; let a 1;\nlet b = 2;\n"
    let contentsOf : String → Option ByteArray := fun file =>
      if file = "in" then some source.toByteArray else none
    let input := source.toByteArray ++ ⟨#[0x79, 0xFF, 0x0A, 0x7A]⟩
    ((invoke ["in", "--bad"] none contentsOf input).exitCode = 2 ∧
      (invoke ["in", "--bad"] none contentsOf input).output = ByteArray.empty) ∧
    ((invoke ["out", "--tokens"] none contentsOf input).exitCode = 1 ∧
      (invoke ["out", "--tokens"] none contentsOf input).output = ByteArray.empty) ∧
    ((invoke ["in"] none contentsOf input).exitCode = 1 ∧
      (invoke ["in"] none contentsOf input).output =
        (String.join ((parse source).2.map fun d => d.display source "in")).toByteArray) ∧
    (invoke [] none contentsOf source.toByteArray).exitCode = 0 ∧
    ((invoke [] none contentsOf input).exitCode = 1 ∧
      (invoke [] none contentsOf input).AnswersInput .program input) := by
  intro source contentsOf input
  have held : contentsOf "in" = some source.toByteArray := rfl
  have missing (source : String) : contentsOf "out" ≠ some source.toByteArray := nofun
  have broken : (parse source).2 ≠ [] := by decide +kernel
  have narrow : ∀ d ∈ (parse source).2, d.caretColumn source + 1 ≤ Diagnostic.widestField := by
    decide +kernel
  have goesOn : ∀ line ∈ inputLines source.toByteArray, GoesOn .program line := by decide +kernel
  have shown := fun line member => Session.goesOn_iff.mp (goesOn line member)
  simp only [Diagnostic.canDisplay_iff] at shown
  have cut : inputLines input = inputLines source.toByteArray ++ [0x79, 0xFF, 0x0A] :: [[0x7A]] := by
    decide +kernel
  have noText : ¬ IsText [0x79, 0xFF, 0x0A] := by decide +kernel
  obtain ⟨rejects, silent, -, -⟩ := invoke_outcome ["in", "--bad"] none contentsOf input
  have two := rejects.mpr ⟨.unknownFlag "--bad", rfl⟩
  obtain ⟨-, -, answers, -⟩ := invoke_outcome ["out", "--tokens"] none contentsOf input
  have unread := (answers ⟨.tokens, some "out", .warn⟩ rfl).1 "out" rfl
  obtain ⟨-, -, answers, -⟩ := invoke_outcome ["in"] none contentsOf input
  have read := (answers ⟨.program, some "in", .warn⟩ rfl).1 "in" rfl
  obtain ⟨-, -, answers, -⟩ := invoke_outcome [] none contentsOf source.toByteArray
  have whole := (answers ⟨.program, none, .warn⟩ rfl).2 rfl
  obtain ⟨-, -, answers, -⟩ := invoke_outcome [] none contentsOf input
  have stopped := (answers ⟨.program, none, .warn⟩ rfl).2 rfl
  have unreadOne : (invoke ["out", "--tokens"] none contentsOf input).exitCode = 1 := by
    refine unread.failure (fun success => ?_) fun wide => ?_
    · obtain ⟨source, same, -⟩ := unread.success_iff.mp success
      exact missing source same
    · obtain ⟨source, same, -⟩ := unread.wide_iff.mp wide
      exact missing source same
  have readNarrow : (invoke ["in"] none contentsOf input).exitCode ≠ 101 := by
    -- the text that the file holds is the only one that could have a diagnostic without a display
    intro wide
    obtain ⟨other, same, -, d, member, tooWide⟩ := read.wide_iff.mp wide
    obtain rfl : other = source := String.toByteArray_inj.mp (Option.some.inj same).symm
    exact tooWide (narrow d member)
  have readOne : (invoke ["in"] none contentsOf input).exitCode = 1 := by
    refine read.failure (fun success => ?_) readNarrow
    obtain ⟨other, same, clean⟩ := read.success_iff.mp success
    obtain rfl : other = source := String.toByteArray_inj.mp (Option.some.inj same).symm
    exact broken (clean.resolve_left nofun)
  exact ⟨⟨two, silent two⟩, ⟨unreadOne, unread.unreadable missing⟩,
    ⟨readOne, read.broken source held rfl broken readNarrow⟩, whole.success_iff.mpr shown,
    stopped.refused_iff.mpr ⟨_, _, _, cut, goesOn, noText⟩, stopped⟩

/-- A text with a diagnostic that is too far from the start of its line ends with an exit code of its
own, in a file and in the interactive loop, and the diagnostic is not shown. -/
theorem invoke_stops_at_wide_line :
    ((parse (farApart 70000)).2 = [⟨.illegalToken "@", ⟨70001⟩⟩] ∧
      invoke ["in"] none (fun _ => some (farApart 70000).toByteArray) ByteArray.empty =
        ⟨101, ByteArray.empty, none⟩) ∧
    (∀ line ∈ inputLines (farApart 70000).toByteArray, IsText line) ∧
      invoke [] none (fun _ => none) (farApart 70000).toByteArray =
        ⟨101, promptText.toByteArray, none⟩ := by
  have file := @Outcome.ofFile_farApart 70000 (by decide) (by decide) "in"
  have input := @Outcome.ofInput_farApart 70000 (by decide) (by decide) ByteArray.empty
  rw [ByteArray.append_empty] at input
  have fileNamed : Options.ofArguments ["in"] none = .ok ⟨.program, some "in", .warn⟩ := rfl
  have noneNamed : Options.ofArguments [] none = .ok ⟨.program, none, .warn⟩ := rfl
  refine ⟨⟨diagnostics_farApart (by decide), ?_⟩, Session.isText_of_mem_farApart 70000, ?_⟩
  · rw [invoke_of_file fileNamed rfl]
    exact file
  · rw [invoke_of_input noneNamed rfl]
    exact input

end Frontend
