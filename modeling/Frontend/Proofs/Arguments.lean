import Frontend.Options
import Mathlib.Data.List.Induction

/-!
# Which arguments are accepted

Arguments are accepted if every flag among them is known and at most one of them is no flag
(`Options.Accepted`). The last flag gives the mode then, and the argument that is no flag the file.
Otherwise the first argument that is out of place (`Options.Misplaced`) decides the error, whatever
comes behind it (`Options.ofArguments_outcome`). The reason is that arguments are taken one after
the other, and all that is kept of them is a mode and a file (`Options.takeArguments_append`), so
only one argument behind accepted ones has to be looked at.
-/
namespace Frontend

namespace Options

theorem isFlag_iff {argument : String} :
    isFlag argument = true ↔ ∃ rest, argument = "--" ++ rest := by
  rw [isFlag, List.isPrefixOf_iff_prefix]
  constructor
  · rintro ⟨rest, spelled⟩
    refine ⟨String.ofList rest, String.toList_inj.mp ?_⟩
    rw [String.toList_append, ← spelled]
    exact congrArg _ String.toList_ofList.symm
  · rintro ⟨rest, rfl⟩
    rw [String.toList_append]
    exact ⟨rest.toList, rfl⟩

/-! ### Accepted and misplaced arguments -/

def flags (arguments : List String) : List String := arguments.filter isFlag

/-- The arguments that are no flags. -/
def files (arguments : List String) : List String := arguments.filter fun other => !isFlag other

/-- The flags that choose a mode. -/
def IsKnown (flag : String) : Prop := flag = "--tokens" ∨ flag = "--parse"

instance (flag : String) : Decidable (IsKnown flag) :=
  inferInstanceAs (Decidable (flag = "--tokens" ∨ flag = "--parse"))

/-- Every flag is known, and at most one argument is no flag. -/
structure Accepted (arguments : List String) : Prop where
  known : ∀ rest, "--" ++ rest ∈ arguments → IsKnown ("--" ++ rest)
  single : (files arguments).length ≤ 1

theorem accepted_iff {arguments : List String} :
    Accepted arguments ↔
      (∀ flag ∈ flags arguments, IsKnown flag) ∧ (files arguments).length ≤ 1 := by
  constructor
  · rintro ⟨known, single⟩
    refine ⟨fun flag member => ?_, single⟩
    obtain ⟨given, dashed⟩ := List.mem_filter.mp member
    obtain ⟨rest, rfl⟩ := isFlag_iff.mp dashed
    exact known rest given
  · rintro ⟨known, single⟩
    refine ⟨fun rest given => ?_, single⟩
    exact known _ (List.mem_filter.mpr ⟨given, isFlag_iff.mpr ⟨rest, rfl⟩⟩)

instance (arguments : List String) : Decidable (Accepted arguments) :=
  decidable_of_iff _ accepted_iff.symm

/-- An argument that may not stand behind the given ones, with its error. -/
inductive Misplaced (before : List String) : String → UsageError → Prop
  | flag {rest : String} : ¬ IsKnown ("--" ++ rest) →
      Misplaced before ("--" ++ rest) (.unknownFlag ("--" ++ rest))
  | file {first argument : String} : isFlag argument = false → files before = [first] →
      Misplaced before argument (.tooManyFiles first argument)

/-- The mode that the last of the flags chooses. -/
def lastMode (arguments : List String) : Mode :=
  if (flags arguments).getLast? = some "--tokens" then .tokens else .program

variable {before : List String} {argument : String}

section

variable (dashed : isFlag argument = true)

include dashed

theorem flags_concat_flag : flags (before ++ [argument]) = flags before ++ [argument] := by
  simp [flags, dashed]

theorem files_concat_flag : files (before ++ [argument]) = files before := by
  simp [files, dashed]

/-- A known flag behind other arguments chooses the mode. -/
theorem lastMode_concat_flag (known : IsKnown argument) :
    modeOfFlag? argument = some (lastMode (before ++ [argument])) := by
  rw [lastMode, flags_concat_flag dashed, List.getLast?_concat]
  rcases known with rfl | rfl <;> decide

end

section

variable (undashed : isFlag argument = false)

include undashed

theorem flags_concat_file : flags (before ++ [argument]) = flags before := by
  simp [flags, undashed]

theorem files_concat_file : files (before ++ [argument]) = files before ++ [argument] := by
  simp [files, undashed]

end

theorem Accepted.files_eq {arguments : List String} (accepted : Accepted arguments) :
    files arguments = [] ∨ ∃ file, files arguments = [file] := by
  rcases Nat.le_one_iff_eq_zero_or_eq_one.mp accepted.single with none_left | one_left
  · exact .inl (List.length_eq_zero_iff.mp none_left)
  · exact .inr (List.length_eq_one_iff.mp one_left)

theorem Accepted.of_concat (accepted : Accepted (before ++ [argument])) : Accepted before := by
  obtain ⟨known, single⟩ := accepted
  rw [files, List.filter_append, List.length_append] at single
  refine ⟨fun rest member => ?_, Nat.le_of_add_right_le single⟩
  exact known rest (List.mem_append_left _ member)

/-- Behind accepted arguments, an argument is accepted or misplaced. -/
theorem Accepted.concat_or_misplaced (accepted : Accepted before) (argument : String) :
    Accepted (before ++ [argument]) ∨ ∃ e, Misplaced before argument e := by
  have known := (accepted_iff.mp accepted).1
  cases dashed : isFlag argument with
  | true =>
    by_cases fits : IsKnown argument
    · refine .inl (accepted_iff.mpr ⟨?_, by rw [files_concat_flag dashed]; exact accepted.single⟩)
      rw [flags_concat_flag dashed, List.forall_mem_append]
      exact ⟨known, List.forall_mem_singleton.mpr fits⟩
    · obtain ⟨rest, rfl⟩ := isFlag_iff.mp dashed
      exact .inr ⟨_, .flag fits⟩
  | false =>
    rcases accepted.files_eq with empty | ⟨first, taken⟩
    · refine .inl (accepted_iff.mpr ⟨by rwa [flags_concat_file dashed], ?_⟩)
      rw [files_concat_file dashed, empty]
      exact Nat.le_refl 1
    · exact .inr ⟨_, .file dashed taken⟩

/-- Arguments are accepted, or there is a first misplaced one. -/
theorem accepted_or_misplaced (arguments : List String) :
    Accepted arguments ∨
      ∃ before argument after e, arguments = before ++ argument :: after ∧ Accepted before ∧
        Misplaced before argument e := by
  induction arguments using List.reverseRecOn with
  | nil => exact .inl ⟨by simp, by simp [files]⟩
  | append_singleton arguments last ih =>
    rcases ih with accepted | ⟨before, argument, after, e, split, accepted, misplaced⟩
    · rcases accepted.concat_or_misplaced last with longer | ⟨e, misplaced⟩
      · exact .inl longer
      · exact .inr ⟨arguments, last, [], e, rfl, accepted, misplaced⟩
    · -- the first misplaced argument stays the first, whatever comes behind it
      exact .inr ⟨before, argument, after ++ [last], e, by simp [split], accepted, misplaced⟩

/-! ### One argument after the other -/

section

variable {mode : Mode} {file : Option String} {rest : List String}

theorem takeArguments_flag {chosen : Mode} (dashed : isFlag argument = true)
    (known : modeOfFlag? argument = some chosen) :
    takeArguments mode file (argument :: rest) = takeArguments chosen file rest := by
  rw [takeArguments.eq_def]
  simp only [if_pos dashed, known]

theorem takeArguments_unknown (dashed : isFlag argument = true) (unknown : ¬ IsKnown argument) :
    takeArguments mode file (argument :: rest) = .error (.unknownFlag argument) := by
  obtain ⟨noTokens, noParse⟩ := not_or.mp unknown
  rw [takeArguments.eq_def]
  simp only [if_pos dashed, modeOfFlag?, if_neg noTokens, if_neg noParse]

theorem takeArguments_file (undashed : isFlag argument = false) :
    takeArguments mode none (argument :: rest) = takeArguments mode (some argument) rest := by
  rw [takeArguments.eq_def]
  simp only [undashed, Bool.false_eq_true, if_false]

theorem takeArguments_second {first : String} (undashed : isFlag argument = false) :
    takeArguments mode (some first) (argument :: rest) = .error (.tooManyFiles first argument) := by
  rw [takeArguments.eq_def]
  simp only [undashed, Bool.false_eq_true, if_false]

/-- Of arguments that have been taken, the mode and the file are all that is kept. -/
theorem takeArguments_append {taken : Mode × Option String}
    (ok : takeArguments mode file before = .ok taken) (after : List String) :
    takeArguments mode file (before ++ after) = takeArguments taken.1 taken.2 after := by
  fun_induction takeArguments mode file before with
  | case1 mode file =>
    obtain rfl := Except.ok.inj ok
    rfl
  | case2 mode file flag rest dashed chosen known ih =>
    rw [List.cons_append, takeArguments_flag dashed known]
    exact ih ok
  | case4 mode other rest undashed ih =>
    rw [List.cons_append, takeArguments_file (by simpa using undashed)]
    exact ih ok
  | case3 | case5 => cases ok

end

theorem takeArguments_of_accepted {arguments : List String} (accepted : Accepted arguments) :
    takeArguments .default none arguments =
      .ok (lastMode arguments, (files arguments).head?) := by
  -- from the end, where the flag is that chooses the mode
  induction arguments using List.reverseRecOn with
  | nil => rfl
  | append_singleton before argument ih =>
    rw [takeArguments_append (ih accepted.of_concat)]
    cases dashed : isFlag argument with
    | true =>
      have known : IsKnown argument := by
        obtain ⟨rest, rfl⟩ := isFlag_iff.mp dashed
        exact accepted.known rest List.mem_concat_self
      rw [takeArguments_flag dashed (lastMode_concat_flag dashed known), files_concat_flag dashed]
      rfl
    | false =>
      have single := accepted.single
      rw [files_concat_file dashed, List.length_append, List.length_singleton] at single
      have empty : files before = [] := List.length_eq_zero_iff.mp (by omega)
      rw [files_concat_file dashed, empty, List.head?_nil, takeArguments_file dashed, lastMode,
        lastMode, flags_concat_file dashed]
      rfl

theorem takeArguments_of_misplaced (accepted : Accepted before) {e : UsageError}
    (misplaced : Misplaced before argument e) (after : List String) :
    takeArguments .default none (before ++ argument :: after) = .error e := by
  rw [takeArguments_append (takeArguments_of_accepted accepted)]
  cases misplaced with
  | flag unknown => exact takeArguments_unknown (isFlag_iff.mpr ⟨_, rfl⟩) unknown
  | file undashed taken =>
    rw [taken]
    exact takeArguments_second undashed

/-! ### The outcome -/

variable {arguments : List String} {logSetting : Option String}

theorem ofArguments_of_misplaced (accepted : Accepted before) {e : UsageError}
    (misplaced : Misplaced before argument e) (after : List String) :
    ofArguments (before ++ argument :: after) logSetting = .error e := by
  rw [ofArguments, takeArguments_of_misplaced accepted misplaced after]
  rfl

theorem ofArguments_of_accepted (accepted : Accepted arguments) :
    ofArguments arguments logSetting =
      .ok ⟨lastMode arguments, (files arguments).head?, .ofSetting logSetting⟩ := by
  rw [ofArguments, takeArguments_of_accepted accepted]
  rfl

theorem ofArguments_eq_ok_iff {options : Options} :
    ofArguments arguments logSetting = .ok options ↔
      Accepted arguments ∧
        options = ⟨lastMode arguments, (files arguments).head?, .ofSetting logSetting⟩ := by
  constructor
  · intro ok
    rcases accepted_or_misplaced arguments with
      accepted | ⟨_, _, after, e, rfl, accepted, misplaced⟩
    · rw [ofArguments_of_accepted accepted] at ok
      exact ⟨accepted, (Except.ok.inj ok).symm⟩
    · rw [ofArguments_of_misplaced accepted misplaced after] at ok
      cases ok
  · rintro ⟨accepted, rfl⟩
    exact ofArguments_of_accepted accepted

theorem ofArguments_eq_error_iff {e : UsageError} :
    ofArguments arguments logSetting = .error e ↔
      ∃ before argument after, arguments = before ++ argument :: after ∧ Accepted before ∧
        Misplaced before argument e := by
  constructor
  · intro failed
    rcases accepted_or_misplaced arguments with
      accepted | ⟨before, argument, after, e', rfl, accepted, misplaced⟩
    · rw [ofArguments_of_accepted accepted] at failed
      cases failed
    · rw [ofArguments_of_misplaced accepted misplaced after] at failed
      obtain rfl := Except.error.inj failed
      exact ⟨before, argument, after, rfl, accepted, misplaced⟩
  · rintro ⟨before, argument, after, rfl, accepted, misplaced⟩
    exact ofArguments_of_misplaced accepted misplaced after

theorem Accepted.toList_head?_files (accepted : Accepted arguments) :
    (files arguments).head?.toList = files arguments := by
  rcases accepted.files_eq with empty | ⟨file, taken⟩
  · rw [empty]
    rfl
  · rw [taken]
    rfl

theorem map_ofArguments (arguments : List String) (logSetting : Option String) :
    (ofArguments arguments logSetting).map (fun options => (options.mode, options.file)) =
      takeArguments .default none arguments := by
  rw [ofArguments]
  cases takeArguments .default none arguments <;> rfl

/-- Arguments succeed if they are accepted, and otherwise fail with the error of the first misplaced
one. The log setting has no part in this. -/
theorem ofArguments_outcome (arguments : List String) (logSetting : Option String) :
    ((∃ options, ofArguments arguments logSetting = .ok options) ↔ Accepted arguments) ∧
      (∀ options, ofArguments arguments logSetting = .ok options →
        options.mode = lastMode arguments ∧ options.file.toList = files arguments) ∧
      (∀ e, ofArguments arguments logSetting = .error e ↔
        ∃ before argument after, arguments = before ++ argument :: after ∧ Accepted before ∧
          Misplaced before argument e) ∧
      ∀ other, (ofArguments arguments other).map (fun options => (options.mode, options.file)) =
        (ofArguments arguments logSetting).map fun options => (options.mode, options.file) := by
  refine ⟨⟨?_, ?_⟩, fun options ok => ?_, fun e => ofArguments_eq_error_iff, fun other => ?_⟩
  · rintro ⟨options, ok⟩
    exact (ofArguments_eq_ok_iff.mp ok).1
  · exact fun accepted => ⟨_, ofArguments_of_accepted accepted⟩
  · obtain ⟨accepted, rfl⟩ := ofArguments_eq_ok_iff.mp ok
    exact ⟨rfl, accepted.toList_head?_files⟩
  · rw [map_ofArguments, map_ofArguments]

/-- The last of two contradicting flags counts, around a file that is only a dash. A second file is
the error even where an unknown flag stands behind it. -/
theorem ofArguments_outcome_for_odd_files :
    (∃ options, ofArguments ["--tokens", "-", "--parse"] (some "debug") = .ok options ∧
      options.mode = .program ∧ options.file.toList = ["-"]) ∧
      ofArguments ["", "--tokens", "-x", "--bad"] none = .error (.tooManyFiles "" "-x") := by
  obtain ⟨success, chosen, -, -⟩ := ofArguments_outcome ["--tokens", "-", "--parse"] (some "debug")
  obtain ⟨-, -, failure, -⟩ := ofArguments_outcome ["", "--tokens", "-x", "--bad"] none
  obtain ⟨options, ok⟩ := success.mpr (by decide)
  have second : Misplaced ["", "--tokens"] "-x" (.tooManyFiles "" "-x") := .file rfl rfl
  exact ⟨⟨options, ok, chosen options ok⟩,
    (failure _).mpr ⟨["", "--tokens"], "-x", ["--bad"], rfl, by decide, second⟩⟩

end Options

end Frontend
