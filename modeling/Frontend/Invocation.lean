import Frontend.Options

/-!
# Invocations

An invocation answers its source file, or runs the interactive loop over its input if it names no
file. The exit code tells how it went: two for wrong arguments, which are explained together with
the usage; one hundred and one if a diagnostic has no display; one for a file that cannot be read as
text, for a file with diagnostics, and for a loop that was stopped otherwise; zero if all went well.
-/
namespace Frontend

/-- The exit code of what was stopped. -/
def Stop.exitCode : Stop → UInt8
  | .deviceFull => 1
  | .notText => 1
  | .tooWide => 101

/-- How an invocation ends. -/
structure Outcome where
  exitCode : UInt8
  output : ByteArray
  /-- The explanation of wrong arguments. -/
  complaint : Option String

namespace Outcome

/-- What is written on wrong arguments. -/
def usage (e : UsageError) : String :=
  "Error: " ++ e.message ++ "\nusage: interpreter [--tokens|--parse] [FILE]\n"

/-- The outcome of wrong arguments. -/
def ofUsageError (e : UsageError) : Outcome := ⟨2, ByteArray.empty, some (usage e)⟩

/-- The outcome of answering a file, given what it holds; `none` if it cannot be read. -/
def ofFile (mode : Mode) (file : String) (contents : Option ByteArray) : Outcome :=
  match contents.bind String.fromUTF8? with
  | none => ⟨1, ByteArray.empty, none⟩
  | some source =>
    let (result, output) := (Session.answer mode source file).onBlank none
    match result with
    | .ok true => ⟨0, output, none⟩
    | .ok false => ⟨1, output, none⟩
    | .error stop => ⟨stop.exitCode, output, none⟩

/-- The outcome of the interactive loop over an input. -/
def ofInput (mode : Mode) (input : ByteArray) : Outcome :=
  let (result, output) := (Session.interact mode input).onBlank none
  match result with
  | .ok () => ⟨0, output, none⟩
  | .error stop => ⟨stop.exitCode, output, none⟩

end Outcome

/-- The outcome of an invocation. `contentsOf` gives what a file holds, and `none` if it cannot be
read. -/
def invoke (arguments : List String) (logSetting : Option String)
    (contentsOf : String → Option ByteArray) (input : ByteArray) : Outcome :=
  match Options.ofArguments arguments logSetting with
  | .error e => .ofUsageError e
  | .ok options =>
    match options.file with
    | some file => .ofFile options.mode file (contentsOf file)
    | none => .ofInput options.mode input

end Frontend
