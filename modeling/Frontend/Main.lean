import Frontend.Invocation

/-!
# The command line

Reads the arguments, the source file and standard input, and writes what the library answers. The
interactive loop answers each line as soon as it has been read.
-/
namespace Frontend

/-- The next line of a stream, up to and including its newline; empty at the end of the stream. -/
partial def readLine (stream : IO.FS.Stream) (line : ByteArray) : IO ByteArray := do
  let byte ← stream.read 1
  if byte.isEmpty then return line
  let longer := line ++ byte
  if byte[0]? == some '\n'.toUInt8 then return longer
  readLine stream longer

/-- The interactive loop over standard input. -/
partial def interactive (mode : Mode) : IO UInt8 := do
  let output ← IO.getStdout
  output.write Session.promptText.toByteArray
  output.flush
  let line ← readLine (← IO.getStdin) ByteArray.empty
  if line.isEmpty then return 0
  let (result, answered) := (Session.answerLine mode line.toList).onBlank none
  output.write answered
  match result with
  | .ok () => interactive mode
  | .error stop => return stop.exitCode

/-- What a file holds; `none` if it cannot be read. -/
def contents? (file : String) : IO (Option ByteArray) := do
  match ← (IO.FS.readBinFile file).toBaseIO with
  | .ok bytes => return some bytes
  | .error _ => return none

/-- Writes an outcome and gives its exit code. -/
def conclude (outcome : Outcome) : IO UInt8 := do
  (← IO.getStdout).write outcome.output
  if let some complaint := outcome.complaint then IO.eprint complaint
  return outcome.exitCode

end Frontend

/-- The command line of the front end. -/
def main (arguments : List String) : IO UInt32 := do
  let logSetting ← IO.getEnv "INTERPRETER_LOG"
  let code ← match Frontend.Options.ofArguments arguments logSetting with
    | .error e => Frontend.conclude (.ofUsageError e)
    | .ok options =>
      match options.file with
      | some file => do
        let contents ← Frontend.contents? file
        Frontend.conclude (.ofFile options.mode file contents)
      | none => Frontend.interactive options.mode
  return code.toUInt32
