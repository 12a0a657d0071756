import Frontend.LogLevel
import Frontend.Session.Interaction

/-!
# Options

Arguments that begin with two dashes are flags and choose the mode, the last one counting; the one
other argument names a source file. Arguments are taken from left to right, and the first that is
out of place decides the error.
-/
namespace Frontend

/-- What an invocation asks for. -/
structure Options where
  mode : Mode
  /-- The source file; without one, the interactive loop is meant. -/
  file : Option String
  logLevel : LogLevel
  deriving DecidableEq, Repr

/-- What is wrong with the arguments. -/
inductive UsageError where
  | unknownFlag (flag : String)
  | tooManyFiles (first second : String)
  deriving DecidableEq, Repr

namespace UsageError

def name : UsageError → String
  | unknownFlag _ => "UnknownFlag"
  | tooManyFiles _ _ => "TooManyFiles"

def message : UsageError → String
  | unknownFlag flag => "unknown flag " ++ Text.quoted flag ++ ", expected --tokens or --parse"
  | tooManyFiles first second =>
    "expected at most one source file, got " ++ Text.quoted first ++ " and " ++ Text.quoted second

end UsageError

namespace Options

def isFlag (argument : String) : Bool := ['-', '-'].isPrefixOf argument.toList

/-- The mode that a flag chooses. -/
def modeOfFlag? (flag : String) : Option Mode :=
  if flag = "--tokens" then some .tokens
  else if flag = "--parse" then some .program
  else none

/-- The mode and the file after further arguments, given those before. -/
def takeArguments (mode : Mode) (file : Option String) :
    List String → Except UsageError (Mode × Option String)
  | [] => .ok (mode, file)
  | argument :: rest =>
    if isFlag argument then
      match modeOfFlag? argument with
      | some chosen => takeArguments chosen file rest
      | none => .error (.unknownFlag argument)
    else
      match file with
      | none => takeArguments mode (some argument) rest
      | some first => .error (.tooManyFiles first argument)

/-- The options of an invocation with the given arguments and log setting. -/
def ofArguments (arguments : List String) (logSetting : Option String) :
    Except UsageError Options :=
  (takeArguments .default none arguments).map fun (mode, file) =>
    ⟨mode, file, .ofSetting logSetting⟩

end Options

end Frontend
