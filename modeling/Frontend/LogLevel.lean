import Frontend.Text.Decimal
import Frontend.Text.Whitespace

/-!
# Log levels

A log level is set by name, in upper or lower case, or by number from one for errors only to five
for everything. A setting that is neither asks for warnings, as does no setting at all.
-/
namespace Frontend

/-- How much is logged, least first. -/
inductive LogLevel where
  | error
  | warn
  | info
  | debug
  | trace
  deriving DecidableEq, Repr

namespace LogLevel

/-- The level when none is set, or something that is no level. -/
def default : LogLevel := warn

def name : LogLevel → String
  | error => "ERROR"
  | warn => "WARN"
  | info => "INFO"
  | debug => "DEBUG"
  | trace => "TRACE"

def ofNumber? : Nat → Option LogLevel
  | 1 => some error
  | 2 => some warn
  | 3 => some info
  | 4 => some debug
  | 5 => some trace
  | _ => none

/-- The level of a name in any case; only ASCII letters have a case. -/
def ofName? (name : List Char) : Option LogLevel :=
  [error, warn, info, debug, trace].find? fun level => level.name.toList == name.map Char.toUpper

/-- The number that a text of decimal digits stands for; it may begin with a plus sign. -/
def number? (text : List Char) : Option Nat :=
  let digits := if text.head? = some '+' then text.tail else text
  if digits ≠ [] ∧ digits.all Char.isDigit then some (Text.decimalValue digits) else none

/-- The level that a setting asks for. White space around it does not count. -/
def ofSetting? (setting : String) : Option LogLevel :=
  let text := Text.trim setting.toList
  ((number? text).bind ofNumber?).or (ofName? text)

/-- The level that an optional setting asks for. -/
def ofSetting (setting : Option String) : LogLevel := (setting.bind ofSetting?).getD default

end LogLevel

end Frontend
