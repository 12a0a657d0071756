import Frontend.Token.Basic

/-!
# Diagnostics

A diagnostic says what is wrong with a source text and where. The cause is kept as data; its name,
its message and the tip for the reader are derived from it.
-/
namespace Frontend

inductive Cause where
  /-- A character that begins no token stands where an operand has to. -/
  | illegalToken (literal : String)
  /-- A token of one kind is required and another one follows. -/
  | unexpectedToken (expected found : Kind)
  /-- A token that cannot begin an operand stands where one has to. -/
  | missingOperand (kind : Kind)
  /-- An integer is too large. -/
  | integerOutOfRange (literal : String)
  deriving DecidableEq, Repr

namespace Cause

def name : Cause → String
  | illegalToken _ => "IllegalToken"
  | unexpectedToken _ _ => "UnexpectedToken"
  | missingOperand _ => "NoPrefixParseFn"
  | integerOutOfRange _ => "IntegerParseError"

def message : Cause → String
  | illegalToken literal => "illegal token " ++ Text.quoted literal
  | unexpectedToken expected found =>
    "expected next token to be " ++ expected.name ++ ", got " ++ found.name ++ " instead"
  | missingOperand kind => "no prefix parse function for " ++ kind.name ++ " found"
  | integerOutOfRange literal => "could not parse " ++ Text.quoted literal ++ " as integer"

/-- A hint for the reader, if there is one to give. -/
def tip? : Cause → Option String
  | illegalToken _ => none
  | unexpectedToken expected found => some (unexpectedToken expected found).message
  | missingOperand kind =>
    some ("`" ++ kind.name ++ "` cannot start an expression, is an operand missing?")
  | integerOutOfRange literal =>
    some ("Invalid integer: `" ++ literal ++ "`, is it above the integer limit?")

end Cause

/-- A cause and the place it was found at. -/
structure Diagnostic where
  cause : Cause
  position : Position
  deriving DecidableEq, Repr

end Frontend
