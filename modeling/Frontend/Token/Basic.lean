import Frontend.Position
import Frontend.Text.Quoted
import Frontend.Token.Kind

/-!
# Tokens

A token is a kind, the text it was cut from, and the position of that text.
-/
namespace Frontend

/-- A classified piece of source text. -/
structure Token where
  kind : Kind
  literal : String
  position : Position
  deriving DecidableEq, Repr, Inhabited

namespace Token

/-- The token that stands behind the last one of a text. -/
def endOfInput (position : Position) : Token := ⟨.endOfInput, "", position⟩

/-- Whether the token is the end of the text. -/
def isEnd (token : Token) : Bool := token.kind == .endOfInput

/-- The token on one line: its kind, and its text in quotes. The position is left out. -/
def describe (token : Token) : String :=
  "Token \x7b kind: " ++ token.kind.name ++ ", literal: " ++ Text.quoted token.literal ++ " \x7d"

end Token

end Frontend
