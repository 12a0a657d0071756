import Frontend.Tree.Expression

/-!
# Statements

A statement binds a name, returns a value, or is a bare expression. The text of a binding or a
return ends in a semicolon, that of a bare expression does not.
-/
namespace Frontend

inductive Statement where
  | binding (token : Token) (name : Identifier) (value : Expression)
  | returning (token : Token) (value : Expression)
  /-- A bare expression, with its first token. -/
  | bare (token : Token) (value : Expression)
  deriving DecidableEq

namespace Statement

def token : Statement → Token
  | binding token _ _ => token
  | returning token _ => token
  | bare token _ => token

def value : Statement → Expression
  | binding _ _ value => value
  | returning _ value => value
  | bare _ value => value

def text : Statement → String
  | binding token name value => token.literal ++ " " ++ name.value ++ " = " ++ value.text ++ ";"
  | returning token value => token.literal ++ " " ++ value.text ++ ";"
  | bare _ value => value.text

end Statement

end Frontend
