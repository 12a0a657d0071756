import Frontend.Token.Basic

/-!
# Expressions

An expression is a name, an integer, or an operator applied to one or two operands. Every node
keeps the token it was read from. `text` writes an expression with each operation in parentheses,
so the text shows the grouping without any rule of precedence.
-/
namespace Frontend

/-- A name with the token it was read from. -/
structure Identifier where
  token : Token
  value : String
  deriving DecidableEq, Repr

inductive Expression where
  | identifier (name : Identifier)
  | integer (token : Token) (value : Int64)
  /-- An operator before its operand. -/
  | unary (token : Token) (operator : String) (operand : Expression)
  /-- An operator between two operands. -/
  | binary (token : Token) (left : Expression) (operator : String) (right : Expression)
  deriving DecidableEq

namespace Expression

/-- The token of the node: for an operation, the operator's. -/
def token : Expression → Token
  | identifier name => name.token
  | integer token _ => token
  | unary token _ _ => token
  | binary token _ _ _ => token

/-- The expression as text. An integer is written as in the source. -/
def text : Expression → String
  | identifier name => name.value
  | integer token _ => token.literal
  | unary _ operator operand => "(" ++ operator ++ operand.text ++ ")"
  | binary _ left operator right => "(" ++ left.text ++ " " ++ operator ++ " " ++ right.text ++ ")"

end Expression

end Frontend
