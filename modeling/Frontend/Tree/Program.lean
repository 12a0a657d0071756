import Frontend.Tree.Statement

/-!
# Programs

A program is its statements in source order.
-/
namespace Frontend

structure Program where
  statements : List Statement
  deriving DecidableEq

namespace Program

/-- The literal of the token that begins the program; empty if there is no statement. -/
def tokenLiteral (program : Program) : String :=
  match program.statements with
  | [] => ""
  | first :: _ => first.token.literal

/-- The statements as text, one directly after the other. -/
def text (program : Program) : String := String.join (program.statements.map Statement.text)

end Program

end Frontend
