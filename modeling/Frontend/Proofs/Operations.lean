import Frontend.Proofs.Items

/-!
# Operations on a parser

The operations that move a parser or change its table, as data, so that sequences of them can be
spoken of: `Parser.perform` performs one, and `Parser.run` performs them one after the other. No
operation steps back (`Parser.reaches_perform`), and what each adds to the diagnostics is
`Parser.recorded`, which is nothing unless it reads a program.
-/
namespace Frontend

namespace Parser

inductive Operation where
  | advance
  | skipOptional (kind : Kind)
  | expect (kind : Kind)
  | expression (minimum : BindingPower)
  | leading (handler : LeadingHandler)
  | binary (left : Expression) (power : BindingPower)
  | statementAs (handler : StatementHandler)
  | statement
  | program
  | onStatement (kind : Kind) (handler : StatementHandler)
  | onLeading (kind : Kind) (handler : LeadingHandler)
  | onJoining (kind : Kind)
  | restoreStandard
  deriving DecidableEq

/-- What an operation on a parser answers. -/
inductive Answer where
  | done
  | token (result : Except Diagnostic Token)
  | expression (result : Except Diagnostic Expression)
  | statement (result : Except Diagnostic Statement)
  | program (program : Program)

/-- What an operation answers, and the parser behind it. -/
def perform (p : Parser) : Operation → Answer × Parser
  | .advance => (.done, p.advance)
  | .skipOptional kind => (.done, p.skipOptional kind)
  | .expect kind => (p.expect kind).map .token id
  | .expression minimum => (p.parseExpression minimum).map .expression id
  | .leading handler => (p.parseLeading handler).map .expression id
  | .binary left power => (p.parseBinary left power).map .expression id
  | .statementAs handler => (p.parseStatementAs handler).map .statement id
  | .statement => p.parseStatement.map .statement id
  | .program => p.parseProgram.map .program id
  | .onStatement kind handler => (.done, p.onStatement kind handler)
  | .onLeading kind handler => (.done, p.onLeading kind handler)
  | .onJoining kind => (.done, p.onJoining kind)
  | .restoreStandard => (.done, p.restoreStandard)

/-- Performs operations one after the other: behind each of them, its answer and the parser. -/
def run (p : Parser) : List Operation → List (Answer × Parser)
  | [] => []
  | operation :: later => p.perform operation :: (p.perform operation).2.run later

theorem reaches_perform (p : Parser) (operation : Operation) :
    p.window.Reaches (p.perform operation).2.window := by
  cases operation with
  | advance => exact p.window.reaches_advance
  | skipOptional kind => exact p.window.reaches_skipOptional kind
  | expect kind => exact (p.window.expect kind).reached
  | expression minimum => exact (p.handlers.readExpression minimum p.window).reached
  | leading handler => exact (p.handlers.readLeading handler p.window).reached
  | binary left power => exact (p.handlers.readBinary left power p.window).reached
  | statementAs handler => exact (p.handlers.readStatementAs handler p.window).reached
  | statement => exact (p.handlers.readStatement p.window).reached
  | program => exact Handlers.reaches_readItems p.window
  | onStatement kind handler => exact .refl p.window
  | onLeading kind handler => exact .refl p.window
  | onJoining kind => exact .refl p.window
  | restoreStandard => exact .refl p.window

/-- What an operation adds to the diagnostics of a parser. -/
def recorded (p : Parser) : Operation → List Diagnostic
  | .program => diagnosticsOfItems (p.handlers.readItems p.window).1
  | _ => []

theorem recorded_of_ne {p : Parser} {operation : Operation} (other : operation ≠ .program) :
    p.recorded operation = [] := by
  cases operation with
  | program => exact absurd rfl other
  | _ => rfl

theorem diagnostics_perform (p : Parser) (operation : Operation) :
    (p.perform operation).2.diagnostics = p.diagnostics ++ p.recorded operation := by
  cases operation with
  | program => rfl
  | _ => exact (List.append_nil _).symm

theorem expect_of_error {p : Parser} {kind : Kind} {d : Diagnostic}
    (failed : (p.expect kind).1 = .error d) : (p.expect kind).2 = p := by
  simp only [expect, take, Window.expect] at failed ⊢
  split
  next found =>
    rw [if_pos found] at failed
    cases failed
  · rfl

end Parser

end Frontend
