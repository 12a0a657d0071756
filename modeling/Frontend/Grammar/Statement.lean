import Frontend.Grammar.Expression
import Frontend.Tree.Statement

/-!
# Reading statements

A statement is read as its first token says: a binding, a return, or else a bare expression. A
semicolon behind it belongs to it but may be missing. Reading stops on the last token of the
statement.
-/
namespace Frontend

namespace Handlers

/-- Reads the expression of a statement, with the semicolon behind it. -/
def readValue (h : Handlers) (w : Window) : Reading w Expression :=
  (h.readExpression .default w).thenOptional .semicolon

/-- Reads a binding; the current token is its keyword. -/
def readBinding (h : Handlers) (w : Window) : Reading w Statement :=
  (w.expect .identifier).andThen fun name afterName _ =>
    (afterName.expect .assignment).andThen fun _ afterSign _ =>
      .further afterSign.reaches_advance <|
        (h.readValue afterSign.advance).map (.binding w.current ⟨name, name.literal⟩)

/-- Reads a return; the current token is its keyword. -/
def readReturning (h : Handlers) (w : Window) : Reading w Statement :=
  .further w.reaches_advance <| (h.readValue w.advance).map (.returning w.current)

def readBare (h : Handlers) (w : Window) : Reading w Statement :=
  (h.readValue w).map (.bare w.current)

def readStatementAs (h : Handlers) (handler : StatementHandler) (w : Window) :
    Reading w Statement :=
  match handler with
  | .binding => h.readBinding w
  | .returning => h.readReturning w
  | .bare => h.readBare w

/-- Reads the statement that begins at the current token. -/
def readStatement (h : Handlers) (w : Window) : Reading w Statement :=
  h.readStatementAs ((h.statement w.current.kind).getD .bare) w

end Handlers

end Frontend
