import Frontend.Grammar.Program
import Frontend.Token.Cursor

/-!
# The parser

A parser holds a window on the tokens to come, a table of handlers, and the diagnostics recorded so
far. Its operations read from the window and move it on. Only `parseProgram` records diagnostics;
the other operations hand theirs to the caller.
-/
namespace Frontend

structure Parser where
  window : Window
  handlers : Handlers
  /-- The diagnostics recorded so far, in source order. -/
  diagnostics : List Diagnostic

namespace Parser

/-- A parser at a window, with the handlers of the language. -/
def ofWindow (window : Window) : Parser := ⟨window, .standard, []⟩

def ofSource (source : String) : Parser := ofWindow (.ofSource source)

/-- A parser from a cursor on; `none` inside a character. -/
def ofCursor? (cursor : Cursor) : Option Parser := cursor.window?.map ofWindow

def current (p : Parser) : Token := p.window.current

def peek (p : Parser) : Token := p.window.peek

def currentIs (p : Parser) (kind : Kind) : Bool := p.current.kind == kind

def peekIs (p : Parser) (kind : Kind) : Bool := p.peek.kind == kind

def advance (p : Parser) : Parser := { p with window := p.window.advance }

def skipOptional (p : Parser) (kind : Kind) : Parser :=
  { p with window := p.window.skipOptional kind }

/-- What a reading from the parser's window gives, and the parser where it stopped. -/
def take {α : Type} (p : Parser) (r : Reading p.window α) : Except Diagnostic α × Parser :=
  (r.result, { p with window := r.window })

def expect (p : Parser) (kind : Kind) : Except Diagnostic Token × Parser :=
  p.take (p.window.expect kind)

/-- Reads an expression whose operators all bind more tightly than `minimum`. -/
def parseExpression (p : Parser) (minimum : BindingPower) : Except Diagnostic Expression × Parser :=
  p.take (p.handlers.readExpression minimum p.window)

def parseLeading (p : Parser) (handler : LeadingHandler) : Except Diagnostic Expression × Parser :=
  p.take (p.handlers.readLeading handler p.window)

def parseBinary (p : Parser) (left : Expression) (power : BindingPower) :
    Except Diagnostic Expression × Parser :=
  p.take (p.handlers.readBinary left power p.window)

def parseStatementAs (p : Parser) (handler : StatementHandler) :
    Except Diagnostic Statement × Parser :=
  p.take (p.handlers.readStatementAs handler p.window)

def parseStatement (p : Parser) : Except Diagnostic Statement × Parser :=
  p.take (p.handlers.readStatement p.window)

/-- Reads statements until the end of the text. The sound ones make up the program; for each of
the broken ones a diagnostic is recorded. -/
def parseProgram (p : Parser) : Program × Parser :=
  let (items, window) := p.handlers.readItems p.window
  (.ofItems items,
    { p with window := window, diagnostics := p.diagnostics ++ diagnosticsOfItems items })

def onStatement (p : Parser) (kind : Kind) (handler : StatementHandler) : Parser :=
  { p with handlers := p.handlers.withStatement kind handler }

def onLeading (p : Parser) (kind : Kind) (handler : LeadingHandler) : Parser :=
  { p with handlers := p.handlers.withLeading kind handler }

def onJoining (p : Parser) (kind : Kind) : Parser :=
  { p with handlers := p.handlers.withJoining kind }

/-- Puts the handlers of the language back over those that were given. -/
def restoreStandard (p : Parser) : Parser := { p with handlers := p.handlers.withStandard }

end Parser

/-- The program of a source text, and the diagnostics of its broken statements. -/
def parse (source : String) : Program × List Diagnostic :=
  let (program, parser) := (Parser.ofSource source).parseProgram
  (program, parser.diagnostics)

end Frontend
