import Frontend.Diagnostic.Display
import Frontend.Parser
import Frontend.Session.Basic

/-!
# Interaction

A source text is answered by its tokens or by its program, as the mode says. The interactive loop
prompts for a line, answers it as a source text of its own, and goes on until the input ends. An
input is a row of bytes; its lines run up to and including each newline.
-/
namespace Frontend

/-- What a source text is answered by. -/
inductive Mode where
  /-- Its tokens, one on a line. -/
  | tokens
  /-- Its program, or the diagnostics if there are any. -/
  | program
  deriving DecidableEq, Repr

/-- The mode when none is asked for. -/
def Mode.default : Mode := .program

namespace Session

/-- What the loop writes before it reads a line. -/
def promptText : String := ">> "

/-- The name under which lines of the loop appear in diagnostics. -/
def shellFile : String := "shell"

/-- Writes the tokens of a source text, one on a line. -/
def writeTokens (source : String) : Session Unit :=
  (scan 0 source.toList).forM fun token => write (token.describe ++ "\n")

def writeDiagnostic (d : Diagnostic) (source file : String) : Session Unit :=
  match d.display? source file with
  | some text => write text
  | none => throw .tooWide

def writeDiagnostics (diagnostics : List Diagnostic) (source file : String) : Session Unit :=
  diagnostics.forM fun d => writeDiagnostic d source file

/-- Answers a source text, and says whether it is free of diagnostics. Tokens always are. -/
def answer (mode : Mode) (source file : String) : Session Bool :=
  match mode with
  | .tokens => do
    writeTokens source
    return true
  | .program => do
    let (program, diagnostics) := parse source
    if diagnostics.isEmpty then
      write (program.text ++ "\n")
      return true
    else
      writeDiagnostics diagnostics source file
      return false

def answerLine (mode : Mode) (line : List UInt8) : Session Unit :=
  match String.fromUTF8? line.toByteArray with
  | none => throw .notText
  | some source => do discard <| answer mode source shellFile

/-- Prompts for each of the lines and answers it, and prompts once more at the end. -/
def answerLines (mode : Mode) : List (List UInt8) → Session Unit
  | [] => write promptText
  | line :: lines => do
    write promptText
    answerLine mode line
    answerLines mode lines

def inputLines (input : ByteArray) : List (List UInt8) :=
  Text.splitAfter '\n'.toUInt8 input.data.toList

def interact (mode : Mode) (input : ByteArray) : Session Unit := answerLines mode (inputLines input)

end Session

end Frontend
