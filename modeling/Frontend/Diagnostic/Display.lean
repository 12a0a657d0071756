import Frontend.Diagnostic.Basic
import Frontend.Text.Line
import Frontend.Text.Whitespace

/-!
# Display of a diagnostic

A diagnostic is shown in five lines: its name with the tip, the name of the file, an empty margin,
the source line with its number, and a caret under the offending place. The source line is shown
without its indentation, which is taken off the column of the caret, and without white space at
its end. Dashes lead to the caret; where they and the caret are wider than the widest field of a
line, there is no display.
-/
namespace Frontend

/-- Blanks that count as indentation. -/
def isIndent (c : Char) : Bool := c == ' ' || c == '\t'

namespace Diagnostic

/-- The first line: the name of the cause, and the tip in parentheses. -/
def headline (d : Diagnostic) : String :=
  match d.cause.tip? with
  | none => "Error: " ++ d.cause.name
  | some tip => "Error: " ++ d.cause.name ++ " (" ++ tip ++ ")"

/-- How far the place lies behind the indentation of its line. -/
def caretColumn (d : Diagnostic) (source : String) : Nat :=
  let place := Text.Place.find source d.position.offset
  place.offset - (place.text.toList.takeWhile isIndent).length

/-- The five lines that show a diagnostic of the given source text. -/
def displayLines (d : Diagnostic) (source file : String) : List String :=
  let place := Text.Place.find source d.position.offset
  let number := toString place.line
  -- The bar stands one column behind the line number.
  let margin := String.ofList (List.replicate (number.length + 1) ' ') ++ "|"
  let shown := String.ofList (Text.trimEnd (place.text.toList.dropWhile isIndent))
  let dashes := String.ofList (List.replicate (d.caretColumn source) '-')
  [d.headline, "-> " ++ file, margin, number ++ " | " ++ shown, margin ++ " " ++ dashes ++ "^"]

/-- The diagnostic as it is shown, each line ended by a newline. -/
def display (d : Diagnostic) (source file : String) : String :=
  String.join ((d.displayLines source file).map (· ++ "\n"))

/-- The widest field of a line, in columns. -/
def widestField : Nat := 65535

/-- Whether the dashes and the caret go into a field. -/
def canDisplay (d : Diagnostic) (source : String) : Bool :=
  d.caretColumn source + 1 ≤ widestField

/-- The display, if there is one. -/
def display? (d : Diagnostic) (source file : String) : Option String :=
  if d.canDisplay source then some (d.display source file) else none

end Diagnostic

end Frontend
