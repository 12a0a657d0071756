/-!
# Kinds of token

The closed set of token kinds with their names, the table of keywords, and the tables of symbols.
A word that is no keyword is an identifier; a character that no table knows is illegal.
-/
namespace Frontend

inductive Kind where
  /-- A character that begins no token. -/
  | illegal
  /-- The end of the text. -/
  | endOfInput
  | identifier
  | integer
  /-- `=` -/
  | assignment
  /-- `==` -/
  | equals
  /-- `!` -/
  | not
  /-- `!=` -/
  | notEquals
  | plus
  | dash
  | star
  | slash
  | less
  | greater
  | comma
  | semicolon
  | openParen
  | closeParen
  | openCurly
  | closeCurly
  | fnKeyword
  | letKeyword
  | trueKeyword
  | falseKeyword
  | ifKeyword
  | elseKeyword
  | returnKeyword
  deriving DecidableEq, Repr, Inhabited

namespace Kind

/-- The name of a kind, as messages show it. -/
def name : Kind → String
  | illegal => "Illegal"
  | endOfInput => "EOF"
  | identifier => "Identifier"
  | integer => "Integer"
  | assignment => "Assignment"
  | equals => "Equals"
  | not => "Not"
  | notEquals => "NotEquals"
  | plus => "Plus"
  | dash => "Dash"
  | star => "Star"
  | slash => "Slash"
  | less => "Less"
  | greater => "Greater"
  | comma => "Comma"
  | semicolon => "Semicolon"
  | openParen => "OpenParen"
  | closeParen => "CloseParen"
  | openCurly => "OpenCurly"
  | closeCurly => "CloseCurly"
  | fnKeyword => "Fn"
  | letKeyword => "Let"
  | trueKeyword => "True"
  | falseKeyword => "False"
  | ifKeyword => "If"
  | elseKeyword => "Else"
  | returnKeyword => "Return"

/-- Every kind, in the order of their names. -/
def all : List Kind :=
  [assignment, closeCurly, closeParen, comma, dash, endOfInput, elseKeyword, equals, falseKeyword,
    fnKeyword, greater, identifier, ifKeyword, illegal, integer, less, letKeyword, not, notEquals,
    openCurly, openParen, plus, returnKeyword, semicolon, slash, star, trueKeyword]

theorem mem_all (kind : Kind) : kind ∈ all := by cases kind <;> decide

def ofName? (s : String) : Option Kind := all.find? fun kind => kind.name == s

def keywords : List (String × Kind) :=
  [("fn", fnKeyword), ("let", letKeyword), ("true", trueKeyword), ("false", falseKeyword),
    ("if", ifKeyword), ("else", elseKeyword), ("return", returnKeyword)]

/-- The kind of a word: a keyword, or else an identifier. -/
def ofWord (word : String) : Kind := (keywords.lookup word).getD identifier

/-- The symbols of one character. Two of them also begin a pair, which takes precedence. -/
def symbols : List (Char × Kind) :=
  [('=', assignment), ('+', plus), ('-', dash), ('!', not), ('*', star), ('/', slash),
    ('<', less), ('>', greater), (',', comma), (';', semicolon), ('(', openParen),
    (')', closeParen), ('{', openCurly), ('}', closeCurly)]

def ofSymbol? (c : Char) : Option Kind := symbols.lookup c

def ofPair? (first second : Char) : Option Kind :=
  if second = '=' then
    if first = '=' then some equals else if first = '!' then some notEquals else none
  else none

end Kind

end Frontend
