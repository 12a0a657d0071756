import Frontend.Text.GraphemeExtend
import Frontend.Text.Unprintable

/-!
# Quoted text

A text between double quotes, in which every character can be seen. NUL, tab, carriage return,
newline, the double quote and the backslash have short escapes; combining and unprintable
characters are given by code point. Everything else, the single quote included, stands for itself.
-/
namespace Frontend.Text

/-- The escape that gives a character by its code point, in lower-case hexadecimal. -/
def codePointEscape (c : Char) : List Char :=
  ['\\', 'u', '{'] ++ Nat.toDigits 16 c.toNat ++ ['}']

/-- How a character is written inside quotes. -/
def escape (c : Char) : List Char :=
  if c = '\x00' then ['\\', '0']
  else if c = '\t' then ['\\', 't']
  else if c = '\r' then ['\\', 'r']
  else if c = '\n' then ['\\', 'n']
  else if c = '"' then ['\\', '"']
  else if c = '\\' then ['\\', '\\']
  else if isCombining c || isUnprintable c then codePointEscape c
  else [c]

/-- The text between double quotes. -/
def quoted (s : String) : String :=
  String.ofList ('"' :: s.toList.flatMap escape ++ ['"'])

end Frontend.Text
