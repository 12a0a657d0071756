import Frontend.Text.Quoted
import Mathlib.Data.List.Basic

/-!
# Reading quoted text

Quoted text can be read back. A character is escaped in one of three ways (`Escaped`), which its
first characters tell apart, and each of them shows where it ends: `readEscaped?` reads off the
character and stops at the closing quote (`readEscaped?_append`). So quoted text tells where it ends
and what it quotes, whatever stands behind it (`quoted_append_inj`). No line ends inside it
(`newline_not_mem_quoted`).
-/
namespace Frontend.Text

/-! ### Hexadecimal digits -/

def hexDigitValue (digit : Char) : Nat :=
  if digit.isDigit then digit.toNat - '0'.toNat else digit.toNat - 'a'.toNat + 10

/-- The number that a row of hexadecimal digits stands for. -/
def hexValue (digits : List Char) : Nat :=
  digits.foldl (fun value digit => 16 * value + hexDigitValue digit) 0

theorem hexDigitValue_digitChar : ∀ digit < 16, hexDigitValue digit.digitChar = digit := by decide

theorem hexValue_toDigits (n : Nat) : hexValue (Nat.toDigits 16 n) = n := by
  induction n using Nat.strongRecOn with
  | ind n ih =>
    by_cases small : n < 16
    · rw [Nat.toDigits_of_lt_base small, hexValue, List.foldl_cons, List.foldl_nil,
        hexDigitValue_digitChar n small, Nat.mul_zero, Nat.zero_add]
    · -- the last digit is written behind those of the quotient
      have above : hexValue (Nat.toDigits 16 (n / 16)) = n / 16 := ih _ (by omega)
      have last : hexDigitValue (n % 16).digitChar = n % 16 :=
        hexDigitValue_digitChar _ (Nat.mod_lt n (by decide))
      rw [Nat.toDigits_of_base_le (by decide) (by omega), hexValue, List.foldl_append,
        List.foldl_cons, List.foldl_nil, ← hexValue, above, last]
      exact Nat.div_add_mod n 16

/-- Digits are letters of the alphabet and figures, and so no other character. -/
theorem not_mem_toDigits {c : Char} (other : ∀ digit : Nat, digit.digitChar ≠ c) (n : Nat) :
    c ∉ Nat.toDigits 16 n := by
  induction n using Nat.strongRecOn with
  | ind n ih =>
    by_cases small : n < 16
    · rw [Nat.toDigits_of_lt_base small, List.mem_singleton]
      exact (other n).symm
    · rw [Nat.toDigits_of_base_le (by decide) (by omega), List.mem_append, List.mem_singleton]
      rintro (above | last)
      · exact ih _ (by omega) above
      · exact other _ last.symm

/-! ### Escapes -/

/-- The letters behind the backslash, with the characters that they stand for. -/
def shortEscapes : List (Char × Char) :=
  [('0', '\x00'), ('t', '\t'), ('r', '\r'), ('n', '\n'), ('"', '"'), ('\\', '\\')]

/-- The ways to write a character inside quotes. -/
inductive Escaped : Char → List Char → Prop
  | short {letter c : Char} : (letter, c) ∈ shortEscapes → Escaped c ['\\', letter]
  | byCodePoint (c : Char) : Escaped c (codePointEscape c)
  | plain {c : Char} : c ≠ '"' → c ≠ '\\' → c ≠ '\n' → Escaped c [c]

theorem escaped_escape (c : Char) : Escaped c (escape c) := by
  rw [escape]
  split_ifs with isNul isTab isReturn isNewline isQuote isBackslash invisible
  · exact .short (by simp [shortEscapes, isNul])
  · exact .short (by simp [shortEscapes, isTab])
  · exact .short (by simp [shortEscapes, isReturn])
  · exact .short (by simp [shortEscapes, isNewline])
  · exact .short (by simp [shortEscapes, isQuote])
  · exact .short (by simp [shortEscapes, isBackslash])
  · exact .byCodePoint c
  · exact .plain isQuote isBackslash isNewline

theorem Escaped.newline_not_mem {c : Char} {written : List Char} (escaped : Escaped c written) :
    '\n' ∉ written := by
  cases escaped with
  | @short letter c entry =>
    have letters : ∀ pair ∈ shortEscapes, '\n' ∉ ['\\', pair.1] := by decide
    exact letters _ entry
  | byCodePoint c =>
    have noDigit : '\n' ∉ Nat.toDigits 16 c.toNat :=
      not_mem_toDigits (fun digit => Nat.digitChar_ne '\n' (by decide)) _
    simp [codePointEscape, noDigit]
  | plain _ _ other => exact fun member => other (List.mem_singleton.mp member).symm

/-- The first of the characters that are written, and what stands behind it; `none` at the closing
quote. -/
def readEscaped? : List Char → Option (Char × List Char)
  | [] => none
  | '"' :: _ => none
  | '\\' :: 'u' :: '{' :: rest =>
    let digits := rest.takeWhile fun c => c != '}'
    some (Char.ofNat (hexValue digits), rest.drop (digits.length + 1))
  | '\\' :: letter :: rest => (shortEscapes.lookup letter).map fun c => (c, rest)
  | c :: rest => some (c, rest)

theorem readEscaped?_codePointEscape (c : Char) (rest : List Char) :
    readEscaped? (codePointEscape c ++ rest) = some (c, rest) := by
  have split : codePointEscape c ++ rest =
      '\\' :: 'u' :: '{' :: (Nat.toDigits 16 c.toNat ++ '}' :: rest) := by
    simp [codePointEscape]
  have noBrace : ∀ digit ∈ Nat.toDigits 16 c.toNat, (digit != '}') = true := by
    intro digit member
    have other : '}' ∉ Nat.toDigits 16 c.toNat :=
      not_mem_toDigits (fun n => Nat.digitChar_ne '}' (by decide)) _
    exact bne_iff_ne.mpr fun same => other (same ▸ member)
  have digits : (Nat.toDigits 16 c.toNat ++ '}' :: rest).takeWhile (fun d => d != '}') =
      Nat.toDigits 16 c.toNat := by
    rw [List.takeWhile_append_of_pos noBrace, List.takeWhile_cons_of_neg (by decide),
      List.append_nil]
  -- the digits end at the brace, and what is behind it is the rest
  rw [split, readEscaped?, digits, List.drop_length_add_append, hexValue_toDigits,
    Char.ofNat_toNat, List.drop_one, List.tail_cons]

theorem Escaped.readEscaped?_append {c : Char} {written : List Char} (escaped : Escaped c written)
    (rest : List Char) : readEscaped? (written ++ rest) = some (c, rest) := by
  cases escaped with
  | @short letter c entry =>
    have known : ∀ pair ∈ shortEscapes,
        pair.1 ≠ 'u' ∧ shortEscapes.lookup pair.1 = some pair.2 := by decide
    obtain ⟨noCodePoint, found⟩ := known _ entry
    change readEscaped? ('\\' :: letter :: rest) = _
    rw [readEscaped?, found]
    · rfl
    · exact fun digits noBrace => absurd noBrace noCodePoint
  | byCodePoint c => exact readEscaped?_codePointEscape c rest
  | plain noQuote noBackslash _ =>
    change readEscaped? (c :: rest) = _
    rw [readEscaped?]
    · exact noQuote
    · exact fun _ isEscape => absurd isEscape noBackslash
    · exact fun _ _ isEscape => absurd isEscape noBackslash

example : readEscaped? (escape '\u0301' ++ ['\\', '0']) = some ('\u0301', ['\\', '0']) := by decide

/-! ### Quoted texts -/

/-- Characters inside quotes tell what they are and where they end. -/
theorem flatMap_escape_append_inj {cs ds more others : List Char} :
    cs.flatMap escape ++ '"' :: more = ds.flatMap escape ++ '"' :: others ↔
      cs = ds ∧ more = others := by
  refine ⟨fun same => ?_, by rintro ⟨rfl, rfl⟩; rfl⟩
  have closed (rest : List Char) : readEscaped? ('"' :: rest) = none := by rw [readEscaped?]
  have opened (c : Char) (cs : List Char) (rest : List Char) :
      readEscaped? ((c :: cs).flatMap escape ++ rest) = some (c, cs.flatMap escape ++ rest) := by
    rw [List.flatMap_cons, List.append_assoc, (escaped_escape c).readEscaped?_append]
  -- where one text ends and the other goes on, reading tells the quote from a character
  induction cs generalizing ds with
  | nil =>
    cases ds with
    | nil => exact ⟨rfl, (List.cons.inj same).2⟩
    | cons d ds =>
      have read := congrArg readEscaped? same
      rw [opened, List.flatMap_nil, List.nil_append, closed] at read
      cases read
  | cons c cs ih =>
    have read := congrArg readEscaped? same
    rw [opened] at read
    cases ds with
    | nil =>
      rw [List.flatMap_nil, List.nil_append, closed] at read
      cases read
    | cons d ds =>
      rw [opened, Option.some_inj, Prod.mk.injEq] at read
      obtain ⟨rfl, later⟩ := read
      obtain ⟨rfl, behind⟩ := ih later
      exact ⟨rfl, behind⟩

theorem toList_quoted (s : String) : (quoted s).toList = '"' :: s.toList.flatMap escape ++ ['"'] := by
  rw [quoted, String.toList_ofList]

/-- A quoted text tells what it quotes and where it ends, whatever stands behind it. -/
theorem quoted_append_inj {s t : String} {more others : List Char} :
    (quoted s).toList ++ more = (quoted t).toList ++ others ↔ s = t ∧ more = others := by
  simp only [toList_quoted, List.cons_append, List.append_assoc, List.cons.injEq, true_and,
    List.nil_append, flatMap_escape_append_inj, String.toList_inj]

theorem newline_not_mem_quoted (s : String) : '\n' ∉ (quoted s).toList := by
  have inside : '\n' ∉ s.toList.flatMap escape := by
    rw [List.mem_flatMap]
    rintro ⟨c, -, member⟩
    exact (escaped_escape c).newline_not_mem member
  simp [toList_quoted, inside]

end Frontend.Text
