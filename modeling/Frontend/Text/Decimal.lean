/-!
# Decimal numbers
-/
namespace Frontend.Text

/-- The number that a row of decimal digits stands for; leading zeros do not count. -/
def decimalValue (digits : List Char) : Nat :=
  digits.foldl (fun value digit => 10 * value + (digit.toNat - '0'.toNat)) 0

/-- The last digit counts once and all before it ten times. -/
theorem decimalValue_append_singleton (digits : List Char) (digit : Char) :
    decimalValue (digits ++ [digit]) =
      10 * decimalValue digits + (digit.toNat - '0'.toNat) := by
  simp [decimalValue]

end Frontend.Text
