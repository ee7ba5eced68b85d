/-!
# Decimal numerals

Reading a non-negative decimal numeral into a range `0 … limit - 1`.
-/

namespace FlexWidth.Text

/-- The first number that no 64-bit word holds: literals and positions lie below
it. -/
def wordLimit : Nat := 1 <<< 64

/-- The first number that is no bit width. -/
def widthLimit : Nat := 1 <<< 32

/-- A numeral without its optional plus sign. -/
def unsigned : List Char → List Char
  | '+' :: digits => digits
  | digits => digits

/-- Reads one optional plus sign and one or more decimal digits whose value lies
below `limit`. -/
def numeral? (limit : Nat) (text : String) : Option Nat :=
  let digits := unsigned text.toList
  if digits.isEmpty || !digits.all Char.isDigit then none
  else
    let value := Nat.ofDigitChars 10 digits 0
    if value < limit then some value else none

end FlexWidth.Text
