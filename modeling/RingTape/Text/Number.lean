/-!
# Numbers as text

Numbers are read by one rule and written by three. Ports, protocol numbers, step counts and
durations are read as an optional single plus sign, then one or more ASCII digits, leading zeros
allowed, whose value does not exceed the bound of the field; overflow is decided by the value and
never by the number of digits.

Cells are written as two lowercase hexadecimal digits and addresses as four. Both fields have a
fixed width, so a listing can be cut into fields by counting characters, and each field is exact:
a cell is below `16 ^ 2` and an address below `16 ^ 4`. Counts are written in decimal with a comma
between groups of three digits, counted from the right: the first group has one to three digits
and every later group exactly three. A field of a table is brought to the width of its column, on
its right in a column of names and on its left in a column of numbers; a text that is already as
wide as its column is kept whole.
-/

namespace RingTape.Text

/-! ## Decimal numerals with a bound -/

/-- The value of a string of decimal digits, read from the left. -/
def digitsValue (digits : List Char) : Nat :=
  digits.foldl (fun value digit => 10 * value + (digit.toNat - 48)) 0

/-- The digits of a numeral: what follows the optional plus sign. -/
def numeralDigits : List Char → List Char
  | '+' :: digits => digits
  | digits => digits

/-- Reads a numeral of value at most `bound`. -/
def numeral? (bound : Nat) (text : String) : Option Nat :=
  let digits := numeralDigits text.toList
  if digits ≠ [] ∧ digits.all Char.isDigit ∧ digitsValue digits ≤ bound then
    some (digitsValue digits)
  else
    none

/-! ## Fixed-width hexadecimal -/

/-- The last `width` hexadecimal digits of `n`, most significant first. Digits that `n` does not
have are zeros. -/
def hexDigits : Nat → Nat → List Char
  | 0, _ => []
  | width + 1, n => hexDigits width (n / 16) ++ [Nat.digitChar (n % 16)]

/-- A cell as two hexadecimal digits. -/
def hexCell (cell : UInt8) : String :=
  String.ofList (hexDigits 2 cell.toNat)

/-- An address as four hexadecimal digits. -/
def hexAddress (address : UInt16) : String :=
  String.ofList (hexDigits 4 address.toNat)

/-- A cell with the mark `0x`, as diagnostics write it. -/
def markedCell (cell : UInt8) : String :=
  "0x" ++ hexCell cell

/-- An address with the mark `0x`, as diagnostics and listings write it. -/
def markedAddress (address : UInt16) : String :=
  "0x" ++ hexAddress address

/-- A field has as many digits as its width. -/
@[simp]
theorem length_hexDigits (width n : Nat) : (hexDigits width n).length = width := by
  induction width generalizing n with
  | zero => rfl
  | succ width ih => simp [hexDigits, ih]

/-! ## Thousands grouping -/

/-- Puts a comma after every digit that has a positive multiple of three digits to its right. -/
def groupDigits : List Char → List Char
  | [] => []
  | [digit] => [digit]
  | digit :: rest =>
    if rest.length % 3 = 0 then digit :: ',' :: groupDigits rest else digit :: groupDigits rest

/-- A count with its digits in groups of three. -/
def grouped (n : Nat) : String :=
  String.ofList (groupDigits (Nat.toDigits 10 n))

/-! ## Columns of a table -/

/-- `count` spaces. -/
def spaces (count : Nat) : String :=
  String.ofList (List.replicate count ' ')

/-- A text at the left edge of a column. -/
def alignLeft (width : Nat) (text : String) : String :=
  text ++ spaces (width - text.length)

/-- A text at the right edge of a column. -/
def alignRight (width : Nat) (text : String) : String :=
  spaces (width - text.length) ++ text

/-- A number at the right edge of a column that is filled up with zeros. -/
def zeroPadded (width : Nat) (n : Nat) : String :=
  let digits := Nat.toDigits 10 n
  String.ofList (List.replicate (width - digits.length) '0' ++ digits)

end RingTape.Text
