import LineLexer.Text.Ascii

/-!
# Numerals

Writing a number in decimal or hexadecimal digits, and reading one back. Reading takes a plus sign
and any number of leading zeros, and refuses a number that does not fit its word.
-/

namespace LineLexer

/-- The decimal digits of a number. -/
def decimalText (n : Nat) : Text :=
  Nat.toDigits 10 n

/-- The hexadecimal digits of a number, in small letters and without leading zeros. -/
def hexText (n : Nat) : Text :=
  Nat.toDigits 16 n

/-- A word as `0x` and eight hexadecimal digits. -/
def wordText (word : UInt32) : Text :=
  let digits := hexText word.toNat
  '0' :: 'x' :: (List.replicate (8 - digits.length) '0' ++ digits)

/-- The value of a digit in bases up to sixteen, in either letter case. -/
def digitValue? (c : Char) : Option Nat :=
  if c.isDigit then some (c.toNat - '0'.toNat)
  else if 'a' ≤ c && c ≤ 'f' then some (c.toNat - 'a'.toNat + 10)
  else if 'A' ≤ c && c ≤ 'F' then some (c.toNat - 'A'.toNat + 10)
  else none

/-- Reads the digits of a base after those that make up `value`. -/
def readDigits? (base : Nat) (value : Nat) : Text → Option Nat
  | [] => some value
  | c :: rest =>
    match digitValue? c with
    | some digit => if digit < base then readDigits? base (base * value + digit) rest else none
    | none => none

/-- Reads a number of a base: at least one digit after an optional plus sign. -/
def readNumber? (base : Nat) (text : Text) : Option Nat :=
  let digits := if text.head? = some '+' then text.drop 1 else text
  if digits.isEmpty then none else readDigits? base 0 digits

/-- Reads a 32-bit word: hexadecimal after `0x` or `0X`, decimal otherwise. -/
def readWord? (text : Text) : Option UInt32 :=
  let number :=
    if "0x".toList.isPrefixOf text || "0X".toList.isPrefixOf text then
      readNumber? 16 (text.drop 2)
    else readNumber? 10 text
  match number with
  | some n => if n < UInt32.size then some (UInt32.ofNat n) else none
  | none => none

end LineLexer
