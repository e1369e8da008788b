/-!
# Hexadecimal numerals

Numerals in base sixteen. They are written in lower case, padded on the left with zeros to a least
width; digits are read in either case.
-/
namespace AbiRecovery.Text

/-- The lower-case digit for a value below sixteen. -/
def hexDigit (n : Nat) : Char :=
  if n < 10 then Char.ofNat ('0'.toNat + n) else Char.ofNat ('a'.toNat + (n - 10))

/-- The digits of a number in base sixteen; zero has one digit. -/
def hexNumeral (n : Nat) : List Char :=
  if n < 16 then [hexDigit n] else hexNumeral (n / 16) ++ [hexDigit (n % 16)]

/-- Fills up on the left to at least `width` characters. -/
def padLeft (width : Nat) (fill : Char) (cs : List Char) : List Char :=
  List.replicate (width - cs.length) fill ++ cs

/-- The hexadecimal numeral of a number with at least `width` digits. -/
def paddedHex (width n : Nat) : List Char :=
  padLeft width '0' (hexNumeral n)

/-- The value of a hexadecimal digit of either case. -/
def hexValue? (c : Char) : Option Nat :=
  if '0' ≤ c && c ≤ '9' then some (c.toNat - '0'.toNat)
  else if 'a' ≤ c && c ≤ 'f' then some (c.toNat - 'a'.toNat + 10)
  else if 'A' ≤ c && c ≤ 'F' then some (c.toNat - 'A'.toNat + 10)
  else none

end AbiRecovery.Text
