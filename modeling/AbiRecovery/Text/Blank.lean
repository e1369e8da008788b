import AbiRecovery.Text.Basic

/-!
# Blank characters

The characters that are skipped around a value: white space of every script and the four
information separators. Zero-width characters are not blank.
-/
namespace AbiRecovery.Text

def isBlank (c : Char) : Bool :=
  let n := c.toNat
  (0x09 ≤ n && n ≤ 0x0D) || (0x1C ≤ n && n ≤ 0x20) || n == 0x85 || n == 0xA0 || n == 0x1680 ||
    (0x2000 ≤ n && n ≤ 0x200A) || n == 0x2028 || n == 0x2029 || n == 0x202F || n == 0x205F || n == 0x3000

/-- A text without the characters of a class at either end. -/
def trimOf (isSkipped : Char → Bool) (t : Text) : Text :=
  ((t.dropWhile (Symbol.isIn isSkipped)).reverse.dropWhile (Symbol.isIn isSkipped)).reverse

/-- A text without the blank characters at either end. -/
def trim (t : Text) : Text := trimOf isBlank t

end AbiRecovery.Text
