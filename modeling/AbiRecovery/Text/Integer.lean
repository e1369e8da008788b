import AbiRecovery.Text.Blank
import AbiRecovery.Text.Digit

/-!
# Integers as people write them

An integer may stand between blanks, may have one sign, and may have single underscores between its
digits; leading zeros and the digits of every script are allowed. The information separators are no
blanks here. An integer with more than 4300 digits is refused.
-/
namespace AbiRecovery.Text

def maxIntegerDigits : Nat := 4300

/-- The least number with more digits than that. -/
def leastLong : Nat := Nat.pow 10 maxIntegerDigits

/-- Whether an integer has too many digits, so that it is not written either. -/
def isLong (n : Int) : Bool := leastLong ≤ n.natAbs

def longIntegerMessage : String :=
  "Exceeds the limit (" ++ toString maxIntegerDigits ++
    " digits) for integer string conversion; use sys.set_int_max_str_digits() to increase the limit"

/-- The digits of a text in which every two digits may have one underscore between them. -/
def underscoredDigits? : List Char → Option (List Nat)
  | [] => none
  | [c] => (digitValue? c).map ([·])
  | c :: '_' :: rest => do
    let digit ← digitValue? c
    let digits ← underscoredDigits? rest
    return digit :: digits
  | c :: rest => do
    let digit ← digitValue? c
    let digits ← underscoredDigits? rest
    return digit :: digits

/-- The number that decimal digits denote, most significant first. -/
def ofDigits (digits : List Nat) : Nat :=
  digits.foldl (fun number digit => 10 * number + digit) 0

/-- The natural number that underscored digits denote. -/
def natural? (cs : List Char) : Option Nat := do
  let digits ← underscoredDigits? cs
  if digits.length ≤ maxIntegerDigits then return ofDigits digits else none

def isNumberBlank (c : Char) : Bool := isBlank c && !(0x1C ≤ c.toNat && c.toNat ≤ 0x1F)

def integer? (t : Text) : Option Int := do
  match ← chars? (trimOf isNumberBlank t) with
  | '+' :: digits => (natural? digits).map Int.ofNat
  | '-' :: digits => (natural? digits).map fun n => -(n : Int)
  | digits => (natural? digits).map Int.ofNat

end AbiRecovery.Text
