import AbiRecovery.Decimal.Binary64

/-!
# Shortest decimals

The decimal with the fewest digits among those that round to a given double, and of several such
decimals the nearest one. All comparisons are made on fractions of whole numbers.
-/
namespace AbiRecovery.Decimal

/-- A positive decimal `digits * 10 ^ power`. -/
structure Digits where
  digits : Nat
  power : Int
  deriving DecidableEq, Repr

/-- The fraction `coefficient * 2 ^ exponent`. -/
def binaryFraction (coefficient : Nat) (exponent : Int) : Nat × Nat :=
  if exponent < 0 then (coefficient, Nat.pow 2 exponent.natAbs) else (coefficient * Nat.pow 2 exponent.toNat, 1)

/-- The fraction `digits * 10 ^ power`. -/
def Digits.fraction (d : Digits) : Nat × Nat :=
  if d.power < 0 then (d.digits, Nat.pow 10 d.power.natAbs) else (d.digits * Nat.pow 10 d.power.toNat, 1)

def fractionLt (a b : Nat × Nat) : Bool := a.1 * b.2 < b.1 * a.2

def fractionDistance (a b : Nat × Nat) : Nat × Nat :=
  ((a.1 * b.2 - b.1 * a.2) + (b.1 * a.2 - a.1 * b.2), a.2 * b.2)

/-- The power of ten of the first digit of a positive fraction. -/
def leadingPower (value : Nat × Nat) : Int :=
  if value.1 ≥ value.2 then (Nat.toDigits 10 (value.1 / value.2)).length - 1
  else
    let places := (Nat.toDigits 10 (value.2 / value.1)).length
    if value.1 * Nat.pow 10 (places - 1) = value.2 then 1 - (places : Int) else -(places : Int)

/-- The reals that round to a double: between the midpoints to its neighbours, with the midpoints if
the significand is even. Quarters of the last place keep all bounds whole. -/
def roundsTo (significand : Nat) (exponent : Int) (candidate : Nat × Nat) : Bool :=
  let below := if significand = Nat.pow 2 52 && exponent > -1074 then 1 else 2
  let low := binaryFraction (4 * significand - below) (exponent - 2)
  let high := binaryFraction (4 * significand + 2) (exponent - 2)
  if significand % 2 = 0 then !fractionLt candidate low && !fractionLt high candidate
  else fractionLt low candidate && fractionLt candidate high

/-- The best decimal with `count` digits, if one of the two around the value rounds to the double. -/
def decimalWith? (significand : Nat) (exponent : Int) (count : Nat) : Option Digits :=
  let value := binaryFraction significand exponent
  let power := leadingPower value - count + 1
  let (num, den) :=
    if power < 0 then (value.1 * Nat.pow 10 power.natAbs, value.2) else (value.1, value.2 * Nat.pow 10 power.toNat)
  let lower : Digits := ⟨num / den, power⟩
  let upper : Digits := ⟨num / den + 1, power⟩
  match roundsTo significand exponent lower.fraction, roundsTo significand exponent upper.fraction with
  | false, false => none
  | true, false => some lower
  | false, true => some upper
  | true, true =>
    let toLower := fractionDistance value lower.fraction
    let toUpper := fractionDistance upper.fraction value
    if fractionLt toLower toUpper then some lower
    else if fractionLt toUpper toLower then some upper
    else if lower.digits % 2 = 0 then some lower else some upper

/-- The shortest decimal for a positive finite double. Seventeen digits always suffice. -/
def shortest (significand : Nat) (exponent : Int) : Digits :=
  ((List.range 17).findSome? fun n => decimalWith? significand exponent (n + 1)).getD
    ⟨significand, exponent⟩

/-- How a double is written: which powers of ten are written positionally, and the words for what is
no finite number. -/
structure Format where
  /-- The first digit's power of ten is at least this in positional form. -/
  leastPositional : Int
  /-- The first digit's power of ten is below this in positional form. -/
  firstExponential : Int
  infinite : String
  notANumber : String

/-- Whole numbers keep one zero after the point; exponents have a sign and at least two digits. -/
def Format.unsigned (format : Format) (d : Digits) : List Char :=
  let digits := Nat.toDigits 10 d.digits
  let significant := (digits.reverse.dropWhile (· = '0')).reverse
  let first : Int := d.power + digits.length - 1
  if format.leastPositional ≤ first && first < format.firstExponential then
    if first < 0 then '0' :: '.' :: List.replicate (first.natAbs - 1) '0' ++ significant
    else
      let wholeDigits := first.toNat + 1
      let whole := significant.take wholeDigits
      let part := significant.drop wholeDigits
      whole ++ List.replicate (wholeDigits - whole.length) '0' ++ '.' :: (if part.isEmpty then ['0'] else part)
  else
    let mark := match significant with
      | [] => ['0']
      | [digit] => [digit]
      | digit :: part => digit :: '.' :: part
    let size := Nat.toDigits 10 first.natAbs
    mark ++ 'e' :: (if first < 0 then '-' else '+') :: List.replicate (2 - size.length) '0' ++ size

def Format.text (format : Format) : Binary64 → List Char
  | .notANumber => format.notANumber.toList
  | .infinite negative => (if negative then ['-'] else []) ++ format.infinite.toList
  | .finite negative significand exponent =>
    (if negative then ['-'] else []) ++
      if significand = 0 then ['0', '.', '0'] else format.unsigned (shortest significand exponent)

end AbiRecovery.Decimal
