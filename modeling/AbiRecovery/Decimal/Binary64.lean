/-!
# Double-precision numbers

A finite double is `significand * 2 ^ exponent` with a significand below `2 ^ 53`. Decimals are
rounded to the nearest double, ties to the even significand, in exact integer arithmetic.
-/
namespace AbiRecovery.Decimal

/-- A double-precision number. A finite one that is not subnormal has a significand of at least
`2 ^ 52`; a subnormal one and zero have the exponent `-1074`. -/
inductive Binary64 where
  | finite (negative : Bool) (significand : Nat) (exponent : Int)
  | infinite (negative : Bool)
  | notANumber
  deriving DecidableEq, Repr

/-- The quotient to the nearest whole number, ties to even. -/
def roundedQuotient (num den : Nat) : Nat :=
  let quotient := num / den
  let twice := 2 * (num % den)
  if twice < den then quotient
  else if twice > den then quotient + 1
  else quotient + quotient % 2

/-- The quotient `num / den` over `2 ^ exponent`, as a fraction of whole numbers. -/
def scaled (num den : Nat) (exponent : Int) : Nat × Nat :=
  if exponent < 0 then (num * Nat.pow 2 exponent.natAbs, den) else (num, den * Nat.pow 2 exponent.toNat)

/-- The exponent at which `num / den` has a significand of 53 bits, or the least exponent. -/
def roundingExponent (num den : Nat) : Int :=
  let guess : Int := (num.log2 : Int) - den.log2 - 53
  let (n, d) := scaled num den guess
  max (if n / d < Nat.pow 2 53 then guess else guess + 1) (-1074)

/-- The double nearest to `num / den`, where `den` is not zero. -/
def Binary64.ofRatio (negative : Bool) (num den : Nat) : Binary64 :=
  if num = 0 then .finite negative 0 (-1074)
  else
    let exponent := roundingExponent num den
    let (n, d) := scaled num den exponent
    let rounded := roundedQuotient n d
    let (significand, exponent) := if rounded = Nat.pow 2 53 then (Nat.pow 2 52, exponent + 1) else (rounded, exponent)
    if exponent > 971 then .infinite negative else .finite negative significand exponent

/-- The double nearest to `coefficient * 10 ^ power`. A power far beyond the range of doubles is not
computed: the result is then infinite or zero. -/
def Binary64.ofDecimal (negative : Bool) (coefficient : Nat) (power : Int) : Binary64 :=
  let magnitude : Int := (Nat.toDigits 10 coefficient).length + power
  if coefficient = 0 || magnitude < -400 then .finite negative 0 (-1074)
  else if magnitude > 400 then .infinite negative
  else if power < 0 then .ofRatio negative coefficient (Nat.pow 10 power.natAbs)
  else .ofRatio negative (coefficient * Nat.pow 10 power.toNat) 1

/-- The number whose bits, in order from the most significant, are the sign, eleven bits for the exponent
and fifty-two for the significand, which has a further bit in front unless the exponent is zero. -/
def Binary64.ofBits (bits : Nat) : Binary64 :=
  let negative : Bool := bits / Nat.pow 2 63 % 2 = 1
  let exponent : Nat := bits / Nat.pow 2 52 % Nat.pow 2 11
  let fraction : Nat := bits % Nat.pow 2 52
  if exponent = 2047 then if fraction = 0 then .infinite negative else .notANumber
  else if exponent = 0 then .finite negative fraction (-1074)
  else .finite negative (Nat.pow 2 52 + fraction) ((exponent : Int) - 1075)

def Binary64.bits : Binary64 → Nat
  | .finite negative significand exponent =>
    (if negative then Nat.pow 2 63 else 0) +
      (if significand < Nat.pow 2 52 then significand
        else (exponent + 1075).toNat * Nat.pow 2 52 + (significand - Nat.pow 2 52))
  | .infinite negative => (if negative then Nat.pow 2 63 else 0) + 2047 * Nat.pow 2 52
  | .notANumber => 2047 * Nat.pow 2 52 + Nat.pow 2 51

end AbiRecovery.Decimal
