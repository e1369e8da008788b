import AbiRecovery.Hex
import AbiRecovery.Keccak
import AbiRecovery.Text.Quoted

/-!
# Contract addresses

An address is given by forty hexadecimal digits of either case, with or without a mark in front. It is
written in one form only: lower-case digits, of which those letters are raised whose place in the
digest of the digits holds a value above seven.
-/
namespace AbiRecovery

/-- An address, by its forty lower-case digits. -/
structure Address where
  digits : List Char
  deriving DecidableEq, Repr

inductive AddressFault where
  /-- It is not hexadecimal. -/
  | notHex (text : Text)
  /-- It is hexadecimal, but has another number of digits. -/
  | wrongLength (text : Text) (lowerDigits : List Char)
  deriving DecidableEq, Repr

namespace Address

def width : Nat := 40

def ofText (text : Text) : Except AddressFault Address :=
  match Hex.digits? text with
  | none => .error (.notHex text)
  | some digits =>
    let digits := digits.map Char.toLower
    if digits.length = width then .ok ⟨digits⟩ else .error (.wrongLength text digits)

/-- Lower-case form with its mark. -/
def lower (address : Address) : Text := Text.ofChars ('0' :: 'x' :: address.digits)

/-- Raises a letter if the nibble beside it is above seven. -/
def raise (digit : Char) (nibble : Nat) : Char := if nibble > 7 then digit.toUpper else digit

def checksum (address : Address) : Text :=
  let digest := (Keccak.hash (address.digits.map fun c => UInt8.ofNat c.toNat)).flatMap fun byte =>
    [byte.toNat / 16, byte.toNat % 16]
  Text.ofChars ('0' :: 'x' :: List.zipWith raise address.digits digest)

end Address

def AddressFault.message : AddressFault → String
  | .notHex text => "when sending a str, it must be a hex string. Got: " ++ Text.quoted text
  | .wrongLength text lowerDigits =>
    "Unknown format " ++ Text.quoted text ++ ", attempted to normalize to " ++
      Text.quoted (Text.ofChars ('0' :: 'x' :: lowerDigits))

end AbiRecovery
