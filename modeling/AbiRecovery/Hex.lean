import AbiRecovery.SizeLimit
import AbiRecovery.Text.Basic
import AbiRecovery.Text.Hexadecimal

/-!
# Bytes in hexadecimal

Bytes are written with two lower-case digits each. What is read may have an `0x` or `0X` in front and
digits of either case; an odd number of digits stands for one more zero in front.
-/
namespace AbiRecovery

/-- A string of bytes, such as the runtime code of a contract. -/
abbrev Bytes : Type := List UInt8

namespace Hex

def isDigit (c : Char) : Bool := (Text.hexValue? c).isSome

/-- The characters after an `0x` or `0X`, if one stands in front. -/
def withoutMark : List Char → List Char
  | '0' :: 'x' :: digits => digits
  | '0' :: 'X' :: digits => digits
  | cs => cs

/-- The digits of a hexadecimal text, which consists of them and perhaps of a mark in front. -/
def digits? (t : Text) : Option (List Char) :=
  (t.chars?.map withoutMark).filter fun digits => digits.all isDigit

/-- The byte of two digits. What is no digit counts as zero. -/
def byteOfDigits (high low : Char) : UInt8 :=
  UInt8.ofNat (16 * (Text.hexValue? high).getD 0 + (Text.hexValue? low).getD 0)

def bytesOfPairs : List Char → Bytes
  | high :: low :: rest => byteOfDigits high low :: bytesOfPairs rest
  | _ => []

/-- The bytes of digits; an odd number of them gets one zero in front. -/
def bytesOfDigits (digits : List Char) : Bytes :=
  bytesOfPairs (if digits.length % 2 = 0 then digits else '0' :: digits)

def byteDigits (byte : UInt8) : List Char :=
  [Text.hexDigit (byte.toNat / 16), Text.hexDigit (byte.toNat % 16)]

def digits (bytes : Bytes) : List Char := bytes.flatMap byteDigits

/-- The lower-case digits of bytes, without a mark. -/
def encode (bytes : Bytes) : Text := Text.ofChars (digits bytes)

/-- The lower-case digits of bytes after an `0x`. -/
def encodeMarked (bytes : Bytes) : Text := Text.ofChars ('0' :: 'x' :: digits bytes)

end Hex

namespace Bytes

/-- Fills up with zero bytes on the left to at least `length` bytes. -/
def padLeft (length : Int) (bytes : Bytes) : Bytes :=
  List.replicate (length - bytes.length).toNat 0 ++ bytes

/-- Fills up with zero bytes on the left to a length that comes from outside. -/
def padLeftTo (length : Int) (bytes : Bytes) : Except SizeFault Bytes :=
  if !SizeLimit.isSize length then .error .noSize
  else if length > SizeLimit.greatestBytes then .error .tooManyBytes
  else if length > SizeLimit.memory then .error .noMemory
  else .ok (bytes.padLeft length)

/-- The number that bytes denote, most significant first; no bytes denote zero. -/
def toNat (bytes : Bytes) : Nat :=
  bytes.foldl (fun number byte => 256 * number + byte.toNat) 0

end Bytes

end AbiRecovery
