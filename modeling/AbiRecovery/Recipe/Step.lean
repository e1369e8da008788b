import AbiRecovery.Decimal.Binary64
import AbiRecovery.Hex
import AbiRecovery.Text.Utf8

/-!
# Steps of recipes

A value is kept as a recipe, the program of a machine that builds it on a stack. Every step is a byte
with its operands after it; numbers stand with their least significant byte first. Texts and containers
can be kept aside and recalled, so a text that occurs often is written once.
-/
namespace AbiRecovery.Recipe

inductive Step where
  | version (number : Nat)
  /-- So many bytes come next in one piece. -/
  | frame (size : Nat)
  | null
  | bool (value : Bool)
  | int (value : Int)
  | float (value : Decimal.Binary64)
  | text (value : Text)
  /-- Keeps the value on top of the stack aside. -/
  | keep
  /-- Puts a value that was kept aside on the stack. -/
  | again (place : Nat)
  /-- Puts an empty list on the stack. -/
  | list
  /-- Puts an empty object on the stack. -/
  | object
  /-- Marks the stack. -/
  | mark
  /-- Adds the value on top to the list below it. -/
  | append
  /-- Adds all values since the mark to the list below it. -/
  | appendAll
  /-- Adds the key and the value on top to the object below them. -/
  | put
  /-- Adds all keys and values since the mark to the object below it. -/
  | putAll
  /-- The value on top is the result. -/
  | stop
  deriving DecidableEq, Repr

def ofNumber (width number : Nat) : Bytes := (List.range width).map fun i => UInt8.ofNat (number / Nat.pow 256 i)

def toNumber (bytes : Bytes) : Nat := Bytes.toNat bytes.reverse

def toSigned (bytes : Bytes) : Int := Int.bmod (toNumber bytes) (Nat.pow 256 bytes.length)

/-- How many bytes a signed number needs at least, with fuel for so many. -/
def signedWidth (n : Int) : (fuel : Nat) → Nat
  | 0 => 0
  | fuel + 1 => if n = 0 || n = -1 then 0 else signedWidth (n / 256) fuel + 1

/-- The least width at which a number can be read back with its sign. -/
def leastWidth (n : Int) : Nat :=
  let width := max 1 (signedWidth n (n.natAbs.log2 / 8 + 2))
  if Int.bmod n (Nat.pow 256 width) = n then width else width + 1

/-- The bytes of a step for a whole number. -/
def intBytes (n : Int) : Bytes :=
  let signed (width : Nat) : Bytes := ofNumber width (n % Nat.pow 256 width).toNat
  if 0 ≤ n && n < 0x100 then 0x4B :: signed 1
  else if 0 ≤ n && n < 0x10000 then 0x4D :: signed 2
  else if -0x80000000 ≤ n && n < 0x80000000 then 0x4A :: signed 4
  else
    let width := leastWidth n
    (if width < 0x100 then 0x8A :: ofNumber 1 width else 0x8B :: ofNumber 4 width) ++ signed width

def textBytes (t : Text) : Bytes :=
  let bytes := Text.encodeWide t
  (if bytes.length < 0x100 then 0x8C :: ofNumber 1 bytes.length
    else if bytes.length < 0x100000000 then 0x58 :: ofNumber 4 bytes.length
    else 0x8D :: ofNumber 8 bytes.length) ++ bytes

def Step.bytes : Step → Bytes
  | .version number => 0x80 :: ofNumber 1 number
  | .frame size => 0x95 :: ofNumber 8 size
  | .null => [0x4E]
  | .bool value => [if value then 0x88 else 0x89]
  | .int value => intBytes value
  | .float value => 0x47 :: (ofNumber 8 value.bits).reverse
  | .text value => textBytes value
  | .keep => [0x94]
  | .again place => if place < 0x100 then 0x68 :: ofNumber 1 place else 0x6A :: ofNumber 4 place
  | .list => [0x5D]
  | .object => [0x7D]
  | .mark => [0x28]
  | .append => [0x61]
  | .appendAll => [0x65]
  | .put => [0x73]
  | .putAll => [0x75]
  | .stop => [0x2E]

def operand? {α : Type} (width : Nat) (bytes : Bytes) (read : Bytes → Option α) : Option (α × Bytes) :=
  if bytes.length < width then none
  else (read (bytes.take width)).map fun value => (value, bytes.drop width)

/-- Reads an operand whose length stands in front of it in `width` bytes. -/
def sized? {α : Type} (width : Nat) (bytes : Bytes) (read : Bytes → Option α) : Option (α × Bytes) := do
  let (size, bytes) ← operand? width bytes (some ∘ toNumber)
  operand? size bytes read

def Step.read? : Bytes → Option (Step × Bytes)
  | [] => none
  | code :: bytes =>
    let number (width : Nat) (make : Nat → Step) := operand? width bytes (some ∘ make ∘ toNumber)
    let text (width : Nat) := sized? width bytes fun bytes => Step.text <$> Text.decodeWide? bytes
    match code.toNat with
    | 0x80 => number 1 version
    | 0x95 => number 8 frame
    | 0x4E => some (null, bytes)
    | 0x88 => some (bool true, bytes)
    | 0x89 => some (bool false, bytes)
    | 0x4B => number 1 fun n => int n
    | 0x4D => number 2 fun n => int n
    | 0x4A => operand? 4 bytes (some ∘ int ∘ toSigned)
    | 0x8A => sized? 1 bytes (some ∘ int ∘ toSigned)
    | 0x8B => sized? 4 bytes (some ∘ int ∘ toSigned)
    | 0x47 => operand? 8 bytes fun bytes => some (float (.ofBits bytes.toNat))
    | 0x8C => text 1
    | 0x58 => text 4
    | 0x8D => text 8
    | 0x94 => some (keep, bytes)
    | 0x68 => number 1 again
    | 0x6A => number 4 again
    | 0x5D => some (list, bytes)
    | 0x7D => some (object, bytes)
    | 0x28 => some (mark, bytes)
    | 0x61 => some (append, bytes)
    | 0x65 => some (appendAll, bytes)
    | 0x73 => some (put, bytes)
    | 0x75 => some (putAll, bytes)
    | 0x2E => some (stop, bytes)
    | _ => none

end AbiRecovery.Recipe
