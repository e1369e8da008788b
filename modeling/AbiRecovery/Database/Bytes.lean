import AbiRecovery.Hex

/-!
# Numbers in bytes

Numbers of a fixed width stand with their most significant byte first. A number of variable width has
seven bits in each byte, the first byte most significant, and a byte above 127 is followed by another
one; a ninth byte has eight bits. Reading beyond the end gives zeros.
-/
namespace AbiRecovery.Database

def byteAt (bytes : ByteArray) (place : Nat) : Nat :=
  if inside : place < bytes.size then bytes[place].toNat else 0

/-- The number of which `number` is the beginning and which goes on at a place with `width` bytes. -/
def numberFrom (number : Nat) (bytes : ByteArray) (place : Nat) : (width : Nat) → Nat
  | 0 => number
  | width + 1 => numberFrom (256 * number + byteAt bytes place) bytes (place + 1) width

def numberAt (width : Nat) (bytes : ByteArray) (place : Nat) : Nat := numberFrom 0 bytes place width

def fixed (width number : Nat) : ByteArray :=
  ⟨((List.range width).map fun i => UInt8.ofNat (number / Nat.pow 256 (width - 1 - i))).toArray⟩

/-- The bytes with others written over them from a place on. -/
def overwrite (bytes : ByteArray) (place : Nat) (part : ByteArray) : ByteArray :=
  part.copySlice 0 bytes place part.size

/-- The bytes with a number of `width` bytes written at a place. -/
def putNumber (width : Nat) (bytes : ByteArray) (place number : Nat) : ByteArray :=
  overwrite bytes place (fixed width number)

def zeros (count : Nat) : ByteArray := ⟨Array.replicate count 0⟩

/-- `count` bytes from a place on. -/
def part (bytes : ByteArray) (place count : Nat) : ByteArray := bytes.extract place (place + count)

/-- The variable number at a place, and how many bytes it has; `seen` bytes have made `number` so far. -/
def variableFrom (bytes : ByteArray) (place : Nat) : (missing seen number : Nat) → Nat × Nat
  | 0, seen, number => (256 * number + byteAt bytes (place + seen), seen + 1)
  | missing + 1, seen, number =>
    let byte := byteAt bytes (place + seen)
    if byte < 128 then (128 * number + byte, seen + 1)
    else variableFrom bytes place missing (seen + 1) (128 * number + byte % 128)

/-- The variable number at a place, and how many bytes it has. -/
def variableAt (bytes : ByteArray) (place : Nat) : Nat × Nat := variableFrom bytes place 8 0 0

/-- The bytes of a number below `2 ^ 56`, all but the last above 127, in front of `rest`. -/
def variableOnto (fuel number : Nat) (rest : List UInt8) : List UInt8 :=
  match fuel with
  | 0 => rest
  | fuel + 1 =>
    if number = 0 then rest else variableOnto fuel (number / 128) (UInt8.ofNat (128 + number % 128) :: rest)

/-- A number below `2 ^ 56` in bytes of variable width. -/
def variableNumber (number : Nat) : ByteArray :=
  ⟨(variableOnto 8 (number / 128) [UInt8.ofNat (number % 128)]).toArray⟩

end AbiRecovery.Database
