import AbiRecovery.Text.Utf8

/-!
# File names

The name of a file is a string of bytes, most of them UTF-8. A byte that is part of no character stands
in a text as the half of a surrogate pair whose number is U+DC00 and the byte together. Other halves have
no byte.
-/
namespace AbiRecovery.Text

/-- The place of the half that stands for the byte zero. -/
def firstByteHalf : Nat := 0x400

def Symbol.loneByte? : Symbol → Option UInt8
  | .char _ => none
  | .half place =>
    if firstByteHalf + 0x80 ≤ place.val && place.val ≤ firstByteHalf + 0xFF then
      some (UInt8.ofNat (place.val - firstByteHalf))
    else none

def Symbol.ofLoneByte (byte : UInt8) : Symbol := .ofNat (firstHalf + firstByteHalf + byte.toNat)

def fileName (t : Text) : Except HalfFault (List UInt8) :=
  match halfFault? (fun symbol => symbol.loneByte?.isSome) 0 t with
  | some fault => .error fault
  | none => .ok (t.flatMap fun symbol => symbol.loneByte?.elim symbol.utf8 ([·]))

/-- The text of a file name, of which at most `count` runs are no characters. -/
def ofFileNameWithin (count : Nat) (bytes : List UInt8) : Text :=
  match count, utf8From 0 none [] bytes with
  | _, .ok cs => ofChars cs
  | 0, .error _ => bytes.map .ofLoneByte
  | count + 1, .error fault =>
    ofChars ((utf8From 0 none [] (bytes.take fault.start)).toOption.getD []) ++
      fault.bytes.map .ofLoneByte ++
      ofFileNameWithin count (bytes.drop (fault.start + fault.bytes.length))

def ofFileName (bytes : List UInt8) : Text := ofFileNameWithin bytes.length bytes

end AbiRecovery.Text
