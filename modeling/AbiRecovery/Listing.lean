import AbiRecovery.Instruction
import AbiRecovery.Opcode.Mnemonic

/-!
# Listings

One line an instruction: its offset with at least six hexadecimal digits, its name, and its operand if
it has one.
-/
namespace AbiRecovery

def Instruction.line (i : Instruction) : Text :=
  let head : Text := Text.ofChars (Text.paddedHex 6 i.offset) ++ "  " ++ i.opcode.name
  if i.operand.isEmpty then head else head ++ " " ++ Hex.encodeMarked i.operand

/-- The lines of code, whose instructions are taken by a cursor that remembers `capacity` of them. -/
def listing (capacity : Nat) (code : Bytes) : Except LookbackFault (List Text) :=
  (List.map Instruction.line) <$> instructions capacity code

end AbiRecovery
