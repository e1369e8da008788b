import AbiRecovery.Opcode.Basic
import AbiRecovery.Text.Hexadecimal

/-!
# Mnemonics

The names of the instructions. Bytes that are no instruction have a name made of their number, which
cannot be mistaken for a mnemonic.
-/
namespace AbiRecovery.Opcode

/-- The instructions outside the four numbered families. -/
def plainMnemonics : List (UInt8 × String) :=
  [(0x00, "STOP"), (0x01, "ADD"), (0x02, "MUL"), (0x03, "SUB"), (0x04, "DIV"), (0x05, "SDIV"),
   (0x06, "MOD"), (0x07, "SMOD"), (0x08, "ADDMOD"), (0x09, "MULMOD"), (0x0A, "EXP"),
   (0x0B, "SIGNEXTEND"), (0x10, "LT"), (0x11, "GT"), (0x12, "SLT"), (0x13, "SGT"), (0x14, "EQ"),
   (0x15, "ISZERO"), (0x16, "AND"), (0x17, "OR"), (0x18, "XOR"), (0x19, "NOT"), (0x1A, "BYTE"),
   (0x1B, "SHL"), (0x1C, "SHR"), (0x1D, "SAR"), (0x20, "KECCAK256"), (0x30, "ADDRESS"),
   (0x31, "BALANCE"), (0x32, "ORIGIN"), (0x33, "CALLER"), (0x34, "CALLVALUE"),
   (0x35, "CALLDATALOAD"), (0x36, "CALLDATASIZE"), (0x37, "CALLDATACOPY"), (0x38, "CODESIZE"),
   (0x39, "CODECOPY"), (0x3A, "GASPRICE"), (0x3B, "EXTCODESIZE"), (0x3C, "EXTCODECOPY"),
   (0x3D, "RETURNDATASIZE"), (0x3E, "RETURNDATACOPY"), (0x3F, "EXTCODEHASH"), (0x40, "BLOCKHASH"),
   (0x41, "COINBASE"), (0x42, "TIMESTAMP"), (0x43, "NUMBER"), (0x44, "PREVRANDAO"),
   (0x45, "GASLIMIT"), (0x46, "CHAINID"), (0x47, "SELFBALANCE"), (0x48, "BASEFEE"),
   (0x49, "BLOBHASH"), (0x4A, "BLOBBASEFEE"), (0x50, "POP"), (0x51, "MLOAD"), (0x52, "MSTORE"),
   (0x53, "MSTORE8"), (0x54, "SLOAD"), (0x55, "SSTORE"), (0x56, "JUMP"), (0x57, "JUMPI"),
   (0x58, "PC"), (0x59, "MSIZE"), (0x5A, "GAS"), (0x5B, "JUMPDEST"), (0x5C, "TLOAD"),
   (0x5D, "TSTORE"), (0x5E, "MCOPY"), (0x5F, "PUSH0"), (0xF0, "CREATE"), (0xF1, "CALL"),
   (0xF2, "CALLCODE"), (0xF3, "RETURN"), (0xF4, "DELEGATECALL"), (0xF5, "CREATE2"),
   (0xFA, "STATICCALL"), (0xFD, "REVERT"), (0xFE, "INVALID"), (0xFF, "SELFDESTRUCT")]

/-- The name of an instruction of a numbered family: pushes, duplications, swaps and logs. -/
def familyMnemonic? (op : Opcode) : Option String :=
  let n := op.byte.toNat
  if 0x60 ≤ n && n < 0x80 then some ("PUSH" ++ toString (n - 0x5F))
  else if 0x80 ≤ n && n < 0x90 then some ("DUP" ++ toString (n - 0x7F))
  else if 0x90 ≤ n && n < 0xA0 then some ("SWAP" ++ toString (n - 0x8F))
  else if 0xA0 ≤ n && n < 0xA5 then some ("LOG" ++ toString (n - 0xA0))
  else none

def mnemonic? (op : Opcode) : Option String :=
  op.familyMnemonic? <|> plainMnemonics.lookup op.byte

def ofMnemonic? (name : String) : Option Opcode :=
  all.find? fun op => op.mnemonic? = some name

/-- A number in base sixteen with at least two characters; a negative one has its sign in front. -/
def signedHex (n : Int) : List Char :=
  if n < 0 then '-' :: Text.hexNumeral n.natAbs else Text.paddedHex 2 n.toNat

/-- The name of a number that is no instruction. -/
def unknownName (n : Int) : String := "UNKNOWN_0x" ++ String.ofList (signedHex n)

def name (op : Opcode) : String := op.mnemonic?.getD (unknownName op.byte.toNat)

/-- The name of a number where an opcode is looked for. -/
def nameOf (n : Int) : String :=
  match ofInt? n with
  | some op => op.name
  | none => unknownName n

end AbiRecovery.Opcode
