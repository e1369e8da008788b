/-!
# Opcodes

The first byte of an instruction, and the families that matter for a scan. A push instruction of the
family `PUSH1` to `PUSH32` is followed by one to thirty-two operand bytes; every other instruction is
a single byte.
-/
namespace AbiRecovery

/-- The first byte of an instruction. -/
structure Opcode where
  byte : UInt8
  deriving DecidableEq, Repr, Inhabited

namespace Opcode

def stop : Opcode := ⟨0x00⟩
def lt : Opcode := ⟨0x10⟩
def gt : Opcode := ⟨0x11⟩
def eq : Opcode := ⟨0x14⟩
def iszero : Opcode := ⟨0x15⟩
def callvalue : Opcode := ⟨0x34⟩
def calldataload : Opcode := ⟨0x35⟩
def calldatasize : Opcode := ⟨0x36⟩
def calldatacopy : Opcode := ⟨0x37⟩
def sload : Opcode := ⟨0x54⟩
def sstore : Opcode := ⟨0x55⟩
def jump : Opcode := ⟨0x56⟩
def jumpi : Opcode := ⟨0x57⟩
def jumpdest : Opcode := ⟨0x5B⟩
def push0 : Opcode := ⟨0x5F⟩
def push1 : Opcode := ⟨0x60⟩
def push32 : Opcode := ⟨0x7F⟩
def dup1 : Opcode := ⟨0x80⟩
def dup2 : Opcode := ⟨0x81⟩
def log0 : Opcode := ⟨0xA0⟩
def log4 : Opcode := ⟨0xA4⟩
def return_ : Opcode := ⟨0xF3⟩
def revert : Opcode := ⟨0xFD⟩
def invalid : Opcode := ⟨0xFE⟩
def selfdestruct : Opcode := ⟨0xFF⟩

/-- Whether the instruction pushes a constant, `PUSH0` included. -/
def isPush (op : Opcode) : Bool := push0.byte ≤ op.byte && op.byte ≤ push32.byte

def pushWidth (op : Opcode) : Nat :=
  if push1.byte ≤ op.byte && op.byte ≤ push32.byte then op.byte.toNat - push1.byte.toNat + 1 else 0

def isLog (op : Opcode) : Bool := log0.byte ≤ op.byte && op.byte ≤ log4.byte

def isHalt (op : Opcode) : Bool := [stop, return_, revert, invalid, selfdestruct].contains op

/-- Whether the instruction compares two values: `LT`, `GT`, `SLT`, `SGT` or `EQ`. -/
def isCompare (op : Opcode) : Bool := lt.byte ≤ op.byte && op.byte ≤ eq.byte

/-- The opcode with a number, if the number is a byte. -/
def ofInt? (n : Int) : Option Opcode :=
  if 0 ≤ n && n < 256 then some ⟨UInt8.ofNat n.toNat⟩ else none

def all : List Opcode := (List.range 256).map fun n => ⟨UInt8.ofNat n⟩

/-- The families that an instruction belongs to. -/
structure Traits where
  isPush : Bool
  pushWidth : Nat
  isLog : Bool
  isHalt : Bool
  isCompare : Bool
  deriving DecidableEq, Repr

def traits (op : Opcode) : Traits := ⟨op.isPush, op.pushWidth, op.isLog, op.isHalt, op.isCompare⟩

/-- The families of a number where an opcode is looked for: a number that is no byte, and a missing
one, belong to none. -/
def traitsOf (n : Option Int) : Traits :=
  match n.bind ofInt? with
  | some op => op.traits
  | none => ⟨false, 0, false, false, false⟩

end Opcode

end AbiRecovery
