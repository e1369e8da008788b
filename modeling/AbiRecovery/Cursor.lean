import AbiRecovery.Hex
import AbiRecovery.Opcode.Basic
import AbiRecovery.Text.Integer

/-!
# A cursor over code

The cursor takes one instruction after another and steps over operands, so an operand byte is never
taken for an opcode. It answers questions about the latest instructions only, at most as many as its
capacity; one about an earlier instruction is refused. Past the end the code reads as `STOP`.
-/
namespace AbiRecovery

/-- A place in code is named by its offset, or by a negative number of steps back: `-1` is the
instruction taken last. -/
abbrev Place : Type := Int

/-- Why a step back is refused. -/
inductive LookbackFault where
  /-- It goes beyond the `depth` instructions that are remembered, of `capacity` that can be. -/
  | beyond (step : Int) (depth capacity : Nat)
  /-- It goes so far beyond that its number cannot be told. -/
  | untold
  deriving DecidableEq, Repr

def LookbackFault.message : LookbackFault → String
  | .beyond step depth capacity => "buffer does not contain relative step " ++ toString step ++ " (depth=" ++
      toString depth ++ ", size=" ++ toString capacity ++ ")"
  | .untold => Text.longIntegerMessage

structure Cursor where
  code : Array UInt8
  /-- How many instructions are remembered at most. -/
  capacity : Nat
  /-- The offset of the next instruction. -/
  next : Nat
  /-- How many instructions have been taken. -/
  taken : Nat
  /-- The offsets of the instructions that have been taken, latest first. -/
  history : List Nat
  deriving DecidableEq, Repr

namespace Cursor

/-- The capacity for a size that comes from outside. A size below one counts as one. -/
def capacityFor (size : Int) : Except SizeFault Nat :=
  if size ≤ SizeLimit.greatest then .ok (max size 1).toNat else .error .noSize

def start (code : Bytes) (capacity : Nat) : Cursor := ⟨code.toArray, capacity, 0, 0, []⟩

def hasMore (c : Cursor) : Bool := c.next < c.code.size

def opcodeAt (c : Cursor) (offset : Nat) : Opcode :=
  match c.code[offset]? with
  | some byte => ⟨byte⟩
  | none => .stop

/-- The operand of the instruction at an offset; the end of the code cuts it short. -/
def operandAt (c : Cursor) (offset : Nat) : Bytes :=
  (c.code.extract (offset + 1) (offset + 1 + (c.opcodeAt offset).pushWidth)).toList

/-- Takes an instruction. With no bytes left it is `STOP`, and the cursor stays where it is. -/
def take (c : Cursor) : Opcode × Cursor :=
  if c.hasMore then
    let op := c.opcodeAt c.next
    let width := min op.pushWidth (c.code.size - c.next - 1)
    (op, { c with
      next := c.next + 1 + width
      taken := c.taken + 1
      history := c.next :: c.history })
  else (.stop, c)

/-- The number of the instruction taken last, counted from zero; `-1` before the first. -/
def step (c : Cursor) : Int := (c.taken : Int) - 1

/-- The offset of the instruction taken last; `-1` before the first. -/
def position (c : Cursor) : Int :=
  match c.history with
  | [] => -1
  | offset :: _ => offset

/-- How many instructions are remembered. -/
def depth (c : Cursor) : Nat := min c.taken c.capacity

/-- Why a step back beyond the history is refused. -/
def refusal (c : Cursor) (step : Int) : LookbackFault :=
  if Text.isLong step then .untold else .beyond step c.depth c.capacity

def offset (c : Cursor) (place : Place) : Except LookbackFault Nat :=
  if place < 0 then
    match c.history[place.natAbs - 1]? with
    | some offset => if place.natAbs ≤ c.depth then .ok offset else .error (c.refusal place)
    | none => .error (c.refusal place)
  else .ok place.toNat

def opcode (c : Cursor) (place : Place) : Except LookbackFault Opcode :=
  c.opcodeAt <$> c.offset place

def operand (c : Cursor) (place : Place) : Except LookbackFault Bytes :=
  c.operandAt <$> c.offset place

/-- The opcode a number of instructions back, counted from one, if so many are remembered. -/
def back? (c : Cursor) (count : Nat) : Except LookbackFault (Option Opcode) :=
  if count > c.depth then .ok none else some <$> c.opcode (-(count : Int))

/-- Taking an instruction from bytes leaves fewer bytes. -/
theorem take_next_lt {c : Cursor} (h : c.hasMore) :
    c.code.size - (c.take).2.next < c.code.size - c.next := by
  have bytesLeft : c.next < c.code.size := by simpa [hasMore] using h
  simp only [take, h, if_true]
  omega

end Cursor

end AbiRecovery
