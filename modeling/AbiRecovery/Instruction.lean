import AbiRecovery.Cursor

/-!
# Instructions

Code as the list of its instructions, each with the offset of its opcode and with its operand. Only
the last operand may be shorter than its opcode asks for.
-/
namespace AbiRecovery

structure Instruction where
  offset : Nat
  opcode : Opcode
  operand : Bytes
  deriving DecidableEq, Repr

namespace Instruction

def bytes (i : Instruction) : Bytes := i.opcode.byte :: i.operand

end Instruction

/-- The instructions that a cursor still takes, after those in `done`, which stand last first. -/
def Cursor.instructionsFrom (c : Cursor) (done : List Instruction) :
    Except LookbackFault (List Instruction) :=
  if _more : c.hasMore then
    let taken := c.take
    match taken.2.operand (-1) with
    | .ok operand => taken.2.instructionsFrom (⟨taken.2.position.toNat, taken.1, operand⟩ :: done)
    | .error fault => .error fault
  else .ok done.reverse
termination_by c.code.size - c.next
decreasing_by
  have sameCode : c.take.2.code = c.code := by simp [take, _more]
  rw [sameCode]
  exact take_next_lt _more

/-- The instructions of code, taken by a cursor that remembers `capacity` of them. -/
def instructions (capacity : Nat) (code : Bytes) : Except LookbackFault (List Instruction) :=
  (Cursor.start code capacity).instructionsFrom []

end AbiRecovery
