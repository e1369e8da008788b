import AbiRecovery.Proofs.Decoding

/-!
# What stands at an instruction

The patterns that a scan looks for, read off the list of instructions: number `n` together with the
few instructions before it or after it. Nothing here depends on what a scan has found earlier.
-/
namespace AbiRecovery

namespace Opcode

/-- Whether control may pass on to the next instruction. -/
def fallsThrough (op : Opcode) : Bool := !(op.isHalt || op = .jump)

end Opcode

namespace Decoding

variable (is : Decoding) (n count : Nat)

/-- Whether number `n` exists and has an opcode. -/
def has (op : Opcode) : Bool := is[n]?.any fun i => i.opcode = op

/-- Whether the instruction that stands `count` before number `n` exists and has an opcode. -/
def hasBefore (op : Opcode) : Bool := (is.before? n count).any fun i => i.opcode = op

/-- The constant that the instruction `count` before number `n` pushes, if it is a push. -/
def pushedBefore? : Option Bytes :=
  ((is.before? n count).filter fun i => i.opcode.isPush).map Instruction.operand

/-- Whether a region begins at number `n`: a label after an instruction that never falls through. -/
def opensRegion : Bool :=
  is.has n .jumpdest && (is.before? n 1).any fun i => !i.opcode.fallsThrough

/-- Whether number `n` is a label followed by `CALLVALUE DUP1 ISZERO`. -/
def isGuarded : Bool :=
  is.has n .jumpdest && is.has (n + 1) .callvalue && is.has (n + 2) .dup1 && is.has (n + 3) .iszero

/-- Whether the region that number `n` opens begins as a part of a dispatch table does. -/
def beginsTable : Bool := is.has (n + 1) .dup1 || is.has (n + 1) .calldataload

/-- The target of the jump at number `n`, if it is pushed right before. -/
def staticTarget? : Option Nat :=
  if is.has n .jump || is.has n .jumpi then (is.pushedBefore? n 1).map Bytes.toNat else none

/-- The target of the jump at number `n`, if it leads to another part of the dispatch table: an
unconditional jump, or one on a test for order. -/
def resumeTarget? : Option Nat :=
  if is.has n .jump ||
      (is.has n .jumpi && (is.hasBefore n 2 .lt || is.hasBefore n 2 .gt) && is.hasBefore n 4 .dup1) then
    (is.pushedBefore? n 1).map Bytes.toNat
  else none

/-- The constant and the target of the jump at number `n`, if it is an entry of the dispatch table: one
on an equality test with a constant, whichever of the two operands is pushed first. -/
def entryAt? : Option (Bytes × Nat) :=
  if is.has n .jumpi && is.hasBefore n 2 .eq then
    (is.pushedBefore? n 1).bind fun target =>
      ((is.pushedBefore? n 3).or
          (if is.hasBefore n 3 .dup2 then is.pushedBefore? n 4 else none)).map fun constant =>
        (constant, target.toNat)
  else none

variable {is : Decoding} {n count : Nat} {i : Instruction}

theorem has_eq (here : is[n]? = some i) (op : Opcode) : is.has n op = decide (i.opcode = op) := by
  unfold has
  rw [here]
  rfl

theorem has_iff {op : Opcode} : is.has n op ↔ ∃ i, is[n]? = some i ∧ i.opcode = op := by
  unfold has
  cases is[n]? with
  | none => simp
  | some i => simp

theorem lt_length_of_has {op : Opcode} (has : is.has n op) : n < is.length := by
  obtain ⟨i, here, _⟩ := has_iff.mp has
  exact (List.getElem?_eq_some_iff.mp here).1

theorem lt_length_of_staticTarget? {target : Nat} (pushed : is.staticTarget? n = some target) : n < is.length := by
  unfold staticTarget? at pushed
  split at pushed
  next jumps =>
    rcases Bool.or_eq_true_iff.mp jumps with jump | jumpi
    · exact lt_length_of_has jump
    · exact lt_length_of_has jumpi
  next => cases pushed

/-- Only a label opens a region. -/
theorem has_jumpdest_of_opensRegion (opens : is.opensRegion n) : is.has n .jumpdest := by
  unfold opensRegion at opens
  exact (Bool.and_eq_true_iff.mp opens).1

/-- The first instruction opens no region. -/
@[simp]
theorem opensRegion_zero (is : Decoding) : is.opensRegion 0 = false := by
  simp [opensRegion, before?]

/-- An instruction has one opcode. -/
theorem has_of_ne {op other : Opcode} (has : is.has n op) (different : op ≠ other) : is.has n other = false := by
  obtain ⟨i, here, rfl⟩ := has_iff.mp has
  rw [has_eq here, decide_eq_false different]

theorem hasBefore_of_ne {op other : Opcode} (has : is.hasBefore n count op) (different : op ≠ other) :
    is.hasBefore n count other = false := by
  unfold hasBefore at has ⊢
  cases found : is.before? n count with
  | none => rfl
  | some i =>
    have opcode : i.opcode = op := by simpa [found] using has
    simp [opcode, different]

theorem hasBefore_add (is : Decoding) (n count : Nat) (op : Opcode) : is.hasBefore (n + count) count op = is.has n op := by
  unfold hasBefore
  rw [before?_add]
  rfl

theorem pushedBefore?_add (here : is[n]? = some i) (constant : i.opcode.isPush) :
    is.pushedBefore? (n + count) count = some i.operand := by
  unfold pushedBefore?
  rw [before?_add, here, Option.filter_some, if_pos constant, Option.map_some]

/-! A label is no jump, so nothing that is read off jumps happens at it. -/

theorem staticTarget?_of_label (label : is.has n .jumpdest) : is.staticTarget? n = none := by
  simp [staticTarget?, has_of_ne label (show Opcode.jumpdest ≠ .jump by decide),
    has_of_ne label (show Opcode.jumpdest ≠ .jumpi by decide)]

theorem resumeTarget?_of_label (label : is.has n .jumpdest) : is.resumeTarget? n = none := by
  simp [resumeTarget?, has_of_ne label (show Opcode.jumpdest ≠ .jump by decide),
    has_of_ne label (show Opcode.jumpdest ≠ .jumpi by decide)]

theorem entryAt?_of_label (label : is.has n .jumpdest) : is.entryAt? n = none := by
  simp [entryAt?, has_of_ne label (show Opcode.jumpdest ≠ .jumpi by decide)]

end Decoding

end AbiRecovery
