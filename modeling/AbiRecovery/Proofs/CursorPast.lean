import AbiRecovery.Proofs.Decoding

/-!
# The cursor over decoded instructions

A cursor that has taken `n` instructions is determined by the code, its capacity and `n`
(`Cursor.past`). Taking leads from one such cursor to the next, looking back reads the instructions
before it as far as the capacity reaches, and looking at the start of an instruction reads its opcode.
-/
namespace AbiRecovery

namespace Cursor

/-- The cursor over code that has taken `n` instructions. -/
def past (code : Bytes) (capacity n : Nat) : Cursor where
  code := code.toArray
  capacity := capacity
  next := startOf code n
  taken := n
  history := ((decode code).take n).reverse.map Instruction.offset

variable {code : Bytes} {capacity n : Nat} {i : Instruction}

theorem start_eq_past (code : Bytes) (capacity : Nat) : start code capacity = past code capacity 0 := rfl

@[simp]
theorem hasMore_past : (past code capacity n).hasMore = decide (n < (decode code).length) := by
  unfold hasMore
  apply decide_eq_decide.mpr
  have size : (past code capacity n).code.size = code.length := List.size_toArray
  rw [size]
  exact startOf_lt_length_iff

/-- The opcode at the start of an instruction; past the last one it is `STOP`. -/
theorem opcodeAt_startOf (m : Nat) :
    (past code capacity n).opcodeAt (startOf code m) = ((decode code)[m]?.map Instruction.opcode).getD .stop := by
  have byte_at : (past code capacity n).code[startOf code m]? = code[startOf code m]? := by
    simp [past]
  rw [opcodeAt, byte_at, decode_getElem?]
  cases code[startOf code m]? with
  | none => rfl
  | some byte => rfl

theorem opcodeAt_offset {j : Instruction} {m : Nat} (there : (decode code)[m]? = some j) :
    (past code capacity n).opcodeAt j.offset = j.opcode := by
  rw [offset_eq_startOf there, opcodeAt_startOf, there]
  rfl

theorem operandAt_offset {j : Instruction} {m : Nat} (there : (decode code)[m]? = some j) :
    (past code capacity n).operandAt j.offset = j.operand := by
  rw [operandAt, opcodeAt_offset there, operand_eq there]
  simp only [past, List.extract_toArray, List.extract_eq_take_drop]
  congr 1
  omega

/-- Taking an instruction leads to the cursor that has taken one more. -/
theorem take_past (here : (decode code)[n]? = some i) :
    (past code capacity n).take = (i.opcode, past code capacity (n + 1)) := by
  have inside : n < (decode code).length := (List.getElem?_eq_some_iff.mp here).1
  have opcode : (past code capacity n).opcodeAt (startOf code n) = i.opcode := by
    rw [opcodeAt_startOf, here]
    rfl
  have width : min i.opcode.pushWidth (code.length - startOf code n - 1) = i.operand.length := by
    rw [operand_eq here, offset_eq_startOf here, List.length_take, List.length_drop, Nat.sub_sub]
  have history : startOf code n :: ((decode code).take n).reverse.map Instruction.offset =
      ((decode code).take (n + 1)).reverse.map Instruction.offset := by
    rw [List.take_add_one, here, ← offset_eq_startOf here]
    simp
  have next : startOf code n + 1 + i.operand.length = startOf code (n + 1) := by
    rw [startOf_succ here, offset_eq_startOf here, Instruction.size, Nat.add_assoc]
  unfold take
  rw [hasMore_past, decide_eq_true inside, if_pos rfl]
  have at_next : (past code capacity n).next = startOf code n := rfl
  have size : (past code capacity n).code.size = code.length := List.size_toArray
  simp only [at_next, opcode, size, width, next, Prod.mk.injEq, true_and]
  simp only [past, history]

/-! ## Capacities -/

theorem capacityFor_of_le {size : Int} (held : size ≤ SizeLimit.greatest) :
    capacityFor size = .ok (max size 1).toNat := if_pos held

theorem capacityFor_of_lt {size : Int} (beyond : SizeLimit.greatest < size) :
    capacityFor size = .error .noSize := if_neg (Int.not_le.mpr beyond)

/-- A capacity has room for one instruction, whatever the size it is made from. -/
theorem pos_of_capacityFor {size : Int} (kept : capacityFor size = .ok capacity) : 0 < capacity := by
  unfold capacityFor at kept
  split at kept
  · cases kept
    omega
  · cases kept

/-! ## Looking back -/

variable {count : Nat}

/-- A step back within the capacity reaches the instruction that stands there. -/
theorem offset_back {j : Instruction} (positive : 0 < count) (taken : count ≤ n) (kept : count ≤ capacity)
    (inside : n ≤ (decode code).length) (there : (decode code)[n - count]? = some j) :
    (past code capacity n).offset (-(count : Int)) = .ok j.offset := by
  have length : ((decode code).take n).length = n := by
    rw [List.length_take, Nat.min_eq_left inside]
  have remembered : (past code capacity n).history[count - 1]? = some j.offset := by
    have from_end : n - 1 - (count - 1) = n - count := by omega
    show (((decode code).take n).reverse.map Instruction.offset)[count - 1]? = some j.offset
    rw [List.getElem?_map, List.getElem?_reverse (by omega), length, from_end,
      List.getElem?_take_of_lt (by omega), there]
    rfl
  have depth : count ≤ (past code capacity n).depth := Nat.le_min.mpr ⟨taken, kept⟩
  have negative : (-(count : Int)) < 0 := by omega
  have steps : (-(count : Int)).natAbs = count := by omega
  unfold offset
  rw [if_pos negative, steps, remembered]
  simp only [depth, if_true]

theorem opcode_back {j : Instruction} (positive : 0 < count) (taken : count ≤ n) (kept : count ≤ capacity)
    (inside : n ≤ (decode code).length) (there : (decode code)[n - count]? = some j) :
    (past code capacity n).opcode (-(count : Int)) = .ok j.opcode := by
  rw [opcode, offset_back positive taken kept inside there]
  exact congrArg Except.ok (opcodeAt_offset there)

theorem operand_back {j : Instruction} (positive : 0 < count) (taken : count ≤ n) (kept : count ≤ capacity)
    (inside : n ≤ (decode code).length) (there : (decode code)[n - count]? = some j) :
    (past code capacity n).operand (-(count : Int)) = .ok j.operand := by
  rw [operand, offset_back positive taken kept inside there]
  exact congrArg Except.ok (operandAt_offset there)

/-- Within the capacity the guarded look back is total: it finds what stands before the instruction
taken last, if there is so much. -/
theorem back?_past (count : Nat) (kept : count + 1 ≤ capacity) (inside : n < (decode code).length) :
    (past code capacity (n + 1)).back? (count + 1) =
      .ok (((decode code).before? n count).map Instruction.opcode) := by
  have depth : (past code capacity (n + 1)).depth = min (n + 1) capacity := rfl
  unfold back? Decoding.before?
  by_cases taken : count ≤ n
  · have there := List.getElem?_eq_getElem (l := decode code) (i := n - count) (by omega)
    have number : n + 1 - (count + 1) = n - count := Nat.add_sub_add_right n 1 count
    have found : (past code capacity (n + 1)).opcode (-((count + 1 : Nat) : Int)) =
        .ok (decode code)[n - count].opcode :=
      opcode_back (Nat.succ_pos count) (Nat.succ_le_succ taken) kept inside (by rw [number]; exact there)
    rw [depth, if_neg (by omega), if_pos taken, found, there]
    rfl
  · rw [depth, if_pos (by omega), if_neg taken]
    rfl

theorem operand_before (count : Nat) {j : Instruction} (kept : count + 1 ≤ capacity)
    (inside : n < (decode code).length) (there : (decode code).before? n count = some j) :
    (past code capacity (n + 1)).operand (-((count + 1 : Nat) : Int)) = .ok j.operand := by
  unfold Decoding.before? at there
  split at there
  next taken =>
    have number : n + 1 - (count + 1) = n - count := Nat.add_sub_add_right n 1 count
    exact operand_back (Nat.succ_pos count) (Nat.succ_le_succ taken) kept inside (by rw [number]; exact there)
  next => cases there

theorem position_past (here : (decode code)[n]? = some i) :
    (past code capacity (n + 1)).position = i.offset := by
  have taken : (past code capacity (n + 1)).history =
      i.offset :: ((decode code).take n).reverse.map Instruction.offset := by
    show ((decode code).take (n + 1)).reverse.map Instruction.offset = _
    rw [List.take_add_one, here]
    simp
  unfold position
  rw [taken]

theorem step_past : (past code capacity (n + 1)).step = n := by
  show ((n + 1 : Nat) : Int) - 1 = n
  omega

/-! ## Listing instructions -/

/-- With room for one instruction the cursor lists what linear decoding gives. -/
theorem instructionsFrom_past (room : 0 < capacity) (n : Nat) :
    (past code capacity n).instructionsFrom ((decode code).take n).reverse = .ok (decode code) := by
  rw [instructionsFrom]
  by_cases more : n < (decode code).length
  · have here := List.getElem?_eq_getElem more
    have operand : (past code capacity (n + 1)).operand (-((1 : Nat) : Int)) = .ok (decode code)[n].operand :=
      operand_back Nat.one_pos (Nat.succ_pos n) room more here
    have listed : (decode code)[n] :: ((decode code).take n).reverse =
        ((decode code).take (n + 1)).reverse := by
      rw [List.take_add_one, here, Option.toList_some, List.reverse_append]
      rfl
    have rest := instructionsFrom_past room (n + 1)
    rw [dif_pos (by simpa using more)]
    simp only [take_past here, position_past here, Int.toNat_natCast]
    rw [show ((-1 : Int) = -((1 : Nat) : Int)) from rfl, operand]
    simp only [listed, rest]
  · have all : (decode code).take n = decode code := List.take_of_length_le (Nat.le_of_not_lt more)
    rw [dif_neg (by simpa using more), all, List.reverse_reverse]
termination_by (decode code).length - n

end Cursor

theorem instructions_eq_decode {capacity : Nat} (room : 0 < capacity) (code : Bytes) :
    instructions capacity code = .ok (decode code) :=
  Cursor.instructionsFrom_past room 0

end AbiRecovery
