import AbiRecovery.Instruction

/-!
# Linear decoding

The instructions of code as a function of its bytes, without a cursor: each opcode takes the bytes
that follow it as its operand, as many as it asks for and the end of the code leaves. The main fact
is `decode_getElem?`: instruction `n` is read off the bytes at the offset `startOf code n`, the sum
of the sizes before it. `Boundary` says the same of offsets alone, with no list of instructions.
-/
namespace AbiRecovery

/-- The instructions of code in their order. -/
abbrev Decoding : Type := List Instruction

/-- The instructions of bytes the first of which stands at `offset`. -/
def decodeFrom (offset : Nat) : Bytes → Decoding
  | [] => []
  | byte :: rest =>
    let op : Opcode := ⟨byte⟩
    let operand := rest.take op.pushWidth
    ⟨offset, op, operand⟩ :: decodeFrom (offset + 1 + operand.length) (rest.drop op.pushWidth)
termination_by code => code.length

/-- The instructions of code. -/
def decode (code : Bytes) : Decoding := decodeFrom 0 code

namespace Instruction

/-- How many bytes an instruction takes. -/
def size (i : Instruction) : Nat := 1 + i.operand.length

end Instruction

namespace Decoding

/-- How many bytes the first `n` instructions take. -/
def span (is : Decoding) : Nat → Nat
  | 0 => 0
  | n + 1 => span is n + (is[n]?.map Instruction.size).getD 0

@[simp]
theorem span_zero (is : Decoding) : is.span 0 = 0 := rfl

theorem span_succ {is : Decoding} {n : Nat} {i : Instruction} (here : is[n]? = some i) :
    is.span (n + 1) = is.span n + i.size := by
  rw [span, here]
  rfl

theorem span_of_length_le {is : Decoding} {n : Nat} (past : is.length ≤ n) :
    is.span (n + 1) = is.span n := by
  rw [span, List.getElem?_eq_none past]
  rfl

theorem span_cons_succ (i : Instruction) (is : Decoding) (n : Nat) :
    span (i :: is) (n + 1) = i.size + is.span n := by
  induction n with
  | zero => simp [span]
  | succ n ih =>
    rw [span, ih, List.getElem?_cons_succ, Nat.add_assoc]
    rfl

/-- The instruction that stands `count` before number `n`. -/
def before? (is : Decoding) (n count : Nat) : Option Instruction :=
  if count ≤ n then is[n - count]? else none

theorem before?_add (is : Decoding) (n count : Nat) : is.before? (n + count) count = is[n]? := by
  unfold before?
  rw [if_pos (Nat.le_add_left count n), Nat.add_sub_cancel]

end Decoding

/-- The instructions after the first are those of the bytes after it. -/
theorem decodeFrom_cons (offset : Nat) (byte : UInt8) (rest : Bytes) :
    decodeFrom offset (byte :: rest) =
      ⟨offset, ⟨byte⟩, rest.take (Opcode.pushWidth ⟨byte⟩)⟩ ::
        decodeFrom (offset + 1 + (rest.take (Opcode.pushWidth ⟨byte⟩)).length)
          (rest.drop (Opcode.pushWidth ⟨byte⟩)) := by
  rw [decodeFrom]

/-- Leaving out the first `n` instructions leaves out their bytes. -/
theorem decodeFrom_drop (n offset : Nat) (code : Bytes) :
    (decodeFrom offset code).drop n =
      decodeFrom (offset + (decodeFrom offset code).span n)
        (code.drop ((decodeFrom offset code).span n)) := by
  induction n generalizing offset code with
  | zero => simp
  | succ n ih =>
    cases code with
    | nil => simp [decodeFrom]
    | cons byte rest =>
      have skipped : ∀ k : Nat, (rest.drop (Opcode.pushWidth ⟨byte⟩)).drop k =
          rest.drop ((rest.take (Opcode.pushWidth ⟨byte⟩)).length + k) := by
        intro k
        rw [List.drop_drop, List.length_take]
        rcases Nat.le_total (Opcode.pushWidth ⟨byte⟩) rest.length with fits | short
        · rw [Nat.min_eq_left fits]
        · rw [Nat.min_eq_right short, List.drop_of_length_le (by omega),
            List.drop_of_length_le (by omega)]
      rw [decodeFrom_cons, List.drop_succ_cons, ih, Decoding.span_cons_succ, skipped, Instruction.size,
        Nat.add_assoc 1, Nat.add_comm 1, List.drop_succ_cons]
      congr 1
      simp only [Nat.add_assoc, Nat.add_comm]

/-- The offset at which instruction `n` begins; the end of the code, if there are no so many. -/
def startOf (code : Bytes) (n : Nat) : Nat := (decode code).span n

@[simp]
theorem startOf_zero (code : Bytes) : startOf code 0 = 0 := rfl

/-- Instruction `n` is read off the bytes at its start. -/
theorem decode_getElem? (code : Bytes) (n : Nat) :
    (decode code)[n]? = code[startOf code n]?.map fun byte =>
      ⟨startOf code n, ⟨byte⟩, (code.drop (startOf code n + 1)).take (Opcode.pushWidth ⟨byte⟩)⟩ := by
  have dropped : (decode code).drop n = decodeFrom (startOf code n) (code.drop (startOf code n)) := by
    have split := decodeFrom_drop n 0 code
    rwa [Nat.zero_add] at split
  have head : (decode code)[n]? = ((decode code).drop n)[0]? := by
    rw [List.getElem?_drop, Nat.add_zero]
  have bytes : code[startOf code n]? = (code.drop (startOf code n))[0]? := by
    rw [List.getElem?_drop, Nat.add_zero]
  have later : code.drop (startOf code n + 1) = (code.drop (startOf code n)).drop 1 := by
    rw [List.drop_drop]
  rw [head, dropped, bytes, later]
  cases code.drop (startOf code n) with
  | nil => simp [decodeFrom]
  | cons byte rest => simp [decodeFrom_cons]

variable {code : Bytes} {n m : Nat} {i j : Instruction}

theorem offset_eq_startOf (here : (decode code)[n]? = some i) : i.offset = startOf code n := by
  rw [decode_getElem?] at here
  obtain ⟨byte, _, rfl⟩ := Option.map_eq_some_iff.mp here
  rfl

/-- The opcode of an instruction is the byte at its offset. -/
theorem getElem?_offset (here : (decode code)[n]? = some i) : code[i.offset]? = some i.opcode.byte := by
  rw [decode_getElem?] at here
  obtain ⟨byte, at_start, rfl⟩ := Option.map_eq_some_iff.mp here
  exact at_start

/-- The operand of an instruction is what its opcode asks for and the code has. -/
theorem operand_eq (here : (decode code)[n]? = some i) :
    i.operand = (code.drop (i.offset + 1)).take i.opcode.pushWidth := by
  rw [decode_getElem?] at here
  obtain ⟨byte, _, rfl⟩ := Option.map_eq_some_iff.mp here
  rfl

theorem startOf_succ (here : (decode code)[n]? = some i) : startOf code (n + 1) = i.offset + i.size := by
  rw [offset_eq_startOf here]
  exact Decoding.span_succ here

/-- Bytes are left at the start of an instruction exactly if it exists. -/
theorem startOf_lt_length_iff : startOf code n < code.length ↔ n < (decode code).length := by
  have absent : (decode code)[n]? = none ↔ code[startOf code n]? = none := by
    rw [decode_getElem?, Option.map_eq_none_iff]
  rw [List.getElem?_eq_none_iff, List.getElem?_eq_none_iff] at absent
  omega

/-- An instruction before another one has its whole operand. -/
theorem operand_length_eq_pushWidth (here : (decode code)[n]? = some i) (more : n + 1 < (decode code).length) :
    i.operand.length = i.opcode.pushWidth := by
  have bytes_left := startOf_lt_length_iff.mpr more
  rw [startOf_succ here, Instruction.size, operand_eq here, List.length_take, List.length_drop] at bytes_left
  rw [operand_eq here, List.length_take, List.length_drop]
  omega

/-- An instruction ends before each later one begins. -/
theorem offset_add_size_le_startOf (here : (decode code)[n]? = some i) (later : n < m) :
    i.offset + i.size ≤ startOf code m := by
  induction m with
  | zero => omega
  | succ m ih =>
    have monotone : startOf code m ≤ startOf code (m + 1) := by
      cases there : (decode code)[m]? with
      | none => exact Nat.le_of_eq (Decoding.span_of_length_le (List.getElem?_eq_none_iff.mp there)).symm
      | some j =>
        rw [startOf_succ there, offset_eq_startOf there]
        exact Nat.le_add_right _ _
    rcases Nat.lt_succ_iff_lt_or_eq.mp later with before | rfl
    · exact Nat.le_trans (ih before) monotone
    · exact Nat.le_of_eq (startOf_succ here).symm

/-- Instructions begin in the order of their numbers. -/
theorem startOf_lt_startOf (before : n < m) (inside : m < (decode code).length) :
    startOf code n < startOf code m := by
  have here := List.getElem?_eq_getElem (Nat.lt_trans before inside)
  have ends := offset_add_size_le_startOf here before
  rw [offset_eq_startOf here, Instruction.size] at ends
  omega

/-- Instructions stand in the order of their offsets. -/
theorem startOf_le_startOf_iff (inside : n < (decode code).length) (inside' : m < (decode code).length) :
    startOf code n ≤ startOf code m ↔ n ≤ m := by
  constructor
  · intro before
    refine Nat.le_of_not_lt fun behind => ?_
    exact Nat.not_le_of_lt (startOf_lt_startOf behind inside) before
  · intro ordered
    rcases Nat.lt_or_eq_of_le ordered with before | rfl
    · exact Nat.le_of_lt (startOf_lt_startOf before inside')
    · exact Nat.le_refl _

/-- An instruction is known by its offset. -/
theorem eq_of_startOf_eq (inside : n < (decode code).length) (inside' : m < (decode code).length)
    (same : startOf code n = startOf code m) : n = m :=
  Nat.le_antisymm ((startOf_le_startOf_iff inside inside').mp (Nat.le_of_eq same))
    ((startOf_le_startOf_iff inside' inside).mp (Nat.le_of_eq same.symm))

/-- Without an operand the next instruction begins one byte on. -/
theorem startOf_succ_of_pushWidth_eq_zero (here : (decode code)[n]? = some i)
    (bare : i.opcode.pushWidth = 0) : startOf code (n + 1) = i.offset + 1 := by
  rw [startOf_succ here, Instruction.size, operand_eq here, bare, List.take_zero]
  rfl

/-- The offsets that a machine comes to when it steps from opcode to opcode, over the operands. -/
inductive Boundary (code : Bytes) : Nat → Prop
  | entry : Boundary code 0
  | next (offset : Nat) (byte : UInt8) (reached : Boundary code offset)
      (here : code[offset]? = some byte) : Boundary code (offset + 1 + Opcode.pushWidth ⟨byte⟩)

/-- A valid jump destination: a label byte that no operand hides. -/
def ValidDestination (code : Bytes) (offset : Nat) : Prop :=
  Boundary code offset ∧ code[offset]? = some Opcode.jumpdest.byte

theorem boundary_startOf (inside : n < (decode code).length) : Boundary code (startOf code n) := by
  induction n with
  | zero => exact .entry
  | succ n ih =>
    have here := List.getElem?_eq_getElem (Nat.lt_of_succ_lt inside)
    have reached := ih (Nat.lt_of_succ_lt inside)
    have full := operand_length_eq_pushWidth here inside
    have stepped := Boundary.next _ _ reached (offset_eq_startOf here ▸ getElem?_offset here)
    rw [startOf_succ here, Instruction.size, full, offset_eq_startOf here, ← Nat.add_assoc]
    exact stepped

theorem Boundary.exists_startOf {offset : Nat} (reached : Boundary code offset)
    (inside : offset < code.length) : ∃ n, startOf code n = offset := by
  induction reached with
  | entry => exact ⟨0, rfl⟩
  | next offset byte _ at_offset ih =>
    obtain ⟨n, rfl⟩ := ih (List.getElem?_eq_some_iff.mp at_offset).1
    have here := decode_getElem? code n
    rw [at_offset, Option.map_some] at here
    refine ⟨n + 1, ?_⟩
    rw [startOf_succ here, Instruction.size, List.length_take, List.length_drop]
    dsimp only
    omega

/-- Valid destinations are the offsets of the labels that linear decoding meets. -/
theorem validDestination_iff {offset : Nat} :
    ValidDestination code offset ↔
      ∃ (n : Nat) (i : Instruction), (decode code)[n]? = some i ∧ i.opcode = .jumpdest ∧ i.offset = offset := by
  constructor
  · rintro ⟨reached, label⟩
    obtain ⟨n, rfl⟩ := reached.exists_startOf (List.getElem?_eq_some_iff.mp label).1
    have here := decode_getElem? code n
    rw [label, Option.map_some] at here
    exact ⟨n, _, here, rfl, rfl⟩
  · rintro ⟨n, i, here, label, rfl⟩
    have inside := (List.getElem?_eq_some_iff.mp here).1
    refine ⟨offset_eq_startOf here ▸ boundary_startOf inside, ?_⟩
    rw [getElem?_offset here, label]

end AbiRecovery
