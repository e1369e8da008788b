import AbiRecovery.Proofs.CursorPast

/-!
# Assembling instructions

The way back from instructions to code. Instructions that come from code lie one behind another
without a gap, and their bytes in order are the code (`assemble_decode`, `laidOut_decode`). Opcodes
with operands that are put one behind another are read back as they were (`decodeFrom_encode`); only
the last operand may be shorter than its opcode asks for, since any other would take bytes from the
next instruction.
-/
namespace AbiRecovery

namespace Decoding

/-- The bytes of instructions in their order. -/
def assemble (is : Decoding) : Bytes := is.flatMap Instruction.bytes

/-- Instructions that lie one behind another from offset zero on, each with the operand that its opcode
asks for; only the last operand may be shorter. -/
structure LaidOut (is : Decoding) : Prop where
  placed : ∀ (n : Nat) (i : Instruction), is[n]? = some i → i.offset = (assemble (is.take n)).length
  fitting : ∀ (n : Nat) (i : Instruction), is[n]? = some i → i.operand.length ≤ i.opcode.pushWidth
  complete : ∀ (n : Nat) (i : Instruction), is[n]? = some i → n + 1 < is.length →
    i.operand.length = i.opcode.pushWidth

theorem length_assemble_take (is : Decoding) (n : Nat) : (assemble (is.take n)).length = is.span n := by
  induction n with
  | zero => rfl
  | succ n ih =>
    unfold assemble at ih ⊢
    rw [List.take_add_one, List.flatMap_append, List.length_append, ih, span]
    cases is[n]? with
    | none => rfl
    | some i => simp [Instruction.bytes, Instruction.size, Nat.add_comm]

end Decoding

/-- The bytes of the instructions are the bytes they were read from. -/
theorem assemble_decodeFrom (offset : Nat) (code : Bytes) : (decodeFrom offset code).assemble = code := by
  fun_induction decodeFrom offset code with
  | case1 => rfl
  | case2 offset byte rest op operand ih =>
    unfold Decoding.assemble at ih ⊢
    rw [List.flatMap_cons, ih]
    exact congrArg (byte :: ·) (List.take_append_drop op.pushWidth rest)

theorem assemble_decode (code : Bytes) : (decode code).assemble = code := assemble_decodeFrom 0 code

theorem laidOut_decode (code : Bytes) : (decode code).LaidOut := by
  constructor
  case placed =>
    intro n i here
    rw [Decoding.length_assemble_take]
    exact offset_eq_startOf here
  case fitting =>
    intro n i here
    rw [operand_eq here, List.length_take]
    exact Nat.min_le_left _ _
  case complete =>
    intro n i here more
    exact operand_length_eq_pushWidth here more

/-! ## From opcodes and operands -/

/-- Opcodes with their operands, in no place yet. -/
abbrev Pieces : Type := List (Opcode × Bytes)

namespace Pieces

/-- No operand is longer than its opcode asks for, and only the last may be shorter. -/
def WellFormed : Pieces → Prop
  | [] => True
  | (op, operand) :: rest =>
    operand.length ≤ op.pushWidth ∧ (rest ≠ [] → operand.length = op.pushWidth) ∧ WellFormed rest

/-- The bytes of pieces in their order. -/
def encode (pieces : Pieces) : Bytes := pieces.flatMap fun piece => piece.1.byte :: piece.2

/-- Pieces one behind another from an offset on. -/
def placedFrom (offset : Nat) : Pieces → Decoding
  | [] => []
  | (op, operand) :: rest => ⟨offset, op, operand⟩ :: placedFrom (offset + 1 + operand.length) rest

end Pieces

/-- An operand ends where the next piece begins. -/
theorem take_drop_operand {op : Opcode} {operand : Bytes} {rest : Pieces}
    (formed : Pieces.WellFormed ((op, operand) :: rest)) :
    (operand ++ Pieces.encode rest).take op.pushWidth = operand ∧
      (operand ++ Pieces.encode rest).drop op.pushWidth = Pieces.encode rest := by
  obtain ⟨fitting, complete, _⟩ := formed
  by_cases last : rest = []
  · have nothing_left : Pieces.encode rest = [] := by rw [last]; rfl
    rw [nothing_left, List.append_nil]
    exact ⟨List.take_of_length_le fitting, List.drop_of_length_le fitting⟩
  · rw [← complete last]
    exact ⟨List.take_left, List.drop_left⟩

theorem decodeFrom_encode (pieces : Pieces) (formed : pieces.WellFormed) (offset : Nat) :
    decodeFrom offset pieces.encode = pieces.placedFrom offset := by
  induction pieces generalizing offset with
  | nil => rw [Pieces.encode, List.flatMap_nil, decodeFrom, Pieces.placedFrom]
  | cons piece rest ih =>
    obtain ⟨op, operand⟩ := piece
    obtain ⟨taken, dropped⟩ := take_drop_operand formed
    have bytes : Pieces.encode ((op, operand) :: rest) = op.byte :: (operand ++ Pieces.encode rest) := rfl
    rw [bytes, decodeFrom_cons, taken, dropped, ih formed.2.2, Pieces.placedFrom]

/-- Decoding and encoding undo each other, whatever size the history of the cursor is given. The
instructions of code are its bytes cut into pieces, each at the offset behind those before it, and
pieces that are put together are cut again where they were joined. -/
theorem instructions_undo_encoding (size : Int) (held : size ≤ SizeLimit.greatest) :
    ∃ capacity, Cursor.capacityFor size = .ok capacity ∧
      (∀ code, ∃ is : Decoding, instructions capacity code = .ok is ∧ is.assemble = code ∧ is.LaidOut) ∧
      ∀ pieces : Pieces, pieces.WellFormed → instructions capacity pieces.encode = .ok (pieces.placedFrom 0) := by
  have kept := Cursor.capacityFor_of_le held
  have room := Cursor.pos_of_capacityFor kept
  refine ⟨_, kept, ?_, ?_⟩
  · intro code
    exact ⟨decode code, instructions_eq_decode room code, assemble_decode code, laidOut_decode code⟩
  · intro pieces formed
    rw [instructions_eq_decode room]
    exact congrArg Except.ok (decodeFrom_encode pieces formed 0)

/-- A history of negative size, and a push whose operand the end of the code cuts short. -/
theorem instructions_of_cut_push :
    (-3 : Int) ≤ SizeLimit.greatest ∧
    Pieces.WellFormed [(⟨0x61⟩, [0x5b, 0x01]), (.jumpdest, []), (⟨0x63⟩, [0xaa])] ∧
      ∃ capacity, Cursor.capacityFor (-3) = .ok capacity ∧
        instructions capacity [0x61, 0x5b, 0x01, 0x5b, 0x63, 0xaa] =
          .ok [⟨0, ⟨0x61⟩, [0x5b, 0x01]⟩, ⟨3, .jumpdest, []⟩, ⟨4, ⟨0x63⟩, [0xaa]⟩] := by
  have held : (-3 : Int) ≤ SizeLimit.greatest := by decide
  have formed : Pieces.WellFormed [(⟨0x61⟩, [0x5b, 0x01]), (.jumpdest, []), (⟨0x63⟩, [0xaa])] :=
    ⟨by decide, fun _ => rfl, by decide, fun _ => rfl, by decide, fun last => absurd rfl last, trivial⟩
  obtain ⟨capacity, kept, _, read_back⟩ := instructions_undo_encoding (-3) held
  exact ⟨held, formed, capacity, kept, read_back _ formed⟩

/-- A history of more than the greatest size is refused, so no code is decoded with it. -/
theorem no_instructions_beyond_greatest :
    ¬ ∃ capacity, Cursor.capacityFor 9223372036854775808 = .ok capacity ∧
      ∃ is, instructions capacity [0x60, 0x01] = .ok is := by
  have refused : Cursor.capacityFor 9223372036854775808 = .error .noSize :=
    Cursor.capacityFor_of_lt (by decide)
  rintro ⟨capacity, kept, _⟩
  rw [refused] at kept
  cases kept

end AbiRecovery
