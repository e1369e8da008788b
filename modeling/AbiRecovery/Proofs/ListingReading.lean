import AbiRecovery.Listing
import AbiRecovery.Proofs.Assembly
import AbiRecovery.Proofs.MnemonicTable
import AbiRecovery.Text.Split

/-!
# Listings read back

A listing tells the code it was made from. Its lines are read by blanks: an offset, a second blank, a
name, and an operand if there is one. Every line is read back as its instruction (`read?_line`), so the
instructions of a listing put together are the code; a push whose operand the code does not have at
all is a line without operand.
-/
namespace AbiRecovery

/-- The number that a text of hexadecimal digits denotes. -/
def Text.hexNumber? (t : Text) : Option Nat :=
  (t.chars?.filter fun digits => !digits.isEmpty && digits.all Hex.isDigit).map hexNumber

namespace Instruction

/-- The instruction of a line. -/
def read? (line : Text) : Option Instruction :=
  match Text.splitAt ' ' line with
  | [offset, [], name] => do
    let offset ← Text.hexNumber? offset
    let opcode ← name.chars?.bind Opcode.ofName?
    return ⟨offset, opcode, []⟩
  | [offset, [], name, operand] => do
    let offset ← Text.hexNumber? offset
    let opcode ← name.chars?.bind Opcode.ofName?
    let digits ← Hex.digits? operand
    return ⟨offset, opcode, Hex.bytesOfDigits digits⟩
  | _ => none

end Instruction

/-- The instructions of the lines of a listing. -/
def readListing? (lines : List Text) : Option Decoding := lines.mapM Instruction.read?

namespace Text

theorem char_mem_ofChars {c : Char} {cs : List Char} : Symbol.char c ∈ ofChars cs ↔ c ∈ cs := by
  unfold ofChars
  rw [List.mem_map]
  constructor
  · rintro ⟨c', member, same⟩
    cases same
    exact member
  · intro member
    exact ⟨c, member, rfl⟩

theorem hexNumber?_paddedHex (width n : Nat) : hexNumber? (ofChars (paddedHex width n)) = some n := by
  have some_digit : (paddedHex width n).isEmpty = false := by
    rw [List.isEmpty_eq_false_iff]
    exact paddedHex_ne_nil width n
  have all_digits : (paddedHex width n).all Hex.isDigit := by
    rw [List.all_eq_true]
    intro c member
    obtain ⟨d, small, rfl⟩ := exists_hexDigit_of_mem_paddedHex member
    exact Hex.isDigit_hexDigit small
  unfold hexNumber?
  rw [chars?_ofChars, Option.filter_some, if_pos (by rw [some_digit, all_digits]; rfl), Option.map_some,
    hexNumber_paddedHex]

theorem blank_not_mem_of_digits {cs : List Char} (digits : ∀ c ∈ cs, ∃ d < 16, c = hexDigit d) : ' ' ∉ cs := by
  intro member
  obtain ⟨d, small, same⟩ := digits ' ' member
  exact hexDigit_ne_blank d small same.symm

end Text

namespace Instruction

/-- What stands between the blanks of a line. -/
def parts (i : Instruction) : List Text :=
  [Text.ofChars (Text.paddedHex 6 i.offset), [], Text.ofString i.opcode.name] ++
    if i.operand.isEmpty then [] else [Hex.encodeMarked i.operand]

theorem line_eq_joinWith (i : Instruction) : i.line = Text.joinWith ' ' i.parts := by
  have blanks : Text.ofString "  " = [.char ' ', .char ' '] := rfl
  have blank : Text.ofString " " = [.char ' '] := rfl
  unfold line parts
  rw [blanks, blank]
  cases i.operand.isEmpty <;> simp [Text.joinWith]

theorem blank_not_mem_parts (i : Instruction) : ∀ part ∈ i.parts, Text.Symbol.char ' ' ∉ part := by
  intro part member
  rcases List.mem_append.mp member with head | operand
  · rcases List.mem_cons.mp head with rfl | head
    · rw [Text.char_mem_ofChars]
      exact Text.blank_not_mem_of_digits fun c => Text.exists_hexDigit_of_mem_paddedHex
    rcases List.mem_cons.mp head with rfl | head
    · exact List.not_mem_nil
    · rw [List.mem_singleton.mp head, Text.ofString, Text.char_mem_ofChars]
      exact Opcode.blank_not_mem_name i.opcode
  · split at operand
    · cases operand
    · have digits : ' ' ∉ Hex.digits i.operand :=
        Text.blank_not_mem_of_digits fun c => Hex.exists_hexDigit_of_mem_digits
      rw [List.mem_singleton.mp operand, Hex.encodeMarked, Text.char_mem_ofChars, List.mem_cons, List.mem_cons]
      rintro (zero | mark | digit)
      · cases zero
      · cases mark
      · exact digits digit

/-- A line is read back as its instruction. -/
@[simp]
theorem read?_line (i : Instruction) : read? i.line = some i := by
  have parted : Text.splitAt ' ' i.line = i.parts := by
    rw [line_eq_joinWith]
    exact Text.splitAt_joinWith (List.cons_ne_nil _ _) i.blank_not_mem_parts
  have name : (Text.ofString i.opcode.name).chars?.bind Opcode.ofName? = some i.opcode := by
    rw [Text.ofString, Text.chars?_ofChars, Option.bind_some, Opcode.ofName?_name]
  have offset := Text.hexNumber?_paddedHex 6 i.offset
  unfold read?
  rw [parted]
  obtain ⟨place, opcode, operand⟩ := i
  cases operand with
  | nil =>
    simp only [parts, List.isEmpty_nil, if_true, List.append_nil]
    rw [offset, name]
    rfl
  | cons byte rest =>
    simp only [parts, List.isEmpty_cons, Bool.false_eq_true, if_false, List.cons_append, List.nil_append]
    rw [offset, name, Hex.digits?_encodeMarked]
    simp

end Instruction

theorem readListing?_map_line (is : Decoding) : readListing? (is.map Instruction.line) = some is := by
  unfold readListing?
  induction is with
  | nil => rfl
  | cons i is ih => simp [ih]

theorem listing_eq {capacity : Nat} (room : 0 < capacity) (code : Bytes) :
    listing capacity code = .ok ((decode code).map Instruction.line) := by
  unfold listing
  rw [instructions_eq_decode room]
  rfl

/-- A listing determines the code. Its lines are read back as instructions whose bytes in order are the
code, each at the offset behind those before it, so no other code has the same listing. -/
theorem code_of_listing {size : Int} {capacity : Nat} (kept : Cursor.capacityFor size = .ok capacity) (code : Bytes) :
    ∃ lines is, listing capacity code = .ok lines ∧ readListing? lines = some is ∧ is.assemble = code ∧
      (∀ (n : Nat) (i : Instruction), is[n]? = some i → i.offset = (Decoding.assemble (is.take n)).length) ∧
      ∀ other, listing capacity other = .ok lines → other = code := by
  have room := Cursor.pos_of_capacityFor kept
  refine ⟨_, decode code, listing_eq room code, readListing?_map_line _, assemble_decode code,
    (laidOut_decode code).placed, ?_⟩
  intro other same
  rw [listing_eq room] at same
  have lines : (decode other).map Instruction.line = (decode code).map Instruction.line := Except.ok.inj same
  have instructions : decode other = decode code := by
    apply Option.some.inj
    rw [← readListing?_map_line, lines, readListing?_map_line]
  rw [← assemble_decode other, instructions, assemble_decode]

/-- With the history that is usual, code that ends before the operand of its last push. -/
theorem code_of_listing_of_cut_push :
    Cursor.capacityFor 1 = .ok 1 ∧
      ∃ lines is, listing 1 [0x0c, 0x60, 0xaa, 0x63] = .ok lines ∧ readListing? lines = some is ∧
        is.assemble = [0x0c, 0x60, 0xaa, 0x63] ∧
        ∀ other, listing 1 other = .ok lines → other = [0x0c, 0x60, 0xaa, 0x63] := by
  have kept : Cursor.capacityFor 1 = .ok 1 := by decide
  obtain ⟨lines, is, listed, read, whole, _, only⟩ := code_of_listing kept [0x0c, 0x60, 0xaa, 0x63]
  exact ⟨kept, lines, is, listed, read, whole, only⟩

end AbiRecovery
