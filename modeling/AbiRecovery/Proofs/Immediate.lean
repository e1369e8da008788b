import AbiRecovery.Abi.Recovery
import AbiRecovery.Proofs.ScanState

/-!
# Operands are data

Two scans side by side, over code that is laid out alike: the same offsets and the same opcodes, but
other operands. Whatever they push, the regions, labels and guards are the same (`SameOutline`). An
operand has an effect only where the scan reads it, which is decided by the opcodes after it
(`isRead`); if no other operand differs, then the scans come to the same state.
-/
namespace AbiRecovery

namespace Decoding

/-- The same offsets and opcodes, whatever the operands. -/
def SameShape (is is' : Decoding) : Prop :=
  (is.map fun i => (i.offset, i.opcode)) = is'.map fun i => (i.offset, i.opcode)

/-- Whether number `n` is a push. -/
def pushes (is : Decoding) (n : Nat) : Bool := is[n]?.any fun i => i.opcode.isPush

/-- Whether the scan may read the operand of number `n`: as a topic, as a target, or as the constant of
an entry of the dispatch table in either order of its operands. -/
def isRead (is : Decoding) (n : Nat) : Bool :=
  is.has n .push32 || is.has (n + 1) .jump || is.has (n + 1) .jumpi ||
    (is.has (n + 1) .eq && is.pushes (n + 2) && is.has (n + 3) .jumpi) ||
    (is.has (n + 1) .dup2 && is.has (n + 2) .eq && is.pushes (n + 3) && is.has (n + 4) .jumpi)

/-- No operand differs that the scan may read. -/
def AgreeWhereRead (is is' : Decoding) : Prop := ∀ n, is[n]? ≠ is'[n]? → is.isRead n = false

variable {is is' : Decoding} {n count : Nat} {i i' : Instruction}

instance (is is' : Decoding) : Decidable (SameShape is is') :=
  inferInstanceAs (Decidable ((is.map fun i => (i.offset, i.opcode)) = is'.map fun i => (i.offset, i.opcode)))

/-- Beyond the ends of both nothing differs. -/
theorem agreeWhereRead_iff : AgreeWhereRead is is' ↔
    ∀ n < max is.length is'.length, is[n]? ≠ is'[n]? → is.isRead n = false := by
  constructor
  · intro agree n _
    exact agree n
  · intro within n different
    refine within n ?_ different
    apply Nat.lt_of_not_le
    intro beyond
    have ended := Nat.max_le.mp beyond
    rw [List.getElem?_eq_none ended.1, List.getElem?_eq_none ended.2] at different
    exact different rfl

instance (is is' : Decoding) : Decidable (AgreeWhereRead is is') := decidable_of_iff' _ agreeWhereRead_iff

namespace SameShape

variable (shape : SameShape is is')

include shape

theorem fields_eq (n : Nat) :
    (is[n]?.map fun i => (i.offset, i.opcode)) = is'[n]?.map fun i => (i.offset, i.opcode) := by
  rw [← List.getElem?_map, ← List.getElem?_map, shape]

theorem length_eq : is.length = is'.length := by
  have mapped := congrArg List.length shape
  rwa [List.length_map, List.length_map] at mapped

/-- Where one has an instruction, so has the other, and only the operands differ. -/
theorem exists_getElem? (here : is[n]? = some i) :
    ∃ i', is'[n]? = some i' ∧ i'.offset = i.offset ∧ i'.opcode = i.opcode := by
  have same := shape.fields_eq n
  rw [here, Option.map_some] at same
  obtain ⟨i', there, fields⟩ := Option.map_eq_some_iff.mp same.symm
  obtain ⟨offset, opcode⟩ := Prod.mk.injEq .. ▸ fields
  exact ⟨i', there, offset, opcode⟩

/-- What is read off the opcode of an instruction is the same. -/
theorem any_opcode (n : Nat) (test : Opcode → Bool) :
    (is[n]?.any fun i => test i.opcode) = is'[n]?.any fun i => test i.opcode := by
  cases here : is[n]? with
  | some i =>
    obtain ⟨i', there, _, opcode⟩ := shape.exists_getElem? here
    simp [there, opcode]
  | none =>
    have absent := List.getElem?_eq_none_iff.mp here
    rw [shape.length_eq] at absent
    rw [List.getElem?_eq_none_iff.mpr absent]

theorem any_opcode_before (n count : Nat) (test : Opcode → Bool) :
    ((is.before? n count).any fun i => test i.opcode) = (is'.before? n count).any fun i => test i.opcode := by
  unfold before?
  split
  · exact shape.any_opcode (n - count) test
  · rfl

theorem has_eq_has (n : Nat) (op : Opcode) : is.has n op = is'.has n op :=
  shape.any_opcode n fun other => other = op

theorem hasBefore_eq (n count : Nat) (op : Opcode) : is.hasBefore n count op = is'.hasBefore n count op :=
  shape.any_opcode_before n count fun other => other = op

theorem opensRegion_eq (n : Nat) : is.opensRegion n = is'.opensRegion n := by
  unfold opensRegion
  rw [shape.has_eq_has, shape.any_opcode_before n 1 fun op => !op.fallsThrough]

theorem isGuarded_eq (n : Nat) : is.isGuarded n = is'.isGuarded n := by
  unfold isGuarded
  simp only [shape.has_eq_has]

theorem beginsTable_eq (n : Nat) : is.beginsTable n = is'.beginsTable n := by
  unfold beginsTable
  simp only [shape.has_eq_has]

end SameShape

/-! ## Where operands are read -/

theorem isRead_of_push32 (constant : is.has n .push32) : is.isRead n := by
  simp [isRead, constant]

theorem isRead_of_jump (jumps : is.has (n + 1) .jump || is.has (n + 1) .jumpi) : is.isRead n := by
  rcases Bool.or_eq_true_iff.mp jumps with jump | jumpi
  · simp [isRead, jump]
  · simp [isRead, jumpi]

theorem has_of_hasBefore (count : Nat) {op : Opcode} (has : is.hasBefore (n + count) count op) : is.has n op := by
  rwa [hasBefore_add] at has

theorem pushes_of_pushedBefore? (count : Nat) {operand : Bytes}
    (pushed : is.pushedBefore? (n + count) count = some operand) :
    is.pushes n := by
  obtain ⟨i, found, _⟩ := Option.map_eq_some_iff.mp pushed
  obtain ⟨here, push⟩ := Option.filter_eq_some_iff.mp found
  rw [before?_add] at here
  unfold pushes
  rw [here]
  exact push

namespace AgreeWhereRead

variable (agree : AgreeWhereRead is is')

include agree

/-- A constant that is read is the same in both. -/
theorem pushedBefore?_eq (read : ∀ m, n = m + count → is.isRead m) :
    is.pushedBefore? n count = is'.pushedBefore? n count := by
  have same : is.before? n count = is'.before? n count := by
    unfold before?
    split
    case isFalse => rfl
    case isTrue within =>
      apply Decidable.byContradiction
      intro different
      have unread := agree (n - count) different
      rw [read (n - count) (Nat.sub_add_cancel within).symm] at unread
      cases unread
  unfold pushedBefore?
  rw [same]

theorem target_eq (jumps : is.has n .jump || is.has n .jumpi) :
    is.pushedBefore? n 1 = is'.pushedBefore? n 1 := by
  refine agree.pushedBefore?_eq ?_
  rintro m rfl
  exact isRead_of_jump jumps

theorem constant_eq {operand : Bytes} (jumpi : is.has n .jumpi) (test : is.hasBefore n 2 .eq)
    (target : is.pushedBefore? n 1 = some operand) : is.pushedBefore? n 3 = is'.pushedBefore? n 3 := by
  refine agree.pushedBefore?_eq ?_
  rintro m rfl
  have compares : is.has (m + 1) .eq := has_of_hasBefore 2 test
  have destination : is.pushes (m + 2) := pushes_of_pushedBefore? 1 target
  simp [isRead, compares, destination, jumpi]

theorem swappedConstant_eq {operand : Bytes} (jumpi : is.has n .jumpi) (test : is.hasBefore n 2 .eq)
    (copy : is.hasBefore n 3 .dup2) (target : is.pushedBefore? n 1 = some operand) :
    is.pushedBefore? n 4 = is'.pushedBefore? n 4 := by
  refine agree.pushedBefore?_eq ?_
  rintro m rfl
  have copies : is.has (m + 1) .dup2 := has_of_hasBefore 3 copy
  have compares : is.has (m + 2) .eq := has_of_hasBefore 2 test
  have destination : is.pushes (m + 3) := pushes_of_pushedBefore? 1 target
  simp [isRead, copies, compares, destination, jumpi]

variable (shape : SameShape is is')

include shape

theorem staticTarget?_eq (n : Nat) : is.staticTarget? n = is'.staticTarget? n := by
  unfold staticTarget?
  rw [← shape.has_eq_has, ← shape.has_eq_has]
  split
  case isTrue jumps => rw [agree.target_eq jumps]
  case isFalse => rfl

theorem resumeTarget?_eq (n : Nat) : is.resumeTarget? n = is'.resumeTarget? n := by
  unfold resumeTarget?
  simp only [← shape.has_eq_has, ← shape.hasBefore_eq]
  split
  case isFalse => rfl
  case isTrue resumes =>
    have jumps : (is.has n .jump || is.has n .jumpi) = true := by
      rcases Bool.or_eq_true_iff.mp resumes with jump | branch
      · rw [jump, Bool.true_or]
      · rw [(Bool.and_eq_true_iff.mp (Bool.and_eq_true_iff.mp branch).1).1, Bool.or_true]
    rw [agree.target_eq jumps]

theorem entryAt?_eq (n : Nat) : is.entryAt? n = is'.entryAt? n := by
  unfold entryAt?
  simp only [← shape.has_eq_has, ← shape.hasBefore_eq]
  split
  case isFalse => rfl
  case isTrue tested =>
    obtain ⟨jumpi, test⟩ := Bool.and_eq_true_iff.mp tested
    rw [← agree.target_eq (by rw [jumpi, Bool.or_true])]
    cases target : is.pushedBefore? n 1 with
    | none => rfl
    | some operand =>
      have first := agree.constant_eq jumpi test target
      have second : (if is.hasBefore n 3 .dup2 then is.pushedBefore? n 4 else none) =
          if is.hasBefore n 3 .dup2 then is'.pushedBefore? n 4 else none := by
        split
        case isTrue copy => exact agree.swappedConstant_eq jumpi test copy target
        case isFalse => rfl
      rw [first, second]

end AgreeWhereRead

end Decoding

namespace Region

/-- A region without its jump targets. -/
def withoutJumps (r : Region) : Region := { r with jumps := #[] }

@[simp]
theorem withoutJumps_annotated (is : Decoding) (inTable : Bool) (n : Nat) (i : Instruction) (r : Region) :
    (Scan.annotated is inTable n i r).withoutJumps =
      { r.withoutJumps with
        tags := if Scan.tellingOpcodes.contains i.opcode then r.tags.insert i.opcode.byte.toNat else r.tags } :=
  rfl

end Region

namespace Scan

variable {is is' : Decoding} {code code' : Bytes} {n : Nat} {i i' : Instruction} {s s' : Scan}

/-! ## What no operand changes -/

/-- Two states that differ in nothing but what operands tell: jump targets, selectors, the text of the
topics, and where the dispatch table is expected. -/
structure SameOutline (s s' : Scan) : Prop where
  closed : s.closed.map Region.withoutJumps = s'.closed.map Region.withoutJumps
  current : s.current.withoutJumps = s'.current.withoutJumps
  labels : s.labels = s'.labels
  guards : s.guards = s'.guards
  topics : s.topics.size = s'.topics.size
  constant : s.lastPush32.isEmpty = s'.lastPush32.isEmpty

theorem SameOutline.start_eq (outline : SameOutline s s') : s.current.start = s'.current.start := by
  have same := congrArg Region.start outline.current
  exact same

theorem SameOutline.tags_eq (outline : SameOutline s s') : s.current.tags = s'.current.tags := by
  have same := congrArg Region.tags outline.current
  exact same

/-- An instruction that differs in its operand only, and not in its size, keeps the outline. -/
theorem SameOutline.next (outline : SameOutline s s') (shape : is.SameShape is')
    (offset : i'.offset = i.offset) (opcode : i'.opcode = i.opcode)
    (sizes : i'.operand.length = i.operand.length) : SameOutline (s.next is n i) (s'.next is' n i') where
  closed := by
    simp only [Scan.next, ← shape.opensRegion_eq, offset]
    split
    · have ended := congrArg (fun r : Region => { r with last? := some (i.offset - 1) }) outline.current
      rw [Array.map_push, Array.map_push, outline.closed]
      exact congrArg _ ended
    · exact outline.closed
  current := by
    simp only [Scan.next, ← shape.opensRegion_eq, offset]
    split
    · rfl
    · rw [Region.withoutJumps_annotated, Region.withoutJumps_annotated, outline.current, outline.tags_eq, opcode]
  labels := by
    simp only [Scan.next, ← shape.opensRegion_eq, ← shape.has_eq_has, offset, outline.labels, outline.start_eq]
  guards := by
    simp only [Scan.next, ← shape.isGuarded_eq, offset, outline.guards]
  topics := by
    simp only [Scan.next, opcode, outline.constant]
    split
    · rw [Array.size_push, Array.size_push, outline.topics]
    · exact outline.topics
  constant := by
    simp only [Scan.next, opcode]
    split
    · rw [Bool.eq_iff_iff, List.isEmpty_iff_length_eq_zero, List.isEmpty_iff_length_eq_zero, sizes]
    · exact outline.constant

/-- In code of one length an operand takes as many bytes in both, also where the end cuts it off. -/
theorem operand_length_eq (lengths : code.length = code'.length) (here : (decode code)[n]? = some i)
    (there : (decode code')[n]? = some i') (offset : i'.offset = i.offset) (opcode : i'.opcode = i.opcode) :
    i'.operand.length = i.operand.length := by
  rw [operand_eq here, operand_eq there, List.length_take, List.length_take, List.length_drop,
    List.length_drop, offset, opcode, lengths]

theorem sameOutline_after (lengths : code.length = code'.length) (shape : (decode code).SameShape (decode code'))
    (n : Nat) : SameOutline (after (decode code) n) (after (decode code') n) := by
  induction n with
  | zero => exact ⟨rfl, rfl, rfl, rfl, rfl, rfl⟩
  | succ n ih =>
    cases here : (decode code)[n]? with
    | some i =>
      obtain ⟨i', there, offset, opcode⟩ := shape.exists_getElem? here
      rw [after_succ here, after_succ there]
      exact ih.next shape offset opcode (operand_length_eq lengths here there offset opcode)
    | none =>
      have past := List.getElem?_eq_none_iff.mp here
      have there := List.getElem?_eq_none_iff.mpr (shape.length_eq ▸ past)
      rw [after, after, here, there]
      exact ih

/-! ## What unread operands leave unchanged -/

/-- An instruction that differs in an unread operand only has the same effect. -/
theorem next_eq_of_agree (agree : is.AgreeWhereRead is') (shape : is.SameShape is')
    (offset : i'.offset = i.offset) (opcode : i'.opcode = i.opcode)
    (constant : i.opcode = .push32 → i'.operand = i.operand) : s.next is n i = s.next is' n i' := by
  have kept : (if i'.opcode = .push32 then i'.operand else s.lastPush32) =
      if i.opcode = .push32 then i.operand else s.lastPush32 := by
    rw [opcode]
    split
    case isTrue push => exact constant push
    case isFalse => rfl
  unfold next annotated jumpsAt
  rw [kept]
  simp only [← shape.opensRegion_eq, ← shape.isGuarded_eq, ← shape.has_eq_has, ← shape.beginsTable_eq,
    ← agree.staticTarget?_eq shape, ← agree.entryAt?_eq shape, ← agree.resumeTarget?_eq shape, offset, opcode]

theorem after_eq_of_agree (agree : is.AgreeWhereRead is') (shape : is.SameShape is') (n : Nat) :
    after is n = after is' n := by
  induction n with
  | zero => rfl
  | succ n ih =>
    cases here : is[n]? with
    | some i =>
      obtain ⟨i', there, offset, opcode⟩ := shape.exists_getElem? here
      rw [after_succ here, after_succ there, ih]
      refine next_eq_of_agree agree shape offset opcode ?_
      intro push
      -- The operand of a `PUSH32` may become a topic, so it is the same in both.
      have read : is.isRead n := Decoding.isRead_of_push32 (Decoding.has_iff.mpr ⟨i, here, push⟩)
      have same : is[n]? = is'[n]? := by
        apply Decidable.byContradiction
        intro different
        rw [agree n different] at read
        cases read
      rw [here, there] at same
      exact congrArg Instruction.operand (Option.some.inj same).symm
    | none =>
      have past := List.getElem?_eq_none_iff.mp here
      have there := List.getElem?_eq_none_iff.mpr (shape.length_eq ▸ past)
      rw [after, after, here, there]
      exact ih

end Scan

variable {code code' : Bytes}

/-- Code that differs from other code in operands only has the same regions but for their jump targets,
the same labels, the same guards and as many topics. If moreover no operand differs that is read, then
a scan finds the same in it, and so the same interface is recovered. -/
theorem scan_ignores_unread_operands (lengths : code.length = code'.length)
    (shape : (decode code).SameShape (decode code')) :
    (∃ p p', Program.ofCode code = .ok p ∧ Program.ofCode code' = .ok p' ∧
      p.regions.map Region.withoutJumps = p'.regions.map Region.withoutJumps ∧
      p.labels = p'.labels ∧ p.guards = p'.guards ∧ p.topics.length = p'.topics.length) ∧
    ((decode code).AgreeWhereRead (decode code') →
      ∃ p entries, Program.ofCode code = .ok p ∧ Program.ofCode code' = .ok p ∧
        Abi.ofCode code = .ok entries ∧ Abi.ofCode code' = .ok entries) := by
  have outline := Scan.sameOutline_after lengths shape (decode code).length
  constructor
  · refine ⟨_, _, ofCode_eq code, ofCode_eq code', ?_, ?_, ?_, ?_⟩
    all_goals unfold Program.scanned Scan.program
    all_goals rw [← shape.length_eq]
    · have closed := congrArg Array.toList outline.closed
      rw [Array.toList_map, Array.toList_map] at closed
      simp only [List.map_append, List.map_cons, List.map_nil, closed, outline.current]
    · simp only [outline.labels]
    · simp only [outline.guards]
    · simpa using outline.topics
  · intro agree
    have same : Program.scanned code' = Program.scanned code := by
      unfold Program.scanned
      rw [← Scan.after_eq_of_agree agree shape, shape.length_eq]
    have found := ofCode_eq code'
    rw [same] at found
    refine ⟨_, Abi.ofProgram (Program.scanned code), ofCode_eq code, found, ?_, ?_⟩
    · unfold Abi.ofCode
      rw [ofCode_eq code]
      rfl
    · unfold Abi.ofCode
      rw [found]
      rfl

/-- A dispatch table with one entry, behind a push of data that is dropped again. -/
def tableBehindPush (data : UInt8) : Bytes :=
  [0x60, data, 0x50, 0x80, 0x63, 0xaa, 0xbb, 0xcc, 0xdd, 0x14, 0x60, 0x0e, 0x57, 0x00, 0x5b, 0x55, 0x00]

theorem scan_ignores_label_byte_in_operand :
    (decode (tableBehindPush 0x01)).SameShape (decode (tableBehindPush 0x5b)) ∧
    (decode (tableBehindPush 0x01)).AgreeWhereRead (decode (tableBehindPush 0x5b)) ∧
      ∃ p entries, Program.ofCode (tableBehindPush 0x01) = .ok p ∧ Program.ofCode (tableBehindPush 0x5b) = .ok p ∧
        Abi.ofCode (tableBehindPush 0x01) = .ok entries ∧ Abi.ofCode (tableBehindPush 0x5b) = .ok entries := by
  have shape : (decode (tableBehindPush 0x01)).SameShape (decode (tableBehindPush 0x5b)) := by
    decide +kernel
  have agree : (decode (tableBehindPush 0x01)).AgreeWhereRead (decode (tableBehindPush 0x5b)) := by
    decide +kernel
  have lengths : (tableBehindPush 0x01).length = (tableBehindPush 0x5b).length := rfl
  exact ⟨shape, agree, (scan_ignores_unread_operands lengths shape).2 agree⟩

end AbiRecovery
