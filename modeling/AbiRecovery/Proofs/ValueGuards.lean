import AbiRecovery.Proofs.RecoveredEntries

/-!
# Which labels are guarded against value

A scan tests for the guard `CALLVALUE DUP1 ISZERO` behind a label by the bytes there, without decoding them. It finds
just the labels that the three instructions follow (`guards_exact`): a label has no operand and neither have the
instructions of the guard, so as long as the bytes fit, the next one is an opcode too. Past the end code reads as
`STOP`, which is no part of the guard.
-/
namespace AbiRecovery

namespace OrderedMap

variable {κ ν : Type} [DecidableEq κ]

theorem get?_eq_some_iff {m : OrderedMap κ ν} {key : κ} {value : ν} (distinct : m.keys.Nodup) :
    m.get? key = some value ↔ (key, value) ∈ m :=
  ⟨mem_of_get?, get?_of_mem distinct⟩

end OrderedMap

namespace Decoding

variable {is : Decoding} {n : Nat}

theorem has_jumpdest_of_isGuarded (guarded : is.isGuarded n) : is.has n .jumpdest := by
  simp only [isGuarded, Bool.and_eq_true] at guarded
  exact guarded.1.1.1

end Decoding

namespace Cursor

variable {c : Cursor} {offset : Nat} {op : Opcode}

/-- An opcode other than `STOP` is read inside the code only. -/
theorem getElem?_of_opcodeAt (read : c.opcodeAt offset = op) (running : op ≠ .stop) :
    c.code[offset]? = some op.byte := by
  unfold opcodeAt at read
  split at read
  next byte here => rw [here, ← read]
  next => exact absurd read.symm running

end Cursor

namespace Scan

/-- What makes a label guarded, one opcode a byte. -/
def guardPattern : List Opcode := [.callvalue, .dup1, .iszero]

/-- Whether the first `count` bytes behind a label are read as the guard begins. Only then is the next one looked at. -/
def BeginsGuard (c : Cursor) (label count : Nat) : Prop :=
  ∀ k < count, guardPattern[k]? = some (c.opcodeAt (label + 1 + k))

variable {c : Cursor} {code : Bytes} {label count : Nat}

theorem beginsGuard_succ_iff :
    BeginsGuard c label (count + 1) ↔
      BeginsGuard c label count ∧ guardPattern[count]? = some (c.opcodeAt (label + 1 + count)) :=
  Nat.forall_lt_succ_right

theorem guardFollows_iff : guardFollows c label ↔ BeginsGuard c label guardPattern.length := by
  have nothing : BeginsGuard c label 0 := fun k below => absurd below (Nat.not_lt_zero k)
  rw [show guardPattern.length = 0 + 1 + 1 + 1 from rfl, beginsGuard_succ_iff, beginsGuard_succ_iff, beginsGuard_succ_iff]
  simp [guardFollows, guardPattern, nothing, @eq_comm Opcode .callvalue, @eq_comm Opcode .dup1,
    @eq_comm Opcode .iszero]

/-- Each byte of the guard that fits is an opcode, if the label is, and lies inside the code. -/
theorem BeginsGuard.boundary (same : c.code = code.toArray) (reached : ValidDestination code label)
    (begins : BeginsGuard c label count) : Boundary code (label + 1 + count) ∧ label + count < code.length := by
  induction count with
  | zero =>
    obtain ⟨boundary, here⟩ := reached
    exact ⟨boundary.next _ _ here, (List.getElem?_eq_some_iff.mp here).1⟩
  | succ count ih =>
    obtain ⟨before, fits⟩ := beginsGuard_succ_iff.mp begins
    obtain ⟨boundary, -⟩ := ih before
    have part : ∀ op ∈ guardPattern, op ≠ .stop ∧ op.pushWidth = 0 := by decide
    obtain ⟨running, bare⟩ := part _ (List.mem_of_getElem? fits)
    have here := Cursor.getElem?_of_opcodeAt rfl running
    rw [same, List.getElem?_toArray] at here
    have stepped : Boundary code (label + 1 + count + 1 + (c.opcodeAt (label + 1 + count)).pushWidth) :=
      boundary.next _ _ here
    rw [bare] at stepped
    refine ⟨stepped, ?_⟩
    have inside := (List.getElem?_eq_some_iff.mp here).1
    omega

end Scan

namespace Program

/-- A label is recorded as guarded, with its number, just if it is. -/
theorem get?_guards_iff {code : Bytes} {offset step : Nat} :
    (scanned code).guards.get? offset = some step ↔ (decode code).isGuarded step ∧ startOf code step = offset := by
  have distinct : (scanned code).guards.keys.Nodup := by
    rw [keys_guards_scanned]
    exact nodup_map_startOf code _
  rw [OrderedMap.get?_eq_some_iff distinct, guards_scanned, List.mem_map]
  constructor
  · rintro ⟨m, among, same⟩
    obtain ⟨starts, rfl⟩ := Prod.mk.inj same
    exact ⟨(List.mem_filter.mp among).2, starts⟩
  · rintro ⟨guarded, rfl⟩
    have inside := Decoding.lt_length_of_has (Decoding.has_jumpdest_of_isGuarded guarded)
    exact ⟨step, List.mem_filter.mpr ⟨List.mem_range.mpr inside, guarded⟩, rfl⟩

end Program

/-- The guards that are found in code are the labels that are followed by the instructions `CALLVALUE`, `DUP1` and
`ISZERO`, each with its number, and every one of them is found as a label too. The bytes behind a label are looked at
as long as they fit. Each is an opcode that a machine can come to, never a part of an operand, and none that fits lies
past the end of the code. -/
theorem guards_exact (code : Bytes) :
    ∃ p, Program.ofCode code = .ok p ∧
      (∀ offset step, p.guards.get? offset = some step ↔
        ∃ label, (decode code)[step]? = some label ∧ label.opcode = .jumpdest ∧ label.offset = offset ∧
          (decode code).has (step + 1) .callvalue ∧ (decode code).has (step + 2) .dup1 ∧
          (decode code).has (step + 3) .iszero) ∧
      (∀ (c : Cursor) (n : Nat) (label : Instruction), c.code = code.toArray → (decode code)[n]? = some label →
        label.opcode = .jumpdest →
          (Scan.guardFollows c label.offset ↔ Scan.BeginsGuard c label.offset Scan.guardPattern.length) ∧
          ∀ count, Scan.BeginsGuard c label.offset count →
            Boundary code (label.offset + 1 + count) ∧ label.offset + count < code.length) ∧
      ∀ offset ∈ p.guards.keys, offset ∈ p.labels.keys := by
  refine ⟨_, ofCode_eq code, ?_, ?_, ?_⟩
  · intro offset step
    rw [Program.get?_guards_iff]
    constructor
    · rintro ⟨guarded, rfl⟩
      have is_label := Decoding.has_jumpdest_of_isGuarded guarded
      obtain ⟨label, here, opcode⟩ := Decoding.has_iff.mp is_label
      exact ⟨label, here, opcode, offset_eq_startOf here, (Decoding.isGuarded_iff is_label).mp guarded⟩
    · rintro ⟨label, here, opcode, rfl, follows⟩
      have is_label := Decoding.has_iff.mpr ⟨label, here, opcode⟩
      exact ⟨(Decoding.isGuarded_iff is_label).mpr follows, (offset_eq_startOf here).symm⟩
  · intro c n label same here is_label
    refine ⟨Scan.guardFollows_iff, fun count begins => begins.boundary same ?_⟩
    exact validDestination_iff.mpr ⟨n, label, here, is_label, rfl⟩
  · intro offset listed
    rw [Program.keys_guards_scanned] at listed
    rw [Program.keys_labels_eq_map]
    obtain ⟨m, among, rfl⟩ := List.mem_map.mp listed
    obtain ⟨below, guarded⟩ := List.mem_filter.mp among
    exact List.mem_map_of_mem
      (Decoding.mem_labelsBelow.mpr ⟨List.mem_range.mp below, Decoding.has_jumpdest_of_isGuarded guarded⟩)

end AbiRecovery
