import AbiRecovery.Abi.Recovery
import AbiRecovery.Proofs.RegionExtent

/-!
# Where the dispatch table continues

An offset is marked as a continuation of the dispatch table by a jump that is met while the table is read, and by
nothing else; a region that opens there takes the mark away (`mem_resumePoints_next`). So the marks after any number
of instructions are told by the jumps before (`resumePoints_exact`). The jump is one that is always taken, or one on a
test for order of a copied value. With what that value is compared is not looked at: it need not be a constant.
-/
namespace AbiRecovery

namespace NumberSet

/-- An insertion keeps the order. -/
theorem ascending_insert {s : NumberSet} (ascending : s.Pairwise (· < ·)) (n : Nat) : (s.insert n).Pairwise (· < ·) := by
  induction s with
  | nil => exact List.pairwise_singleton _ n
  | cons m rest ih =>
    obtain ⟨least, ordered⟩ := List.pairwise_cons.mp ascending
    unfold insert
    split
    next below =>
      refine List.pairwise_cons.mpr ⟨fun k member => ?_, ascending⟩
      rcases List.mem_cons.mp member with rfl | later
      · exact below
      · exact Nat.lt_trans below (least k later)
    next above =>
      split
      next => exact ascending
      next different =>
        refine List.pairwise_cons.mpr ⟨fun k member => ?_, ih ordered⟩
        rcases mem_insert.mp member with rfl | later
        · omega
        · exact least k later

end NumberSet

namespace Decoding

/-- Number `n` is a jump to a pushed target that leads to another part of the dispatch table. In a split of the table,
`bound` tells what may stand where the value comes from that the selector is compared with. -/
inductive LeadsOn (is : Decoding) (bound : Opcode → Bool) : Nat → Nat → Prop where
  /-- `PUSHn JUMP`: the jump is always taken. -/
  | always {k : Nat} {push jump : Instruction} (first : is[k]? = some push) (second : is[k + 1]? = some jump)
      (constant : push.opcode.isPush) (jumps : jump.opcode = .jump) : LeadsOn is bound (k + 1) push.operand.toNat
  /-- `DUP1`, the bound, `LT` or `GT`, `PUSHn JUMPI`: the selectors are split. -/
  | split {k : Nat} {copy limit test push branch : Instruction} (first : is[k]? = some copy)
      (second : is[k + 1]? = some limit) (third : is[k + 2]? = some test) (fourth : is[k + 3]? = some push)
      (fifth : is[k + 4]? = some branch) (copies : copy.opcode = .dup1) (bounds : bound limit.opcode)
      (compares : test.opcode = .lt ∨ test.opcode = .gt) (constant : push.opcode.isPush)
      (branches : branch.opcode = .jumpi) : LeadsOn is bound (k + 4) push.operand.toNat

variable {is : Decoding} {bound : Opcode → Bool} {n target : Nat}

theorem lt_length_of_resumeTarget? (marked : is.resumeTarget? n = some target) : n < is.length := by
  unfold resumeTarget? at marked
  split at marked
  next pattern =>
    simp only [Bool.or_eq_true, Bool.and_eq_true] at pattern
    rcases pattern with jump | ⟨⟨branch, -⟩, -⟩
    · exact lt_length_of_has jump
    · exact lt_length_of_has branch
  next => cases marked

/-- What stands before an instruction is an instruction of its own number. -/
theorem exists_of_before? {count : Nat} {i : Instruction} (found : is.before? n count = some i) :
    ∃ k, n = k + count ∧ is[k]? = some i := by
  unfold before? at found
  split at found
  next enough => exact ⟨n - count, (Nat.sub_add_cancel enough).symm, found⟩
  next => cases found

theorem exists_of_pushedBefore? {count : Nat} {operand : Bytes} (pushed : is.pushedBefore? n count = some operand) :
    ∃ k push, n = k + count ∧ is[k]? = some push ∧ push.opcode.isPush ∧ push.operand = operand := by
  obtain ⟨push, found, rfl⟩ := Option.map_eq_some_iff.mp pushed
  obtain ⟨found, constant⟩ := Option.filter_eq_some_iff.mp found
  obtain ⟨k, place, here⟩ := exists_of_before? found
  exact ⟨k, push, place, here, constant, rfl⟩

theorem exists_of_hasBefore {count : Nat} {op : Opcode} (has : is.hasBefore n count op) :
    ∃ k i, n = k + count ∧ is[k]? = some i ∧ i.opcode = op := by
  unfold hasBefore at has
  obtain ⟨i, found, opcode⟩ := (Option.any_eq_true _ _).mp has
  obtain ⟨k, place, here⟩ := exists_of_before? found
  exact ⟨k, i, place, here, of_decide_eq_true opcode⟩

/-- A jump that leads on has the target that the scan marks, and if it splits the table, a bound that is allowed. -/
theorem LeadsOn.marked (leads : is.LeadsOn bound n target) :
    is.resumeTarget? n = some target ∧ (is.has n .jumpi → (is.before? n 3).any fun i => bound i.opcode) := by
  cases leads with
  | @always k push jump first second constant jumps =>
    have jump_here : is.has (k + 1) .jump := has_iff.mpr ⟨jump, second, jumps⟩
    have no_branch : is.has (k + 1) .jumpi = false := has_of_ne jump_here (by decide)
    refine ⟨?_, fun branch => by rw [no_branch] at branch; cases branch⟩
    unfold resumeTarget?
    rw [jump_here, pushedBefore?_add first constant]
    rfl
  | @split k copy limit test push branch first second third fourth fifth copies bounds compares constant branches =>
    have branch_here : is.has (k + 4) .jumpi := has_iff.mpr ⟨branch, fifth, branches⟩
    have copied : is.hasBefore (k + 4) 4 .dup1 := by
      rw [hasBefore_add]
      exact has_iff.mpr ⟨copy, first, copies⟩
    have compared : is.hasBefore (k + 4) 2 .lt || is.hasBefore (k + 4) 2 .gt := by
      rw [show k + 4 = k + 2 + 2 from rfl, hasBefore_add, hasBefore_add, Bool.or_eq_true]
      exact compares.imp (fun less => has_iff.mpr ⟨test, third, less⟩) fun more => has_iff.mpr ⟨test, third, more⟩
    refine ⟨?_, fun _ => ?_⟩
    · unfold resumeTarget?
      rw [branch_here, copied, compared, show k + 4 = k + 3 + 1 from rfl, pushedBefore?_add fourth constant]
      simp
    · rw [show k + 4 = k + 1 + 3 from rfl, before?_add, second]
      exact bounds

/-- The targets that the scan marks are those of the jumps that lead on, whatever the bounds are. -/
theorem leadsOn_of_resumeTarget? (marked : is.resumeTarget? n = some target) : is.LeadsOn (fun _ => true) n target := by
  unfold resumeTarget? at marked
  split at marked
  next pattern =>
    obtain ⟨operand, pushed, rfl⟩ := Option.map_eq_some_iff.mp marked
    obtain ⟨k, push, rfl, fourth, constant, rfl⟩ := exists_of_pushedBefore? pushed
    rcases Bool.or_eq_true_iff.mp pattern with jump | split
    · obtain ⟨jump, second, jumps⟩ := has_iff.mp jump
      exact .always fourth second constant jumps
    · simp only [Bool.and_eq_true, Bool.or_eq_true] at split
      obtain ⟨⟨branch_here, compares⟩, copied⟩ := split
      obtain ⟨branch, fifth, branches⟩ := has_iff.mp branch_here
      obtain ⟨j, copy, place, first, copies⟩ := exists_of_hasBefore copied
      obtain rfl : k = j + 3 := by omega
      obtain ⟨test, third, compares⟩ : ∃ test, is[j + 2]? = some test ∧ (test.opcode = .lt ∨ test.opcode = .gt) := by
        rw [show j + 3 + 1 = j + 2 + 2 from rfl, hasBefore_add, hasBefore_add] at compares
        rcases compares with less | more
        · obtain ⟨test, third, less⟩ := has_iff.mp less
          exact ⟨test, third, .inl less⟩
        · obtain ⟨test, third, more⟩ := has_iff.mp more
          exact ⟨test, third, .inr more⟩
      have inside : j + 1 < is.length := by
        have last := (List.getElem?_eq_some_iff.mp fifth).1
        omega
      exact .split first (List.getElem?_eq_getElem inside) third fourth fifth copies rfl compares constant branches
  next => cases marked

theorem leadsOn_true_iff : is.LeadsOn (fun _ => true) n target ↔ is.resumeTarget? n = some target :=
  ⟨fun leads => leads.marked.1, leadsOn_of_resumeTarget?⟩

end Decoding

namespace Scan

variable {is : Decoding} {n target : Nat} {i : Instruction} {s : Scan}

theorem ascending_next (ascending : s.resumePoints.Pairwise (· < ·)) :
    (s.next is n i).resumePoints.Pairwise (· < ·) := by
  unfold next
  dsimp only
  split
  next => exact ascending.sublist List.erase_sublist
  next =>
    split
    next => exact NumberSet.ascending_insert ascending _
    next => exact ascending

/-- After an instruction an offset is marked if the instruction leads there in the table, or if it was marked before
and no region opens at it. -/
theorem mem_resumePoints_next (ascending : s.resumePoints.Pairwise (· < ·)) :
    target ∈ (s.next is n i).resumePoints ↔
      (s.inTable ∧ is.resumeTarget? n = some target) ∨
        (target ∈ s.resumePoints ∧ (is.opensRegion n → target ≠ i.offset)) := by
  have nodup : s.resumePoints.Nodup := ascending.imp Nat.ne_of_lt
  cases opens : is.opensRegion n with
  | true =>
    have no_target := Decoding.resumeTarget?_of_label (Decoding.has_jumpdest_of_opensRegion opens)
    simp [next, opens, no_target, nodup.mem_erase_iff, and_comm]
  | false =>
    cases flag : s.inTable with
    | false => simp [next, opens, flag]
    | true =>
      cases marked : is.resumeTarget? n with
      | none => simp [next, opens, flag, marked]
      | some offset => simp [next, opens, flag, marked, NumberSet.mem_insert, @eq_comm _ target offset]

theorem ascending_after (is : Decoding) (n : Nat) : (after is n).resumePoints.Pairwise (· < ·) := by
  induction n with
  | zero => exact .nil
  | succ n ih =>
    cases here : is[n]? with
    | none => simpa [after, here] using ih
    | some i =>
      rw [after_succ here]
      exact ascending_next ih

variable {code : Bytes}

/-- After `n` instructions those offsets are marked to which one of them leads, unless a region has opened there since. -/
theorem mem_resumePoints_after (n : Nat) (inside : n ≤ (decode code).length) :
    target ∈ (after (decode code) n).resumePoints ↔
      ∃ k < n, (after (decode code) k).inTable ∧ (decode code).resumeTarget? k = some target ∧
        ∀ m, k < m → m < n → (decode code).opensRegion m → target ≠ startOf code m := by
  induction n with
  | zero => simp [after, start]
  | succ n ih =>
    have here := List.getElem?_eq_getElem (Nat.lt_of_succ_le inside)
    rw [after_succ here, mem_resumePoints_next (ascending_after _ n), ih (Nat.le_of_succ_le inside),
      offset_eq_startOf here, Nat.exists_lt_succ_right]
    constructor
    · rintro (⟨table, leads⟩ | ⟨⟨k, before, table, leads, kept⟩, last⟩)
      · exact .inr ⟨table, leads, fun m later below => by omega⟩
      · refine .inl ⟨k, before, table, leads, fun m later below => ?_⟩
        rcases Nat.lt_succ_iff_lt_or_eq.mp below with earlier | rfl
        · exact kept m later earlier
        · exact last
    · rintro (⟨k, before, table, leads, kept⟩ | ⟨table, leads, -⟩)
      · exact .inr ⟨⟨k, before, table, leads, fun m later below => kept m later (Nat.lt_succ_of_lt below)⟩,
          kept n before (Nat.lt_succ_self n)⟩
      · exact .inl ⟨table, leads⟩

end Scan

/-- In every state of a scan those offsets are marked as continuations of the dispatch table to which an instruction
before leads on, met while the table was read, unless a region has opened there since. Where the instruction splits the
table, anything may stand for the bound. -/
theorem resumePoints_exact (code : Bytes) :
    ∃ states, Scan.trace (fun _ _ s => s) code = .ok states ∧
      ∀ n s, (Scan.start :: states)[n]? = some s → ∀ target, target ∈ s.resumePoints ↔
        ∃ k < n, (Scan.start :: states)[k]?.any Scan.inTable ∧ (decode code).LeadsOn (fun _ => true) k target ∧
          ∀ m, k < m → m < n → (decode code).opensRegion m → target ≠ startOf code m := by
  refine ⟨Scan.statesOf code, Scan.trace_eq code, ?_⟩
  intro n s reached target
  have inside : n ≤ (decode code).length := by
    have bound := (List.getElem?_eq_some_iff.mp reached).1
    simpa [Scan.statesOf, Nat.lt_succ_iff] using bound
  rw [Scan.getElem?_start_cons_statesOf inside] at reached
  obtain rfl := Option.some.inj reached
  rw [Scan.mem_resumePoints_after n inside]
  refine exists_congr fun k => and_congr_right fun before => ?_
  rw [Scan.getElem?_start_cons_statesOf (Nat.le_trans (Nat.le_of_lt before) inside), Option.any_some,
    Decoding.leadsOn_true_iff]

/-- Code that copies a value, compares it with the caller, and jumps to offset 16 if it is less. One selector is compared
before, and one behind offset 16. -/
def splitAtCaller : Bytes :=
  [0x80, 0x33, 0x10, 0x60, 0x10, 0x57, 0x63, 0xaa, 0xbb, 0xcc, 0xdd, 0x14, 0x60, 0x00, 0x57, 0x00,
    0x5b, 0x80, 0x63, 0x11, 0x22, 0x33, 0x44, 0x14, 0x60, 0x00, 0x57]

/-- Offset 16 is marked although no jump leads there in a split with a constant bound, and so the selector behind it is
recorded. -/
theorem resumePoint_without_bound :
    (∃ states s, Scan.trace (fun _ _ s => s) splitAtCaller = .ok states ∧ s ∈ states ∧ 0x10 ∈ s.resumePoints) ∧
      (∀ n target, ¬ (decode splitAtCaller).LeadsOn Opcode.isPush n target) ∧
      (Abi.selectorsOf splitAtCaller).toOption = some [Text.ofString "0xaabbccdd", Text.ofString "0x11223344"] := by
  refine ⟨?_, ?_, by decide +kernel⟩
  · have marked : ∃ s ∈ Scan.statesOf splitAtCaller, 0x10 ∈ s.resumePoints := by decide +kernel
    obtain ⟨s, reached, marked⟩ := marked
    exact ⟨_, s, Scan.trace_eq splitAtCaller, reached, marked⟩
  · intro n target leads
    have unbounded : ∀ n < (decode splitAtCaller).length, ((decode splitAtCaller).resumeTarget? n).isSome →
        (decode splitAtCaller).has n .jumpi ∧
          ((decode splitAtCaller).before? n 3).any (fun i => i.opcode.isPush) = false := by decide +kernel
    obtain ⟨marked, bounded⟩ := leads.marked
    obtain ⟨branch, variable_bound⟩ := unbounded n (Decoding.lt_length_of_resumeTarget? marked) (by rw [marked]; rfl)
    rw [bounded branch] at variable_bound
    cases variable_bound

end AbiRecovery
