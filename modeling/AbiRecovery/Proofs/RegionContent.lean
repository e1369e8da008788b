import AbiRecovery.Proofs.RegionMap

/-!
# What a region keeps

The tags and the jumps of a region are those of its own instructions, read off the stream: `tags_after`
and `jumps_after` give them for every region and every number of instructions. The dispatch table
decides only how often a jump is listed, so which targets a region has does not depend on it
(`mem_jumps_iff`).
-/
namespace AbiRecovery

namespace Decoding

/-- The opcode of number `n`, if a region keeps it. -/
def tagAt? (is : Decoding) (n : Nat) : Option Opcode :=
  (is[n]?.map Instruction.opcode).filter Scan.tellingOpcodes.contains

variable {is : Decoding} {n m : Nat}

theorem regionOf_ne_of_lt (before : m < n) : is.regionOf m ≠ n :=
  Nat.ne_of_lt (Nat.lt_of_le_of_lt (is.regionOf_le m) before)

theorem openingBefore_lt_of_opens (opens : is.opensRegion n) : is.openingBefore n < n := by
  have positive := pos_of_opens opens
  obtain ⟨k, rfl⟩ := Nat.exists_eq_add_one_of_ne_zero (Nat.ne_of_gt positive)
  exact Nat.lt_succ_of_le (is.regionOf_le k)

end Decoding

namespace Scan

variable {code : Bytes} {n : Nat}

theorem step_lt_of_mem_closed (inside : n ≤ (decode code).length) {r : Region}
    (closed : r ∈ (after (decode code) n).closed.toList) : r.step < (decode code).openingBefore n := by
  have increasing := regions_increasing code n inside
  unfold regions at increasing
  rw [List.pairwise_append] at increasing
  have ordered := (increasing.2.2 r closed _ List.mem_cons_self).1
  rw [(current_after n inside).1] at ordered
  exact ordered

/-- A region after one more instruction: it is as it was and the instruction is not its own, or it is
the current one and has gained what the instruction adds, or the instruction has opened it. -/
theorem mem_regions_succ (inside : n < (decode code).length) {r : Region}
    (member : r ∈ (after (decode code) (n + 1)).regions) :
    (∃ r₀ ∈ (after (decode code) n).regions, r₀.step = r.step ∧ r₀.tags = r.tags ∧ r₀.jumps = r.jumps ∧
        (decode code).regionOf n ≠ r.step) ∨
      ((decode code).regionOf n = r.step ∧
        r = annotated (decode code) (after (decode code) n).inTable n (decode code)[n]
          (after (decode code) n).current) ∨
      ((decode code).opensRegion n ∧ r = .opened (decode code)[n].offset n) := by
  have here := List.getElem?_eq_getElem inside
  have bound := Nat.le_of_lt inside
  rw [after_succ here] at member
  have listed : (after (decode code) n).current ∈ (after (decode code) n).regions :=
    List.mem_append_right _ List.mem_cons_self
  cases opens : (decode code).opensRegion n with
  | true =>
    have last := Decoding.openingBefore_lt_of_opens opens
    rw [regions_next_of_opens opens] at member
    rcases List.mem_append.mp member with closed | tail
    · have earlier := step_lt_of_mem_closed bound closed
      refine Or.inl ⟨r, List.mem_append_left _ closed, rfl, rfl, rfl, ?_⟩
      rw [Decoding.regionOf_of_opens opens]
      omega
    · rcases List.mem_cons.mp tail with rfl | tail
      · refine Or.inl ⟨_, listed, rfl, rfl, rfl, ?_⟩
        rw [Decoding.regionOf_of_opens opens, (current_after n bound).1]
        omega
      · exact Or.inr (Or.inr ⟨rfl, List.mem_singleton.mp tail⟩)
  | false =>
    rw [regions_next_of_not_opens opens] at member
    rcases List.mem_append.mp member with closed | tail
    · have earlier := step_lt_of_mem_closed bound closed
      refine Or.inl ⟨r, List.mem_append_left _ closed, rfl, rfl, rfl, ?_⟩
      rw [Decoding.regionOf_of_not_opens opens]
      omega
    · have same := List.mem_singleton.mp tail
      refine Or.inr (Or.inl ⟨?_, same⟩)
      rw [Decoding.regionOf_of_not_opens opens, same]
      exact (current_after n bound).1.symm

/-- The jumps of a region are those of its instructions, in the order of the code. -/
theorem jumps_after (n : Nat) (inside : n ≤ (decode code).length) :
    ∀ r ∈ (after (decode code) n).regions,
      r.jumps.toList = (List.range n).flatMap fun m =>
        if (decode code).regionOf m = r.step then
          jumpsAt (decode code) (after (decode code) m).inTable m
        else [] := by
  induction n with
  | zero =>
    intro r member
    rw [List.mem_singleton.mp member]
    rfl
  | succ n ih =>
    intro r member
    have known := ih (Nat.le_of_succ_le inside)
    rw [List.range_succ, List.flatMap_append, List.flatMap_singleton]
    rcases mem_regions_succ inside member with ⟨r₀, old, step, _, jumps, other⟩ | ⟨own, rfl⟩ | ⟨opens, rfl⟩
    · rw [if_neg other, List.append_nil, ← jumps, ← step]
      exact known r₀ old
    · have before := known _ (List.mem_append_right _ List.mem_cons_self)
      rw [if_pos own]
      simp only [annotated, Array.toList_append, before]
      rfl
    · have none_before : ∀ m ∈ List.range n,
          (if (decode code).regionOf m = n then
            jumpsAt (decode code) (after (decode code) m).inTable m else []) = [] := by
        intro m below
        exact if_neg (Decoding.regionOf_ne_of_lt (List.mem_range.mp below))
      have none_here : jumpsAt (decode code) (after (decode code) n).inTable n = [] := by
        unfold jumpsAt
        rw [Decoding.staticTarget?_of_label (Decoding.has_jumpdest_of_opensRegion opens)]
      simp only [Region.opened, none_here, ite_self, List.append_nil]
      exact (List.flatMap_eq_nil_iff.mpr none_before).symm

/-- The tags of a region are the telling opcodes of its instructions. -/
theorem tags_after (n : Nat) (inside : n ≤ (decode code).length) :
    ∀ r ∈ (after (decode code) n).regions, ∀ tag, tag ∈ r.tags ↔
      ∃ m < n, (decode code).regionOf m = r.step ∧
        ∃ op, (decode code).tagAt? m = some op ∧ op.byte.toNat = tag := by
  induction n with
  | zero =>
    intro r member tag
    rw [List.mem_singleton.mp member]
    simp [after, start, Region.opened]
  | succ n ih =>
    intro r member tag
    have known := ih (Nat.le_of_succ_le inside)
    have here := List.getElem?_eq_getElem (Nat.lt_of_succ_le inside)
    rw [Nat.exists_lt_succ_right]
    rcases mem_regions_succ inside member with ⟨r₀, old, step, tags, _, other⟩ | ⟨own, rfl⟩ | ⟨opens, rfl⟩
    · rw [← tags, known r₀ old tag, step]
      constructor
      · exact Or.inl
      · rintro (earlier | ⟨own, _⟩)
        · exact earlier
        · exact absurd own other
    · have before := known _ (List.mem_append_right _ List.mem_cons_self) tag
      have step : (annotated (decode code) (after (decode code) n).inTable n (decode code)[n]
          (after (decode code) n).current).step = (after (decode code) n).current.step := rfl
      rw [step] at own ⊢
      rw [← before]
      unfold annotated Decoding.tagAt?
      rw [here, Option.map_some, Option.filter_some]
      cases telling : tellingOpcodes.contains (decode code)[n].opcode with
      | false => simp
      | true => simp [own, NumberSet.mem_insert, or_comm, eq_comm]
    · have silent : (decode code).tagAt? n = none := by
        obtain ⟨i, label_here, label⟩ := Decoding.has_iff.mp (Decoding.has_jumpdest_of_opensRegion opens)
        unfold Decoding.tagAt?
        rw [label_here, Option.map_some, label]
        decide
      constructor
      · intro empty
        cases empty
      · rintro (⟨m, below, own, _⟩ | ⟨_, op, tagged, _⟩)
        · exact absurd own (Decoding.regionOf_ne_of_lt below)
        · rw [silent] at tagged
          cases tagged

end Scan

namespace Program

variable {code : Bytes} {r : Region}

/-- A region has the static targets of its instructions, whether the dispatch table is read or not. -/
theorem mem_jumps_iff (member : r ∈ (scanned code).regions) {target : Nat} :
    target ∈ r.jumps.toList ↔
      ∃ m < (decode code).length, (decode code).regionOf m = r.step ∧
        (decode code).staticTarget? m = some target := by
  have listed : ∀ (inTable : Bool) (m : Nat), target ∈ Scan.jumpsAt (decode code) inTable m ↔
      (decode code).staticTarget? m = some target := by
    intro inTable m
    unfold Scan.jumpsAt
    cases (decode code).staticTarget? m with
    | none => simp
    | some t => cases inTable && (decode code).has m .jumpi <;> simp [eq_comm]
  rw [Scan.jumps_after _ (Nat.le_refl _) r member, List.mem_flatMap]
  constructor
  · rintro ⟨m, below, found⟩
    split at found
    next own => exact ⟨m, List.mem_range.mp below, own, (listed _ m).mp found⟩
    next => cases found
  · rintro ⟨m, below, own, static⟩
    refine ⟨m, List.mem_range.mpr below, ?_⟩
    rw [if_pos own]
    exact (listed _ m).mpr static

theorem mem_tags_iff (member : r ∈ (scanned code).regions) {tag : Nat} :
    tag ∈ r.tags ↔
      ∃ m < (decode code).length, (decode code).regionOf m = r.step ∧
        ∃ op, (decode code).tagAt? m = some op ∧ op.byte.toNat = tag :=
  Scan.tags_after _ (Nat.le_refl _) r member tag

end Program

end AbiRecovery
