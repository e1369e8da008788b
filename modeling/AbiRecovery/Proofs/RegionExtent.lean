import AbiRecovery.Proofs.RegionContent

/-!
# The instructions of a region

A region reaches from the offset at which it starts to the one at which it ends, or to the end of the
code. The instructions at these offsets are those that the region is counted for (`covers_iff`), so the
regions divide the instructions among them. What a region keeps is read off its own instructions: no operand
is taken for one, and none is kept by a neighbour.
-/
namespace AbiRecovery

/-- Whether an instruction lies between the offsets at which a region starts and ends. -/
def Region.covers (r : Region) (i : Instruction) : Bool := r.start ≤ i.offset && r.last?.all (i.offset ≤ ·)

/-- What a region keeps, by its instructions; `inTable` tells of each number whether the dispatch table is
being read when it is met. -/
structure Region.KeepsOwn (is : Decoding) (inTable : Nat → Bool) (r : Region) : Prop where
  tagged : ∀ tag, tag ∈ r.tags ↔
    ∃ i ∈ is, r.covers i ∧ i.opcode ∈ Scan.tellingOpcodes ∧ i.opcode.byte.toNat = tag
  /-- Every pushed target once, in the order of the code; that of a conditional jump in the table twice. -/
  listed : r.jumps.toList = (List.range is.length).flatMap fun n =>
    if is[n]?.any r.covers then Scan.jumpsAt is (inTable n) n else []
  /-- Which targets there are does not depend on the table. -/
  targets : ∀ target, target ∈ r.jumps.toList ↔
    ∃ n, is[n]?.any r.covers ∧ is.staticTarget? n = some target

variable {code : Bytes} {n m : Nat} {i : Instruction} {r : Region}

namespace Program

/-- A region is the last one, or it ends right before the next one. -/
theorem last_or_followed (member : r ∈ (scanned code).regions) :
    (r.last? = none ∧ ∀ r' ∈ (scanned code).regions, r'.step ≤ r.step) ∨
      ∃ next ∈ (scanned code).regions, r.last?.map (· + 1) = some next.start ∧ r.step < next.step ∧
        ∀ r' ∈ (scanned code).regions, r.step < r'.step → next.step ≤ r'.step := by
  have ordered := List.pairwise_iff_getElem.mp (Scan.regions_increasing code _ (Nat.le_refl _))
  have before : ∀ j k (inside : j < (scanned code).regions.length) (inside' : k < (scanned code).regions.length),
      j < k → (scanned code).regions[j].step < (scanned code).regions[k].step :=
    fun j k inside inside' earlier => (ordered j k inside inside' earlier).1
  obtain ⟨k, inside, rfl⟩ := List.mem_iff_getElem.mp member
  have ends := last?_map_succ_eq (List.getElem?_eq_getElem inside)
  by_cases more : k + 1 < (scanned code).regions.length
  · rw [List.getElem?_eq_getElem more, Option.map_some] at ends
    refine Or.inr ⟨_, List.getElem_mem more, ends, before _ _ inside more (Nat.lt_succ_self k), ?_⟩
    intro r' member' later
    obtain ⟨k', inside', rfl⟩ := List.mem_iff_getElem.mp member'
    rcases Nat.lt_trichotomy (k + 1) k' with beyond | rfl | within
    · exact Nat.le_of_lt (before _ _ more inside' beyond)
    · exact Nat.le_refl _
    · rcases Nat.lt_or_eq_of_le (Nat.le_of_lt_succ within) with earlier | rfl
      · have reversed := before _ _ inside' inside earlier
        omega
      · omega
  · rw [List.getElem?_eq_none (Nat.le_of_not_lt more), Option.map_none] at ends
    refine Or.inl ⟨Option.map_eq_none_iff.mp ends, ?_⟩
    intro r' member'
    obtain ⟨k', inside', rfl⟩ := List.mem_iff_getElem.mp member'
    rcases Nat.lt_or_eq_of_le (Nat.le_of_lt_succ (Nat.lt_of_lt_of_le inside' (Nat.le_of_not_lt more))) with earlier | rfl
    · exact Nat.le_of_lt (before _ _ inside' inside earlier)
    · exact Nat.le_refl _

/-- A region is opened by an instruction of the code, if there is any. -/
theorem step_lt_length (member : r ∈ (scanned code).regions) (inside : n < (decode code).length) :
    r.step < (decode code).length := by
  rcases (Scan.mem_regions_after (Nat.le_refl _) member).2 with entry | opens
  · omega
  · exact Decoding.lt_length_of_opens opens

/-- The regions divide the instructions by their numbers. -/
theorem le_regionOf_iff (member : r ∈ (scanned code).regions) : r.step ≤ (decode code).regionOf n ↔ r.step ≤ n := by
  constructor
  · intro nested
    exact Nat.le_trans nested ((decode code).regionOf_le n)
  · intro before
    rcases (Scan.mem_regions_after (Nat.le_refl _) member).2 with entry | opens
    · omega
    · exact Decoding.le_regionOf opens before

/-- An instruction lies between the offsets of a region exactly if the region is its own. -/
theorem covers_iff (here : (decode code)[n]? = some i) (member : r ∈ (scanned code).regions) :
    r.covers i ↔ (decode code).regionOf n = r.step := by
  have inside := (List.getElem?_eq_some_iff.mp here).1
  have begins : ∀ r' ∈ (scanned code).regions, (r'.start ≤ startOf code n ↔ r'.step ≤ (decode code).regionOf n) := by
    intro r' member'
    rw [(Scan.mem_regions_after (Nat.le_refl _) member').1, le_regionOf_iff member']
    exact startOf_le_startOf_iff (step_lt_length member' inside) inside
  obtain ⟨own, member_own, step_own, _⟩ := exists_region code n
  unfold Region.covers
  rw [Bool.and_eq_true, decide_eq_true_iff, offset_eq_startOf here, begins r member]
  rcases last_or_followed member with ⟨open_end, last⟩ | ⟨next, member_next, ends, above, nearest⟩
  · have bound := last own member_own
    simp only [open_end, Option.all_none, and_true]
    omega
  · obtain ⟨end_, ended, start_next⟩ := Option.map_eq_some_iff.mp ends
    have beyond := begins next member_next
    rw [ended, Option.all_some, decide_eq_true_iff]
    -- A region that begins behind this one begins no earlier than the next.
    have apart : r.step < (decode code).regionOf n → next.step ≤ (decode code).regionOf n := by
      intro later
      rw [← step_own] at later ⊢
      exact nearest own member_own later
    omega

/-- Every instruction lies in one region. -/
theorem existsUnique_covers (here : (decode code)[n]? = some i) : ∃! r, r ∈ (scanned code).regions ∧ r.covers i := by
  obtain ⟨own, member, step, _⟩ := exists_region code n
  refine ⟨own, ⟨member, (covers_iff here member).mpr step.symm⟩, ?_⟩
  rintro other ⟨member', within⟩
  have same := (covers_iff here member').mp within
  have starts : other.start = own.start := by
    rw [(Scan.mem_regions_after (Nat.le_refl _) member').1, (Scan.mem_regions_after (Nat.le_refl _) member).1,
      ← same, step]
  exact eq_of_start_eq member' member starts

theorem covers_getElem?_iff (member : r ∈ (scanned code).regions) :
    (decode code)[n]?.any r.covers ↔ n < (decode code).length ∧ (decode code).regionOf n = r.step := by
  cases here : (decode code)[n]? with
  | none => simp [List.getElem?_eq_none_iff.mp here]
  | some i =>
    rw [Option.any_some, covers_iff here member]
    exact (and_iff_right (List.getElem?_eq_some_iff.mp here).1).symm

end Program

namespace Scan

/-- The states of a scan, one after each instruction. -/
def statesOf (code : Bytes) : List Scan := (List.range (decode code).length).map fun n => after (decode code) (n + 1)

/-- What is still to be seen after `n` instructions are the states after them. -/
theorem traceFrom_after (n : Nat) (done : List Scan) :
    traceFrom (fun _ _ s => s) (after (decode code) n) (Cursor.past code window n) done =
      .ok (done.reverse ++ (statesOf code).drop n) := by
  have count : (statesOf code).length = (decode code).length := by simp [statesOf]
  rw [traceFrom]
  by_cases more : n < (decode code).length
  · have here := List.getElem?_eq_getElem more
    have ahead : (statesOf code).drop n = after (decode code) (n + 1) :: (statesOf code).drop (n + 1) := by
      rw [List.drop_eq_getElem_cons (count ▸ more)]
      simp [statesOf]
    rw [dif_pos (by simpa using more)]
    simp only [Cursor.take_past here, step_past (Nat.le_refl _) here, ← after_succ here]
    rw [traceFrom_after (n + 1), ahead, List.reverse_cons, List.append_assoc, List.singleton_append]
  · rw [dif_neg (by simpa using more), List.drop_of_length_le (by omega), List.append_nil]
termination_by (decode code).length - n

theorem trace_eq (code : Bytes) : trace (fun _ _ s => s) code = .ok (statesOf code) :=
  traceFrom_after 0 []

/-- Before instruction `n` a scan is in the state after the instructions before it. -/
theorem getElem?_start_cons_statesOf (inside : n ≤ (decode code).length) :
    (Scan.start :: statesOf code)[n]? = some (after (decode code) n) := by
  cases n with
  | zero => rfl
  | succ n =>
    rw [List.getElem?_cons_succ, statesOf, List.getElem?_map, List.getElem?_range (by omega)]
    rfl

end Scan

/-- The tags and the jumps of a region are those of the instructions at its offsets, and each instruction stands
in one region. -/
theorem regions_keep_own_instructions (code : Bytes) :
    ∃ p states, Program.ofCode code = .ok p ∧ Scan.trace (fun _ _ s => s) code = .ok states ∧
      (∀ i ∈ decode code, ∃! r, r ∈ p.regions ∧ r.covers i) ∧
      ∀ r ∈ p.regions, r.KeepsOwn (decode code) fun n => (Scan.start :: states)[n]?.any Scan.inTable := by
  refine ⟨Program.scanned code, _, ofCode_eq code, Scan.trace_eq code, ?_, ?_⟩
  · intro i among
    obtain ⟨n, here⟩ := List.mem_iff_getElem?.mp among
    exact Program.existsUnique_covers here
  · intro r member
    constructor
    case tagged =>
      intro tag
      rw [Program.mem_tags_iff member]
      constructor
      · rintro ⟨n, inside, own, op, tagged, rfl⟩
        have here := List.getElem?_eq_getElem inside
        unfold Decoding.tagAt? at tagged
        rw [here, Option.map_some, Option.filter_eq_some_iff] at tagged
        obtain ⟨opcode, telling⟩ := tagged
        cases opcode
        exact ⟨_, List.getElem_mem inside, (Program.covers_iff here member).mpr own,
          List.contains_iff_mem.mp telling, rfl⟩
      · rintro ⟨i, among, within, telling, rfl⟩
        obtain ⟨n, here⟩ := List.mem_iff_getElem?.mp among
        refine ⟨n, (List.getElem?_eq_some_iff.mp here).1, (Program.covers_iff here member).mp within, _, ?_, rfl⟩
        unfold Decoding.tagAt?
        rw [here, Option.map_some, Option.filter_some, if_pos (List.contains_iff_mem.mpr telling)]
    case listed =>
      rw [Scan.jumps_after _ (Nat.le_refl _) r member]
      refine List.flatMap_congr fun n below => ?_
      have inside := List.mem_range.mp below
      have flag : (Scan.start :: Scan.statesOf code)[n]?.any Scan.inTable =
          (Scan.after (decode code) n).inTable := by
        rw [Scan.getElem?_start_cons_statesOf (Nat.le_of_lt inside), Option.any_some]
      have same : (decode code).regionOf n = r.step ↔ (decode code)[n]?.any r.covers := by
        rw [Program.covers_getElem?_iff member]
        exact (and_iff_right inside).symm
      rw [flag]
      exact if_congr same rfl rfl
    case targets =>
      intro target
      rw [Program.mem_jumps_iff member]
      refine exists_congr fun n => ?_
      rw [Program.covers_getElem?_iff member, and_assoc]

end AbiRecovery
