import AbiRecovery.Proofs.ScanState
import Mathlib.Data.List.Chain

/-!
# Regions and labels

Where the regions of code begin and end and which region a label belongs to, as functions of the
instruction stream. A region is known by the number of the instruction that opens it; `regionOf` gives
that number for every instruction. `RegionMap` gathers what holds of the regions and labels of a
scanned program, and `regionMap_of_scan` derives it for all code from the state after each
instruction.
-/
namespace AbiRecovery

namespace Decoding

/-- The numbers below `n` at which a region opens. -/
def openingsBelow (is : Decoding) (n : Nat) : List Nat := (List.range n).filter is.opensRegion

/-- The numbers at which a region opens, besides the first. -/
def openings (is : Decoding) : List Nat := is.openingsBelow is.length

/-- The numbers of the labels below `n`. -/
def labelsBelow (is : Decoding) (n : Nat) : List Nat := (List.range n).filter fun m => is.has m .jumpdest

/-- The last number below `n` at which a region opens; zero, the entry, if there is none. -/
def openingBefore (is : Decoding) : Nat → Nat
  | 0 => 0
  | n + 1 => if is.opensRegion n then n else is.openingBefore n

/-- The number of the instruction that opens the region of number `n`. -/
def regionOf (is : Decoding) (n : Nat) : Nat := is.openingBefore (n + 1)

variable {is : Decoding} {n m : Nat}

theorem regionOf_of_opens (opens : is.opensRegion n) : is.regionOf n = n := if_pos opens

theorem regionOf_of_not_opens (continues : is.opensRegion n = false) :
    is.regionOf n = is.openingBefore n := if_neg (by rw [continues]; exact Bool.false_ne_true)

theorem filter_range_succ (chosen : Nat → Bool) (n : Nat) :
    (List.range (n + 1)).filter chosen = (List.range n).filter chosen ++ if chosen n then [n] else [] := by
  rw [List.range_succ, List.filter_append]
  cases last : chosen n <;> simp [last]

theorem openingsBelow_succ (is : Decoding) (n : Nat) :
    is.openingsBelow (n + 1) = is.openingsBelow n ++ if is.opensRegion n then [n] else [] :=
  filter_range_succ _ n

theorem labelsBelow_succ (is : Decoding) (n : Nat) :
    is.labelsBelow (n + 1) = is.labelsBelow n ++ if is.has n .jumpdest then [n] else [] :=
  filter_range_succ _ n

theorem lt_length_of_opens (opens : is.opensRegion n) : n < is.length :=
  lt_length_of_has (has_jumpdest_of_opensRegion opens)

theorem pos_of_opens (opens : is.opensRegion n) : 0 < n := by
  cases n with
  | zero => simp at opens
  | succ n => exact Nat.succ_pos n

theorem mem_labelsBelow : m ∈ is.labelsBelow n ↔ m < n ∧ is.has m .jumpdest := by
  unfold labelsBelow
  rw [List.mem_filter, List.mem_range]

/-- A region begins no later than its instructions. -/
theorem regionOf_le (is : Decoding) (n : Nat) : is.regionOf n ≤ n := by
  induction n with
  | zero => simp [regionOf, openingBefore]
  | succ n ih =>
    cases opens : is.opensRegion (n + 1) with
    | true => exact Nat.le_of_eq (regionOf_of_opens opens)
    | false =>
      rw [regionOf_of_not_opens opens]
      exact Nat.le_succ_of_le ih

/-- What opens the region of an instruction is the entry or a label that opens a region. -/
theorem opens_regionOf (is : Decoding) (n : Nat) : is.regionOf n = 0 ∨ is.opensRegion (is.regionOf n) := by
  induction n with
  | zero => simp [regionOf, openingBefore]
  | succ n ih =>
    cases opens : is.opensRegion (n + 1) with
    | true =>
      rw [regionOf_of_opens opens]
      exact Or.inr opens
    | false =>
      rw [regionOf_of_not_opens opens]
      exact ih

/-- No region opens between an instruction and the opening of its region. -/
theorem le_regionOf (opens : is.opensRegion m) (before : m ≤ n) : m ≤ is.regionOf n := by
  induction n with
  | zero =>
    have positive := pos_of_opens opens
    omega
  | succ n ih =>
    cases here : is.opensRegion (n + 1) with
    | true =>
      rw [regionOf_of_opens here]
      exact before
    | false =>
      have different : m ≠ n + 1 := by
        rintro rfl
        rw [opens] at here
        cases here
      rw [regionOf_of_not_opens here]
      exact ih (by omega)

end Decoding

namespace Scan

/-- All regions, the current one last. -/
def regions (s : Scan) : List Region := s.closed.toList ++ [s.current]

variable {is : Decoding} {n : Nat} {i : Instruction} {s : Scan}

theorem regions_next_of_opens (opens : is.opensRegion n) :
    (s.next is n i).regions =
      s.closed.toList ++ [{ s.current with last? := some (i.offset - 1) }, .opened i.offset n] := by
  simp [regions, next, opens]

theorem regions_next_of_not_opens (continues : is.opensRegion n = false) :
    (s.next is n i).regions = s.closed.toList ++ [annotated is s.inTable n i s.current] := by
  simp [regions, next, continues]

/-! ## Where regions begin -/

variable {code : Bytes}

/-- After `n` instructions the regions are those of the entry and of the openings so far. -/
theorem starts_after (n : Nat) (inside : n ≤ (decode code).length) :
    (after (decode code) n).regions.map (fun r => (r.step, r.start)) =
      (0 :: (decode code).openingsBelow n).map fun m => (m, startOf code m) := by
  induction n with
  | zero => simp [after, start, regions, Region.opened, Decoding.openingsBelow]
  | succ n ih =>
    have here := List.getElem?_eq_getElem (Nat.lt_of_succ_le inside)
    have known := ih (Nat.le_of_succ_le inside)
    rw [after_succ here, Decoding.openingsBelow_succ]
    unfold regions at known
    rw [List.map_append] at known
    cases opens : (decode code).opensRegion n with
    | true =>
      rw [regions_next_of_opens opens, if_pos rfl, ← List.cons_append, List.map_append,
        List.map_append, ← known]
      simp [Region.opened, offset_eq_startOf here]
    | false =>
      rw [regions_next_of_not_opens opens, if_neg Bool.false_ne_true, List.append_nil, ← known,
        List.map_append]
      rfl

/-- The current region is the one that was opened last. -/
theorem current_after (n : Nat) (inside : n ≤ (decode code).length) :
    (after (decode code) n).current.step = (decode code).openingBefore n ∧
      (after (decode code) n).current.start = startOf code ((decode code).openingBefore n) := by
  induction n with
  | zero => exact ⟨rfl, rfl⟩
  | succ n ih =>
    have here := List.getElem?_eq_getElem (Nat.lt_of_succ_le inside)
    rw [after_succ here, Decoding.openingBefore]
    cases opens : (decode code).opensRegion n with
    | true => simp [next, opens, Region.opened, offset_eq_startOf here]
    | false =>
      have known := ih (Nat.le_of_succ_le inside)
      simpa [next, opens, annotated] using known

/-- Starts and steps increase together, region by region. -/
theorem regions_increasing (code : Bytes) (n : Nat) (inside : n ≤ (decode code).length) :
    (after (decode code) n).regions.Pairwise fun a b => a.step < b.step ∧ a.start < b.start := by
  have numbers : (0 :: (decode code).openingsBelow n).Pairwise fun a b => a < b ∧ startOf code a < startOf code b := by
    have ascending : (0 :: (decode code).openingsBelow n).Pairwise (· < ·) := by
      rw [List.pairwise_cons]
      refine ⟨?_, List.pairwise_lt_range.filter _⟩
      intro m opened
      exact Decoding.pos_of_opens (List.mem_filter.mp opened).2
    refine ascending.imp_of_mem ?_
    intro a b _ opened before
    have bound : b < n := by
      rcases List.mem_cons.mp opened with rfl | opened
      · omega
      · exact List.mem_range.mp (List.mem_filter.mp opened).1
    exact ⟨before, startOf_lt_startOf before (Nat.lt_of_lt_of_le bound inside)⟩
  have pairs := (List.pairwise_map (f := fun m => (m, startOf code m))
    (R := fun a b : Nat × Nat => a.1 < b.1 ∧ a.2 < b.2)).mpr numbers
  rw [← starts_after n inside] at pairs
  exact List.pairwise_map.mp pairs

theorem mem_regions_after (inside : n ≤ (decode code).length) {r : Region}
    (member : r ∈ (after (decode code) n).regions) :
    r.start = startOf code r.step ∧ (r.step = 0 ∨ (decode code).opensRegion r.step) := by
  have pair := List.mem_map_of_mem (f := fun r : Region => (r.step, r.start)) member
  rw [starts_after n inside] at pair
  obtain ⟨m, opened, same⟩ := List.mem_map.mp pair
  have step : m = r.step := congrArg Prod.fst same
  have start : startOf code m = r.start := congrArg Prod.snd same
  subst step
  refine ⟨start.symm, ?_⟩
  rcases List.mem_cons.mp opened with entry | opened
  · exact Or.inl entry
  · exact Or.inr (List.mem_filter.mp opened).2

theorem exists_region_after (inside : n ≤ (decode code).length) {m : Nat}
    (opened : m = 0 ∨ (decode code).opensRegion m ∧ m < n) :
    ∃ r ∈ (after (decode code) n).regions, r.step = m := by
  have member : (m, startOf code m) ∈ (after (decode code) n).regions.map fun r => (r.step, r.start) := by
    rw [starts_after n inside]
    apply List.mem_map_of_mem
    rcases opened with rfl | ⟨opens, below⟩
    · exact List.mem_cons_self
    · exact List.mem_cons_of_mem _ (List.mem_filter.mpr ⟨List.mem_range.mpr below, opens⟩)
  obtain ⟨r, region, same⟩ := List.mem_map.mp member
  exact ⟨r, region, congrArg Prod.fst same⟩

/-! ## Where regions end -/

/-- Every region but the last ends right before the next one. -/
theorem ends_after (code : Bytes) (n : Nat) (inside : n ≤ (decode code).length) :
    (after (decode code) n).regions.IsChain (fun a b => a.last?.map (· + 1) = some b.start) ∧
      (after (decode code) n).current.last? = none := by
  induction n with
  | zero => exact ⟨by simp [after, Scan.start, regions], rfl⟩
  | succ n ih =>
    have here := List.getElem?_eq_getElem (Nat.lt_of_succ_le inside)
    obtain ⟨chain, last⟩ := ih (Nat.le_of_succ_le inside)
    unfold regions at chain
    rw [List.isChain_append] at chain
    obtain ⟨closed, _, joined⟩ := chain
    rw [after_succ here]
    cases opens : (decode code).opensRegion n with
    | true =>
      have positive : 0 < startOf code n :=
        startOf_lt_startOf (Decoding.pos_of_opens opens) (Nat.lt_of_succ_le inside)
      have exact_end : startOf code n - 1 + 1 = startOf code n := Nat.sub_add_cancel positive
      refine ⟨?_, by simp [next, opens, Region.opened]⟩
      rw [regions_next_of_opens opens, List.isChain_append]
      refine ⟨closed, ?_, ?_⟩
      · simp [Region.opened, offset_eq_startOf here, exact_end]
      · simpa using joined
    | false =>
      refine ⟨?_, by simpa [next, opens, annotated] using last⟩
      rw [regions_next_of_not_opens opens, List.isChain_append]
      refine ⟨closed, by simp, ?_⟩
      simpa [annotated] using joined

/-! ## Labels -/

/-- After `n` instructions the labels so far are recorded, each with the start of its region. -/
theorem labels_after (n : Nat) (inside : n ≤ (decode code).length) :
    (after (decode code) n).labels.toList =
      ((decode code).labelsBelow n).map fun m => (startOf code m, startOf code ((decode code).regionOf m)) := by
  induction n with
  | zero => rfl
  | succ n ih =>
    have here := List.getElem?_eq_getElem (Nat.lt_of_succ_le inside)
    have known := ih (Nat.le_of_succ_le inside)
    rw [after_succ here, Decoding.labelsBelow_succ, List.map_append, ← known]
    cases label : (decode code).has n .jumpdest with
    | false => simp [next, label]
    | true =>
      cases opens : (decode code).opensRegion n with
      | true => simp [next, label, opens, Decoding.regionOf_of_opens opens, offset_eq_startOf here]
      | false =>
        have owner := (current_after n (Nat.le_of_succ_le inside)).2
        simp [next, label, opens, Decoding.regionOf_of_not_opens opens, offset_eq_startOf here, owner]

end Scan

/-- The labels of code are the label instructions of its stream. -/
theorem map_startOf_labelsBelow (code : Bytes) (n : Nat) (inside : n ≤ (decode code).length) :
    ((decode code).labelsBelow n).map (startOf code) =
      (((decode code).take n).filter fun i => i.opcode = .jumpdest).map Instruction.offset := by
  induction n with
  | zero => rfl
  | succ n ih =>
    have here := List.getElem?_eq_getElem (Nat.lt_of_succ_le inside)
    rw [Decoding.labelsBelow_succ, List.map_append, ih (Nat.le_of_succ_le inside), List.take_add_one, here,
      List.filter_append, List.map_append, Decoding.has_eq here]
    congr 1
    by_cases label : (decode code)[n].opcode = .jumpdest
    · simp [label, offset_eq_startOf here]
    · simp [label]

/-! ## The scanned program -/

variable {code : Bytes}

namespace Program

theorem labels_scanned (code : Bytes) :
    (scanned code).labels = ((decode code).labelsBelow (decode code).length).map fun m =>
      (startOf code m, startOf code ((decode code).regionOf m)) :=
  Scan.labels_after _ (Nat.le_refl _)

theorem keys_labels_eq_map (code : Bytes) :
    (scanned code).labels.keys = ((decode code).labelsBelow (decode code).length).map (startOf code) := by
  rw [labels_scanned]
  unfold OrderedMap.keys
  rw [List.map_map]
  rfl

theorem keys_labels_scanned (code : Bytes) :
    (scanned code).labels.keys =
      ((decode code).filter fun i => i.opcode = .jumpdest).map Instruction.offset := by
  have offsets := map_startOf_labelsBelow code _ (Nat.le_refl _)
  rw [List.take_length] at offsets
  rw [keys_labels_eq_map, offsets]

/-- Instructions that are chosen by their numbers begin at different offsets. -/
theorem nodup_map_startOf (code : Bytes) (chosen : Nat → Bool) :
    (((List.range (decode code).length).filter chosen).map (startOf code)).Nodup := by
  have ascending : ((List.range (decode code).length).filter chosen).Pairwise fun a b =>
      startOf code a ≠ startOf code b := by
    refine (List.pairwise_lt_range.filter _).imp_of_mem ?_
    intro a b _ member before
    have bound := List.mem_range.mp (List.mem_filter.mp member).1
    exact Nat.ne_of_lt (startOf_lt_startOf before bound)
  exact List.pairwise_map.mpr ascending

theorem nodup_keys_labels (code : Bytes) : (scanned code).labels.keys.Nodup := by
  rw [keys_labels_eq_map]
  exact nodup_map_startOf code _

/-- A label belongs to the region of its instruction. -/
theorem get?_labels {m : Nat} (label : (decode code).has m .jumpdest) :
    (scanned code).labels.get? (startOf code m) = some (startOf code ((decode code).regionOf m)) := by
  apply OrderedMap.get?_of_mem (nodup_keys_labels code)
  rw [labels_scanned]
  exact List.mem_map.mpr ⟨m, Decoding.mem_labelsBelow.mpr ⟨Decoding.lt_length_of_has label, label⟩, rfl⟩

theorem exists_label_of_get? {offset start : Nat} (found : (scanned code).labels.get? offset = some start) :
    ∃ m, (decode code).has m .jumpdest ∧ startOf code m = offset ∧
      startOf code ((decode code).regionOf m) = start := by
  have member := OrderedMap.mem_of_get? found
  rw [labels_scanned] at member
  obtain ⟨m, label, same⟩ := List.mem_map.mp member
  exact ⟨m, (Decoding.mem_labelsBelow.mp label).2, congrArg Prod.fst same, congrArg Prod.snd same⟩

/-- Looking up the start of a region finds it. -/
theorem regionStarting?_of_mem {r : Region} (member : r ∈ (scanned code).regions) :
    (scanned code).regionStarting? r.start = some r := by
  have ascending := Scan.regions_increasing code _ (Nat.le_refl _)
  obtain ⟨before, later, split⟩ := List.append_of_mem member
  have listed : (Scan.after (decode code) (decode code).length).regions = before ++ r :: later := split
  rw [listed, List.pairwise_append] at ascending
  unfold regionStarting?
  rw [split, List.find?_append, List.find?_eq_none.mpr]
  · simp
  · intro other earlier
    have smaller := (ascending.2.2 other earlier r List.mem_cons_self).2
    simpa using Nat.ne_of_lt smaller

/-- A region is known by where it starts. -/
theorem eq_of_start_eq {r r' : Region} (member : r ∈ (scanned code).regions) (member' : r' ∈ (scanned code).regions)
    (same : r.start = r'.start) : r = r' := by
  have found := regionStarting?_of_mem member
  rw [same, regionStarting?_of_mem member'] at found
  exact (Option.some.inj found).symm

/-- Every instruction lies in a region. -/
theorem exists_region (code : Bytes) (m : Nat) :
    ∃ r ∈ (scanned code).regions, r.step = (decode code).regionOf m ∧
      r.start = startOf code ((decode code).regionOf m) := by
  have opened : (decode code).regionOf m = 0 ∨
      (decode code).opensRegion ((decode code).regionOf m) ∧
        (decode code).regionOf m < (decode code).length := by
    rcases (decode code).opens_regionOf m with entry | opens
    · exact Or.inl entry
    · exact Or.inr ⟨opens, Decoding.lt_length_of_opens opens⟩
  obtain ⟨r, member, step⟩ := Scan.exists_region_after (Nat.le_refl _) opened
  refine ⟨r, member, step, ?_⟩
  rw [(Scan.mem_regions_after (Nat.le_refl _) member).1, step]

end Program

/-- How the regions and labels of a scanned program stand to the instructions of its code. -/
structure RegionMap (code : Bytes) (p : Program) : Prop where
  /-- The entry region opens at the first instruction, and every other one at a label after an
  instruction that never falls through. -/
  opened : p.regions.map (fun r => (r.step, r.start)) =
    (0, 0) :: (decode code).openings.map fun n => (n, startOf code n)
  increasing : (p.regions.map Region.start).Pairwise (· < ·)
  keyed : ∀ r ∈ p.regions, p.regionStarting? r.start = some r
  /-- A region ends at the offset before the next one, and only the last one is open. -/
  ended : ∀ (k : Nat) (r : Region), p.regions[k]? = some r →
    r.last?.map (· + 1) = p.regions[k + 1]?.map Region.start
  labelled : p.labels.keys = ((decode code).filter fun i => i.opcode = .jumpdest).map Instruction.offset
  valid : ∀ offset, offset ∈ p.labels.keys ↔ ValidDestination code offset
  /-- A label belongs to the region with the greatest start that is not behind it. -/
  owned : ∀ label start, p.labels.get? label = some start →
    (∃ r ∈ p.regions, r.start = start) ∧ start ≤ label ∧ ∀ r ∈ p.regions, r.start ≤ label → r.start ≤ start

namespace Program

theorem last?_map_succ_eq {k : Nat} {r : Region} (here : (scanned code).regions[k]? = some r) :
    r.last?.map (· + 1) = (scanned code).regions[k + 1]?.map Region.start := by
  obtain ⟨chain, last⟩ := Scan.ends_after code _ (Nat.le_refl _)
  obtain ⟨bound, rfl⟩ := List.getElem?_eq_some_iff.mp here
  have count : (scanned code).regions.length =
      (Scan.after (decode code) (decode code).length).closed.toList.length + 1 := by
    simp [scanned, Scan.program]
  by_cases more : k + 1 < (scanned code).regions.length
  · rw [List.getElem?_eq_getElem more]
    exact List.isChain_iff_getElem.mp chain k more
  · have final : (scanned code).regions[k] = (Scan.after (decode code) (decode code).length).current := by
      have at_end : k = (Scan.after (decode code) (decode code).length).closed.toList.length := by omega
      subst at_end
      exact List.getElem_concat_length rfl _
    rw [List.getElem?_eq_none (Nat.le_of_not_lt more), final, last]
    rfl

theorem mem_keys_labels_iff {offset : Nat} :
    offset ∈ (scanned code).labels.keys ↔ ValidDestination code offset := by
  rw [keys_labels_scanned, validDestination_iff]
  constructor
  · intro member
    obtain ⟨i, listed, rfl⟩ := List.mem_map.mp member
    obtain ⟨among, label⟩ := List.mem_filter.mp listed
    obtain ⟨n, here⟩ := List.mem_iff_getElem?.mp among
    exact ⟨n, i, here, by simpa using label, rfl⟩
  · rintro ⟨n, i, here, label, rfl⟩
    refine List.mem_map_of_mem (List.mem_filter.mpr ⟨List.mem_of_getElem? here, ?_⟩)
    simpa using label

/-- The region of a label starts last among those that start no later than the label. -/
theorem start_le_of_le_label {m : Nat} {r : Region} (label : (decode code).has m .jumpdest)
    (member : r ∈ (scanned code).regions) (before : r.start ≤ startOf code m) :
    r.start ≤ startOf code ((decode code).regionOf m) := by
  obtain ⟨start, opened⟩ := Scan.mem_regions_after (Nat.le_refl _) member
  rcases opened with entry | opens
  · rw [start, entry]
    exact Nat.zero_le _
  · have ordered : r.step ≤ m := by
      rcases Nat.lt_or_ge m r.step with behind | ordered
      · have reversed := startOf_lt_startOf behind (Decoding.lt_length_of_opens opens)
        omega
      · exact ordered
    have nested := Decoding.le_regionOf opens ordered
    rw [start]
    rcases Nat.lt_or_eq_of_le nested with strictly | same
    · have bound := Nat.lt_of_le_of_lt ((decode code).regionOf_le m) (Decoding.lt_length_of_has label)
      exact Nat.le_of_lt (startOf_lt_startOf strictly bound)
    · rw [← same]

end Program

/-- Every code has a scanned program, and its regions and labels are those of the instruction stream. -/
theorem regionMap_of_scan (code : Bytes) : ∃ p, Program.ofCode code = .ok p ∧ RegionMap code p := by
  refine ⟨Program.scanned code, ofCode_eq code, ?_⟩
  constructor
  case opened => exact Scan.starts_after _ (Nat.le_refl _)
  case increasing =>
    have ascending := Scan.regions_increasing code _ (Nat.le_refl _)
    exact List.pairwise_map.mpr (ascending.imp And.right)
  case keyed => exact fun r => Program.regionStarting?_of_mem
  case ended => exact fun k r => Program.last?_map_succ_eq
  case labelled => exact Program.keys_labels_scanned code
  case valid => exact fun offset => Program.mem_keys_labels_iff
  case owned =>
    intro label start found
    obtain ⟨m, is_label, rfl, rfl⟩ := Program.exists_label_of_get? found
    obtain ⟨r, member, _, starts⟩ := Program.exists_region code m
    refine ⟨⟨r, member, starts⟩, ?_, ?_⟩
    · rcases Nat.lt_or_eq_of_le ((decode code).regionOf_le m) with before | same
      · exact Nat.le_of_lt (startOf_lt_startOf before (Decoding.lt_length_of_has is_label))
      · rw [same]
    · intro other among before
      exact Program.start_le_of_le_label is_label among before

end AbiRecovery
