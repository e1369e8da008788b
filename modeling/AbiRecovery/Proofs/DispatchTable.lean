import AbiRecovery.Proofs.RegionMap

/-!
# The dispatch table, region by region

Which regions are read as parts of the dispatch table (`scans`), said of regions as wholes: the entry
region is; a later one is if earlier parts of the table lead to it and it begins like a part, or if none
leads to it, the region before it is a part and no selector has been found yet. The scan decides this
with a flag, a set of offsets and the selectors found, which feed back into each other instruction by
instruction; `TableState` says what the three stand for after each instruction, and
`selectors_eq_dispatchTable` that the selectors found are the entries in the regions so chosen.
-/
namespace AbiRecovery

namespace Decoding

/-- Whether number `n` stands at an offset. -/
def standsAt (is : Decoding) (n offset : Nat) : Bool := is[n]?.any fun i => i.offset = offset

/-- Whether the region that number `n` opens is read as part of the dispatch table. -/
def scans (is : Decoding) (n : Nat) : Bool :=
  if _later : n ≠ 0 then
    let earlier := (List.range n).attach.filter fun m => is.scans (is.regionOf m.val)
    if earlier.any fun m => (is.resumeTarget? m.val).any (is.standsAt n) then is.beginsTable n
    else is.scans (is.regionOf (n - 1)) && earlier.all fun m => (is.entryAt? m.val).isNone
  else true
termination_by n
decreasing_by
  · exact Nat.lt_of_le_of_lt (is.regionOf_le _) (List.mem_range.mp m.property)
  · exact Nat.lt_of_le_of_lt (is.regionOf_le _) (Nat.sub_one_lt _later)

/-- The numbers below `n` whose regions are read as parts of the dispatch table. -/
def tableBelow (is : Decoding) (n : Nat) : List Nat :=
  (List.range n).filter fun m => is.scans (is.regionOf m)

/-- The selector and the target that number `n` is an entry for. -/
def record? (is : Decoding) (n : Nat) : Option (Text × Nat) :=
  (is.entryAt? n).map fun entry => (Scan.selectorText entry.1, entry.2)

/-- The entries of the dispatch table in their order: of several for one selector the first gives the
place and the last the target. -/
def dispatchTable (is : Decoding) : OrderedMap Text Nat :=
  OrderedMap.ofList ((is.tableBelow is.length).filterMap is.record?)

variable {is : Decoding} {n : Nat}

@[simp]
theorem scans_zero (is : Decoding) : is.scans 0 = true := by
  rw [scans]
  simp

/-- A later region is a part of the table if earlier parts lead to it and it begins like one, or if none
does, the region before it is a part, and the parts so far have no entry. -/
theorem scans_of_ne_zero (later : n ≠ 0) :
    is.scans n =
      if (is.tableBelow n).any fun m => (is.resumeTarget? m).any (is.standsAt n) then is.beginsTable n
      else is.scans (is.regionOf (n - 1)) && (is.tableBelow n).all fun m => (is.entryAt? m).isNone := by
  rw [scans, dif_pos later]
  unfold tableBelow
  simp [List.any_filter, List.all_filter]

theorem tableBelow_succ (is : Decoding) (n : Nat) :
    is.tableBelow (n + 1) = is.tableBelow n ++ if is.scans (is.regionOf n) then [n] else [] :=
  filter_range_succ _ n

theorem exists_mem_tableBelow_succ {is : Decoding} {n : Nat} {holds : Nat → Prop} :
    (∃ k ∈ is.tableBelow (n + 1), holds k) ↔
      (∃ k ∈ is.tableBelow n, holds k) ∨ (is.scans (is.regionOf n) ∧ holds n) := by
  rw [tableBelow_succ]
  cases part : is.scans (is.regionOf n) with
  | true => simp [or_and_right, exists_or]
  | false => simp

theorem standsAt_eq {i : Instruction} (here : is[n]? = some i) (offset : Nat) :
    is.standsAt n offset = decide (i.offset = offset) := by
  unfold standsAt
  rw [here]
  rfl

theorem record?_of_label (label : is.has n .jumpdest) : is.record? n = none := by
  unfold record?
  rw [entryAt?_of_label label]
  rfl

end Decoding

/-- What the flag, the offsets and the selectors of a scan stand for after `n` instructions. -/
structure TableState (code : Bytes) (n : Nat) (s : Scan) : Prop where
  /-- The flag tells whether the current region is a part of the table. -/
  flagged : s.inTable = (decode code).scans ((decode code).openingBefore n)
  /-- Of the offsets that are still to come, those are marked that the table leads to. -/
  marked : ∀ m, n ≤ m → m < (decode code).length →
    (startOf code m ∈ s.resumePoints ↔
      ∃ k ∈ (decode code).tableBelow n, (decode code).resumeTarget? k = some (startOf code m))
  recorded : s.selectors = OrderedMap.ofList (((decode code).tableBelow n).filterMap (decode code).record?)

namespace TableState

variable {code : Bytes} {n : Nat} {s : Scan} {i : Instruction}

theorem start (code : Bytes) : TableState code 0 .start := by
  constructor
  case flagged => simp [Scan.start, Decoding.openingBefore]
  case marked => simp [Scan.start, Decoding.tableBelow]
  case recorded => rfl

/-- A region that opens is a part of the table exactly if the scan expects the table in it. -/
theorem scans_of_opens (before : TableState code n s) (here : (decode code)[n]? = some i)
    (opens : (decode code).opensRegion n) :
    (if s.resumePoints.contains i.offset then (decode code).beginsTable n
        else s.inTable && s.selectors.isEmpty) = (decode code).scans n := by
  have positive := Decoding.pos_of_opens opens
  have inside := (List.getElem?_eq_some_iff.mp here).1
  have resumed : s.resumePoints.contains i.offset = ((decode code).tableBelow n).any fun m =>
      ((decode code).resumeTarget? m).any ((decode code).standsAt n) := by
    rw [Bool.eq_iff_iff, List.contains_iff_mem, offset_eq_startOf here, before.marked n (Nat.le_refl n) inside,
      List.any_eq_true]
    refine exists_congr fun k => and_congr_right fun _ => ?_
    cases (decode code).resumeTarget? k with
    | none => simp
    | some target => simp [Decoding.standsAt_eq here, offset_eq_startOf here, eq_comm]
  have previous : (decode code).openingBefore n = (decode code).regionOf (n - 1) := by
    unfold Decoding.regionOf
    rw [Nat.sub_add_cancel positive]
  have fresh : s.selectors.isEmpty =
      ((decode code).tableBelow n).all fun m => ((decode code).entryAt? m).isNone := by
    rw [before.recorded, OrderedMap.isEmpty_ofList, Bool.eq_iff_iff, List.isEmpty_iff,
      List.filterMap_eq_nil_iff, List.all_eq_true]
    refine forall_congr' fun m => forall_congr' fun _ => ?_
    unfold Decoding.record?
    rw [Option.map_eq_none_iff, Option.isNone_iff_eq_none]
  rw [Decoding.scans_of_ne_zero (Nat.ne_of_gt positive), resumed, fresh, before.flagged, previous]

/-- A label that opens a region changes the flag alone, as far as offsets to come are concerned. -/
theorem next_of_opens (before : TableState code n s) (here : (decode code)[n]? = some i)
    (opens : (decode code).opensRegion n) : TableState code (n + 1) (s.next (decode code) n i) := by
  have label := Decoding.has_jumpdest_of_opensRegion opens
  constructor
  case flagged =>
    have part := before.scans_of_opens here opens
    simpa [Scan.next, opens, Decoding.openingBefore] using part
  case marked =>
    intro m later bound
    -- The offset that loses its mark lies behind every instruction to come.
    have ahead : startOf code n < startOf code m := startOf_lt_startOf later bound
    have points : (s.next (decode code) n i).resumePoints = s.resumePoints.erase (startOf code n) := by
      simp [Scan.next, opens, offset_eq_startOf here]
    rw [points, List.mem_erase_of_ne (Nat.ne_of_gt ahead), before.marked m (Nat.le_of_succ_le later) bound,
      Decoding.exists_mem_tableBelow_succ, Decoding.resumeTarget?_of_label label]
    simp
  case recorded =>
    have selectors : (s.next (decode code) n i).selectors = s.selectors := by
      simp [Scan.next, Decoding.entryAt?_of_label label]
    rw [selectors, before.recorded, Decoding.tableBelow_succ, List.filterMap_append]
    split
    · simp [Decoding.record?_of_label label]
    · simp

/-- Within a part of the table an instruction adds its entry or its target; elsewhere it adds nothing. -/
theorem next_of_not_opens (before : TableState code n s) (continues : (decode code).opensRegion n = false) :
    TableState code (n + 1) (s.next (decode code) n i) := by
  have region := Decoding.regionOf_of_not_opens continues
  have same : (decode code).openingBefore (n + 1) = (decode code).openingBefore n := region
  have part : s.inTable = (decode code).scans ((decode code).regionOf n) := by
    rw [region]
    exact before.flagged
  constructor
  case flagged =>
    rw [same, ← before.flagged]
    simp [Scan.next, continues]
  case marked =>
    intro m later bound
    have known := before.marked m (Nat.le_of_succ_le later) bound
    rw [Decoding.exists_mem_tableBelow_succ, ← known, ← part]
    cases flag : s.inTable with
    | false => simp [Scan.next, continues, flag]
    | true =>
      cases target : (decode code).resumeTarget? n with
      | none => simp [Scan.next, continues, flag, target]
      | some offset =>
        have points : (s.next (decode code) n i).resumePoints = s.resumePoints.insert offset := by
          simp [Scan.next, continues, flag, target]
        rw [points, NumberSet.mem_insert, or_comm]
        simp [eq_comm]
  case recorded =>
    rw [Decoding.tableBelow_succ, List.filterMap_append, ← part]
    cases flag : s.inTable with
    | false => simp [Scan.next, flag, before.recorded]
    | true =>
      cases entry : (decode code).entryAt? n with
      | none => simp [Scan.next, flag, entry, before.recorded, Decoding.record?]
      | some pair =>
        obtain ⟨constant, target⟩ := pair
        simp [Scan.next, flag, entry, before.recorded, Decoding.record?, OrderedMap.ofList_concat]

theorem after (code : Bytes) (n : Nat) (inside : n ≤ (decode code).length) :
    TableState code n (Scan.after (decode code) n) := by
  induction n with
  | zero => exact start code
  | succ n ih =>
    have here := List.getElem?_eq_getElem (Nat.lt_of_succ_le inside)
    have before := ih (Nat.le_of_succ_le inside)
    rw [Scan.after_succ here]
    cases opens : (decode code).opensRegion n with
    | true => exact before.next_of_opens here opens
    | false => exact before.next_of_not_opens opens

end TableState

/-- The selectors that a scan finds are the entries of the dispatch table, read region by region. -/
theorem selectors_eq_dispatchTable (code : Bytes) :
    ∃ p, Program.ofCode code = .ok p ∧ p.selectors = (decode code).dispatchTable :=
  ⟨Program.scanned code, ofCode_eq code, (TableState.after code _ (Nat.le_refl _)).recorded⟩

end AbiRecovery
