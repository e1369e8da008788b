import AbiRecovery.Proofs.ScanState

/-!
# Appending to code

What a scan has found in code it finds also when more bytes follow. The two scans take the same
instructions up to the cut but for the operand of the last one (`IsCutOf`), which may go on behind it.
Looks back go to whole instructions, so up to the cut the scans differ only in what a label sees ahead
of it: a guard may be missed, and after the last instruction the flag and the constant kept for topics
may differ (`InStep`). Behind the cut findings are added and never taken back (`KeptIn`).
-/
namespace AbiRecovery

namespace Decoding

/-- Whether instructions are the first of others. The operand of the last of them may be cut off. -/
def IsCutOf (is is' : Decoding) : Prop :=
  ∀ (n : Nat) (i : Instruction), is[n]? = some i → ∃ i', is'[n]? = some i' ∧
    i'.offset = i.offset ∧ i'.opcode = i.opcode ∧ (n + 1 < is.length → i' = i)

end Decoding

theorem isCutOf_decodeFrom (offset : Nat) (code more : Bytes) :
    (decodeFrom offset code).IsCutOf (decodeFrom offset (code ++ more)) := by
  fun_induction decodeFrom offset code with
  | case1 =>
    intro n i here
    cases here
  | case2 offset byte rest op operand ih =>
    -- Where instructions follow, the operand is whole and the bytes behind it are as before.
    have whole : rest.drop op.pushWidth ≠ [] →
        (rest ++ more).take op.pushWidth = operand ∧
          (rest ++ more).drop op.pushWidth = rest.drop op.pushWidth ++ more := by
      intro left
      have within : op.pushWidth ≤ rest.length := Nat.le_of_lt (List.length_lt_of_drop_ne_nil left)
      exact ⟨List.take_append_of_le_length within, List.drop_append_of_le_length within⟩
    intro n i here
    rw [List.cons_append, decodeFrom_cons]
    cases n with
    | zero =>
      cases here
      refine ⟨_, rfl, rfl, rfl, ?_⟩
      intro follows
      have left : rest.drop op.pushWidth ≠ [] := by
        intro nothing
        rw [nothing, decodeFrom] at follows
        simp at follows
      rw [(whole left).1]
    | succ n =>
      have left : rest.drop op.pushWidth ≠ [] := by
        intro nothing
        rw [nothing, decodeFrom] at here
        cases here
      obtain ⟨i', there, place, opcode, same⟩ := ih n i here
      rw [(whole left).1, (whole left).2]
      refine ⟨i', there, place, opcode, ?_⟩
      intro follows
      exact same (Nat.lt_of_succ_lt_succ follows)

theorem isCutOf_decode (code more : Bytes) : (decode code).IsCutOf (decode (code ++ more)) :=
  isCutOf_decodeFrom 0 code more

namespace Decoding

variable {is is' : Decoding} {n count : Nat} {i i' : Instruction}

namespace IsCutOf

variable (cut : IsCutOf is is')

include cut

theorem length_le : is.length ≤ is'.length := by
  rcases Nat.eq_zero_or_pos is.length with none_taken | some_taken
  · omega
  · have last := List.getElem?_eq_getElem (Nat.sub_one_lt_of_lt some_taken)
    obtain ⟨i', there, _⟩ := cut _ _ last
    have bound := (List.getElem?_eq_some_iff.mp there).1
    omega

theorem has_eq_has (inside : n < is.length) (op : Opcode) : is.has n op = is'.has n op := by
  have here := List.getElem?_eq_getElem inside
  obtain ⟨i', there, _, opcode, _⟩ := cut n _ here
  rw [has_eq here, has_eq there, opcode]

theorem has_of_has {op : Opcode} (has : is.has n op) : is'.has n op := by
  rwa [← cut.has_eq_has (lt_length_of_has has)]

/-- A look back from an instruction that is there meets whole instructions. -/
theorem before?_eq (inside : n < is.length) (back : 0 < count) : is.before? n count = is'.before? n count := by
  unfold before?
  split
  case isFalse => rfl
  case isTrue within =>
    have here := List.getElem?_eq_getElem (l := is) (i := n - count) (by omega)
    obtain ⟨i', there, _, _, same⟩ := cut _ _ here
    rw [here, there, same (by omega)]

theorem pushedBefore?_eq (inside : n < is.length) (back : 0 < count) :
    is.pushedBefore? n count = is'.pushedBefore? n count := by
  unfold pushedBefore?
  rw [cut.before?_eq inside back]

theorem hasBefore_eq (inside : n < is.length) (back : 0 < count) (op : Opcode) :
    is.hasBefore n count op = is'.hasBefore n count op := by
  unfold hasBefore
  rw [cut.before?_eq inside back]

theorem opensRegion_eq (inside : n < is.length) : is.opensRegion n = is'.opensRegion n := by
  unfold opensRegion
  rw [cut.has_eq_has inside, cut.before?_eq inside Nat.one_pos]

theorem staticTarget?_eq (inside : n < is.length) : is.staticTarget? n = is'.staticTarget? n := by
  unfold staticTarget?
  rw [cut.has_eq_has inside, cut.has_eq_has inside, cut.pushedBefore?_eq inside Nat.one_pos]

theorem resumeTarget?_eq (inside : n < is.length) : is.resumeTarget? n = is'.resumeTarget? n := by
  unfold resumeTarget?
  rw [cut.has_eq_has inside, cut.has_eq_has inside, cut.hasBefore_eq inside (by decide),
    cut.hasBefore_eq inside (by decide), cut.hasBefore_eq inside (by decide), cut.pushedBefore?_eq inside (by decide)]

theorem entryAt?_eq (inside : n < is.length) : is.entryAt? n = is'.entryAt? n := by
  unfold entryAt?
  rw [cut.has_eq_has inside, cut.hasBefore_eq inside (by decide), cut.hasBefore_eq inside (by decide),
    cut.pushedBefore?_eq inside (by decide), cut.pushedBefore?_eq inside (by decide),
    cut.pushedBefore?_eq inside (by decide)]

/-- The look ahead from a label needs one more instruction before the cut. -/
theorem beginsTable_eq (follows : n + 1 < is.length) : is.beginsTable n = is'.beginsTable n := by
  unfold beginsTable
  rw [cut.has_eq_has follows, cut.has_eq_has follows]

/-- A guard that is seen is seen also when more follows; one that the cut hides may be new. -/
theorem isGuarded_of_isGuarded (guarded : is.isGuarded n) : is'.isGuarded n := by
  simp only [isGuarded, Bool.and_eq_true] at guarded ⊢
  obtain ⟨⟨⟨label, value⟩, copy⟩, test⟩ := guarded
  exact ⟨⟨⟨cut.has_of_has label, cut.has_of_has value⟩, cut.has_of_has copy⟩, cut.has_of_has test⟩

end IsCutOf

end Decoding

/-! ## Findings that are kept -/

/-- How a region may go on: more telling opcodes, more jumps, an end. -/
structure Region.GrowsInto (r r' : Region) : Prop where
  start : r'.start = r.start
  step : r'.step = r.step
  tags : r.tags ⊆ r'.tags
  jumps : r.jumps.toList <+: r'.jumps.toList

namespace Region.GrowsInto

theorem refl (r : Region) : r.GrowsInto r := ⟨rfl, rfl, List.Subset.refl _, List.prefix_refl _⟩

theorem trans {a b c : Region} (first : a.GrowsInto b) (second : b.GrowsInto c) : a.GrowsInto c :=
  ⟨second.start.trans first.start, second.step.trans first.step,
    List.Subset.trans first.tags second.tags, first.jumps.trans second.jumps⟩

end Region.GrowsInto

/-- Whether all that one program tells is told by another. Regions stay as they are, but for the last one,
which may grow; everything that has an order keeps it. -/
structure Program.KeptIn (p q : Program) : Prop where
  starts : p.regions.map Region.start <+: q.regions.map Region.start
  regions : ∀ (k : Nat) (r : Region), p.regions[k]? = some r →
    ∃ r', q.regions[k]? = some r' ∧ r.GrowsInto r' ∧ (k + 1 < p.regions.length → r' = r)
  labels : p.labels <+: q.labels
  selectors : p.selectors.keys <+: q.selectors.keys
  guards : p.guards ⊆ q.guards
  topics : p.topics <+: q.topics

/-- More guards are no loss. -/
theorem Program.keptIn_guards (p : Program) {guards : OrderedMap Nat Nat} (kept : p.guards ⊆ guards) :
    p.KeptIn { p with guards } where
  starts := List.prefix_refl _
  regions := fun _ r here => ⟨r, here, .refl r, fun _ => rfl⟩
  labels := List.prefix_refl _
  selectors := List.prefix_refl _
  guards := kept
  topics := List.prefix_refl _

theorem Program.KeptIn.refl (p : Program) : p.KeptIn p := p.keptIn_guards (List.Subset.refl _)

theorem Program.KeptIn.trans {p q t : Program} (first : p.KeptIn q) (second : q.KeptIn t) : p.KeptIn t where
  starts := first.starts.trans second.starts
  regions := by
    intro k r here
    obtain ⟨r', there, grown, same⟩ := first.regions k r here
    obtain ⟨r'', beyond, grown', same'⟩ := second.regions k r' there
    refine ⟨r'', beyond, grown.trans grown', ?_⟩
    intro follows
    have lengths := first.starts.length_le
    rw [List.length_map, List.length_map] at lengths
    rw [same' (Nat.lt_of_lt_of_le follows lengths), same follows]
  labels := first.labels.trans second.labels
  selectors := first.selectors.trans second.selectors
  guards := List.Subset.trans first.guards second.guards
  topics := first.topics.trans second.topics

namespace OrderedMap

theorem keys_prefix_keys_insert {κ ν : Type} [DecidableEq κ] (m : OrderedMap κ ν) (key : κ) (value : ν) :
    m.keys <+: (m.insert key value).keys := by
  rw [keys_insert]
  split
  · exact List.prefix_refl _
  · exact List.prefix_append _ _

end OrderedMap

namespace Scan

variable {is is' : Decoding} {n m : Nat} {i i' : Instruction} {s s' : Scan}

/-! ## An instruction takes nothing back -/

theorem growsInto_annotated (is : Decoding) (inTable : Bool) (n : Nat) (i : Instruction) (r : Region) :
    r.GrowsInto (annotated is inTable n i r) := by
  constructor
  case start => rfl
  case step => rfl
  case tags =>
    unfold annotated
    intro tag found
    split
    · exact NumberSet.mem_insert.mpr (Or.inr found)
    · exact found
  case jumps =>
    unfold annotated
    rw [Array.toList_append]
    exact List.prefix_append _ _

theorem prefix_toList_ite_push {α : Type} (found : Array α) (new : α) (condition : Prop) [Decidable condition] :
    found.toList <+: (if condition then found.push new else found).toList := by
  split
  · rw [Array.toList_push]
    exact List.prefix_append _ _
  · exact List.prefix_refl _

/-- The region that an instruction finds open goes on as part of the regions after it. -/
theorem regions_next (is : Decoding) (n : Nat) (i : Instruction) (s : Scan) :
    ∃ r opened, (s.next is n i).program.regions = s.closed.toList ++ r :: opened ∧ s.current.GrowsInto r := by
  cases opens : is.opensRegion n with
  | true =>
    refine ⟨{ s.current with last? := some (i.offset - 1) }, [.opened i.offset n], ?_, ?_⟩
    · simp [program, next, opens]
    · exact ⟨rfl, rfl, List.Subset.refl _, List.prefix_refl _⟩
  | false =>
    refine ⟨annotated is s.inTable n i s.current, [], ?_, growsInto_annotated ..⟩
    simp [program, next, opens]

theorem keptIn_next (is : Decoding) (n : Nat) (i : Instruction) (s : Scan) :
    s.program.KeptIn (s.next is n i).program := by
  obtain ⟨r, opened, regions, grown⟩ := regions_next is n i s
  have listed : s.program.regions = s.closed.toList ++ [s.current] := rfl
  constructor
  case starts =>
    have current : s.program.regions.map Region.start = s.closed.toList.map Region.start ++ [r.start] := by
      rw [listed, List.map_append, grown.start]
      rfl
    rw [regions, current, List.map_append, List.map_cons]
    exact (List.prefix_append_right_inj _).mpr (List.prefix_append [r.start] _)
  case regions =>
    intro k r₀ here
    rw [listed] at here ⊢
    rw [regions]
    rcases Nat.lt_or_ge k s.closed.toList.length with closed | last
    · rw [List.getElem?_append_left closed] at here ⊢
      exact ⟨r₀, here, .refl r₀, fun _ => rfl⟩
    · rw [List.getElem?_append_right last, List.getElem?_singleton] at here
      split at here
      next first =>
        cases here
        rw [List.getElem?_append_right last, first]
        refine ⟨r, rfl, grown, ?_⟩
        rw [List.length_append, List.length_singleton]
        omega
      next => cases here
  case labels =>
    show s.labels.toList <+: (s.next is n i).labels.toList
    exact prefix_toList_ite_push ..
  case selectors =>
    show s.selectors.keys <+: (s.next is n i).selectors.keys
    simp only [next]
    cases if s.inTable then is.entryAt? n else none with
    | none => exact List.prefix_refl _
    | some entry => exact OrderedMap.keys_prefix_keys_insert _ _ _
  case guards =>
    show s.guards.toList ⊆ (s.next is n i).guards.toList
    exact (prefix_toList_ite_push ..).subset
  case topics =>
    show s.topics.toList <+: (s.next is n i).topics.toList
    exact prefix_toList_ite_push ..

/-- What has been found after some instructions is kept to the end of the run. -/
theorem keptIn_after (is : Decoding) (later : m ≤ n) : (after is m).program.KeptIn (after is n).program := by
  induction later with
  | refl => exact .refl _
  | step _ ih =>
    refine ih.trans ?_
    rw [after]
    split
    · exact keptIn_next ..
    · exact .refl _

/-! ## Two runs up to the cut -/

/-- Two states after `n` instructions, the first of a scan that ends with `is`. While it goes on they
differ only in guards that it misses; at its end also in the flag and in the constant kept for topics. -/
structure InStep (is : Decoding) (n : Nat) (s s' : Scan) : Prop where
  closed : s.closed = s'.closed
  current : s.current = s'.current
  labels : s.labels = s'.labels
  guards : s.guards.toList ⊆ s'.guards.toList
  selectors : s.selectors = s'.selectors
  topics : s.topics = s'.topics
  resumePoints : s.resumePoints = s'.resumePoints
  flag : n < is.length → s.inTable = s'.inTable
  constant : n < is.length → s.lastPush32 = s'.lastPush32

theorem jumpsAt_eq_of_cut (cut : is.IsCutOf is') (inside : n < is.length) (inTable : Bool) :
    jumpsAt is inTable n = jumpsAt is' inTable n := by
  unfold jumpsAt
  rw [cut.staticTarget?_eq inside, cut.has_eq_has inside]

theorem InStep.next (step : InStep is n s s') (cut : is.IsCutOf is') (here : is[n]? = some i)
    (offset : i'.offset = i.offset) (opcode : i'.opcode = i.opcode) (same : n + 1 < is.length → i' = i) :
    InStep is (n + 1) (s.next is n i) (s'.next is' n i') := by
  have inside := (List.getElem?_eq_some_iff.mp here).1
  have opens := cut.opensRegion_eq inside
  have flag := step.flag inside
  constructor
  case closed => simp only [Scan.next, ← opens, offset, step.closed, step.current]
  case current =>
    simp only [Scan.next, annotated, ← opens, ← jumpsAt_eq_of_cut cut inside, offset, opcode, step.current, flag]
  case labels => simp only [Scan.next, ← opens, ← cut.has_eq_has inside, offset, step.labels, step.current]
  case guards =>
    intro guard found
    simp only [Scan.next] at found ⊢
    cases seen : is.isGuarded n with
    | true =>
      rw [seen, if_pos rfl, Array.toList_push] at found
      rw [cut.isGuarded_of_isGuarded seen, if_pos rfl, Array.toList_push, offset]
      rcases List.mem_append.mp found with before | new
      · exact List.mem_append_left _ (step.guards before)
      · exact List.mem_append_right _ new
    | false =>
      rw [seen, if_neg Bool.false_ne_true] at found
      split
      · rw [Array.toList_push]
        exact List.mem_append_left _ (step.guards found)
      · exact step.guards found
  case selectors => simp only [Scan.next, ← cut.entryAt?_eq inside, step.selectors, flag]
  case topics => simp only [Scan.next, opcode, step.topics, step.constant inside]
  case resumePoints =>
    simp only [Scan.next, ← opens, ← cut.resumeTarget?_eq inside, offset, step.resumePoints, flag]
  case flag =>
    intro follows
    simp only [Scan.next, ← opens, ← cut.beginsTable_eq follows, offset, step.resumePoints, step.selectors, flag]
  case constant =>
    intro follows
    simp only [Scan.next, same follows, step.constant inside]

theorem inStep_after (cut : is.IsCutOf is') (n : Nat) (inside : n ≤ is.length) :
    InStep is n (after is n) (after is' n) := by
  induction n with
  | zero => exact ⟨rfl, rfl, rfl, List.Subset.refl _, rfl, rfl, rfl, fun _ => rfl, fun _ => rfl⟩
  | succ n ih =>
    have here := List.getElem?_eq_getElem (Nat.lt_of_succ_le inside)
    obtain ⟨i', there, offset, opcode, same⟩ := cut n _ here
    rw [after_succ here, after_succ there]
    exact (ih (Nat.le_of_succ_le inside)).next cut here offset opcode same

theorem InStep.keptIn (step : InStep is n s s') : s.program.KeptIn s'.program := by
  have same : s'.program = { s.program with guards := s'.guards.toList } := by
    unfold program
    rw [step.closed, step.current, step.labels, step.selectors, step.topics]
  rw [same]
  exact s.program.keptIn_guards step.guards

end Scan

/-- Appending bytes to code loses no finding, wherever the code ends: within an operand, right behind a
label, or between two instructions. -/
theorem findings_kept_when_appending (code more : Bytes) :
    ∃ p q, Program.ofCode code = .ok p ∧ Program.ofCode (code ++ more) = .ok q ∧ p.KeptIn q := by
  have cut := isCutOf_decode code more
  have at_cut := (Scan.inStep_after cut _ (Nat.le_refl _)).keptIn
  have behind := Scan.keptIn_after (decode (code ++ more)) cut.length_le
  exact ⟨_, _, ofCode_eq code, ofCode_eq (code ++ more), at_cut.trans behind⟩

end AbiRecovery
