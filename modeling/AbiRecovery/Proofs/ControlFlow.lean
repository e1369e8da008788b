import AbiRecovery.Proofs.Reachability
import AbiRecovery.Proofs.Recovery
import AbiRecovery.Proofs.RegionContent

/-!
# Static control flow and the recovered entries

`StaticFlow` is the control flow that can be read off the instruction stream: falling through, and
jumps whose target is pushed right before. It never leaves a region but by a jump, and every such jump
is listed in the region it stands in, so what a path of instructions reaches lies in regions that the
search for tags visits. The entry of a function therefore never denies a store, a return or an
argument read that static flow from its label leads to.
-/
namespace AbiRecovery

/-- One step of static control flow, from one number of an instruction to another. -/
inductive StaticFlow (is : Decoding) : Nat → Nat → Prop
  | falls {n : Nat} {i : Instruction} (here : is[n]? = some i) (through : i.opcode.fallsThrough)
      (more : n + 1 < is.length) : StaticFlow is n (n + 1)
  | jumps {n m : Nat} {push jump label : Instruction} (before : is[n]? = some push)
      (constant : push.opcode.isPush) (here : is[n + 1]? = some jump)
      (leaves : jump.opcode = .jump ∨ jump.opcode = .jumpi) (there : is[m]? = some label)
      (lands : label.opcode = .jumpdest) (target : push.operand.toNat = label.offset) :
      StaticFlow is (n + 1) m

namespace Decoding

variable {is : Decoding} {n : Nat} {i : Instruction}

/-- No region opens where control falls through. -/
theorem regionOf_succ_of_falls (here : is[n]? = some i) (through : i.opcode.fallsThrough) :
    is.regionOf (n + 1) = is.regionOf n := by
  have continues : is.opensRegion (n + 1) = false := by
    unfold opensRegion
    rw [before?_add, here, Option.any_some, through]
    simp
  exact regionOf_of_not_opens continues

theorem staticTarget?_of_push {push jump : Instruction} (before : is[n]? = some push)
    (constant : push.opcode.isPush) (here : is[n + 1]? = some jump)
    (leaves : jump.opcode = .jump ∨ jump.opcode = .jumpi) :
    is.staticTarget? (n + 1) = some push.operand.toNat := by
  have pushed : is.pushedBefore? (n + 1) 1 = some push.operand := pushedBefore?_add before constant
  unfold staticTarget?
  rw [has_eq here, has_eq here, if_pos (by simpa using leaves), pushed]
  rfl

end Decoding

namespace Program

variable {code : Bytes} {r r' : Region}

theorem distinctStarts_scanned (code : Bytes) : (scanned code).DistinctStarts :=
  fun _ member _ member' same => eq_of_start_eq member member' same

/-- Following a label leads into the region of its instruction. -/
theorem regionAt?_label {m : Nat} (label : (decode code).has m .jumpdest) (member : r ∈ (scanned code).regions)
    (own : r.step = (decode code).regionOf m) : (scanned code).regionAt? (startOf code m) = some r := by
  unfold regionAt?
  rw [get?_labels label, Option.bind_some, ← own, ← (Scan.mem_regions_after (Nat.le_refl _) member).1]
  exact regionStarting?_of_mem member

/-- What an offset leads into is the region of a label there. -/
theorem exists_label_of_regionAt? {offset : Nat} (found : (scanned code).regionAt? offset = some r) :
    ∃ m, (decode code).has m .jumpdest ∧ startOf code m = offset ∧ r.step = (decode code).regionOf m := by
  obtain ⟨start, labelled, starting⟩ := Option.bind_eq_some_iff.mp found
  obtain ⟨m, label, rfl, rfl⟩ := exists_label_of_get? labelled
  obtain ⟨own, member, step, _⟩ := exists_region code m
  have at_label := regionAt?_label label member step
  rw [found] at at_label
  exact ⟨m, label, rfl, by rw [Option.some.inj at_label, step]⟩

/-- A pushed target at which a label stands leads into the region of the label. -/
theorem leads_of_staticTarget {n m target : Nat} (member : r ∈ (scanned code).regions)
    (own : r.step = (decode code).regionOf n) (pushed : (decode code).staticTarget? n = some target)
    (lands : (decode code).has m .jumpdest) (there : startOf code m = target) :
    ∃ r' ∈ (scanned code).regions, r'.step = (decode code).regionOf m ∧ (scanned code).Leads r r' := by
  obtain ⟨r', member', own', _⟩ := exists_region code m
  have entered := regionAt?_label lands member' own'
  rw [there] at entered
  have listed := (mem_jumps_iff member).mpr ⟨n, Decoding.lt_length_of_staticTarget? pushed, own.symm, pushed⟩
  exact ⟨r', member', own', target, listed, entered⟩

/-- One step of static flow stays in its region or follows one of the jumps of the region. -/
theorem leads_of_staticFlow {n m : Nat} (flow : StaticFlow (decode code) n m)
    (member : r ∈ (scanned code).regions) (own : r.step = (decode code).regionOf n) :
    ∃ r' ∈ (scanned code).regions, r'.step = (decode code).regionOf m ∧
      Relation.ReflTransGen (scanned code).Leads r r' := by
  cases flow with
  | falls here through more =>
    rw [← Decoding.regionOf_succ_of_falls here through] at own
    exact ⟨r, member, own, .refl⟩
  | jumps before constant here leaves there lands target =>
    have static := Decoding.staticTarget?_of_push before constant here leaves
    have is_label := Decoding.has_iff.mpr ⟨_, there, lands⟩
    have starts := (offset_eq_startOf there).symm.trans target.symm
    obtain ⟨r', member', own', leads⟩ := leads_of_staticTarget member own static is_label starts
    exact ⟨r', member', own', .single leads⟩

/-- A path of static flow runs through regions that jumps lead to. -/
theorem leads_of_path {n m : Nat} (path : Relation.ReflTransGen (StaticFlow (decode code)) n m)
    (member : r ∈ (scanned code).regions) (own : r.step = (decode code).regionOf n) :
    ∃ r' ∈ (scanned code).regions, r'.step = (decode code).regionOf m ∧
      Relation.ReflTransGen (scanned code).Leads r r' := by
  induction path with
  | refl => exact ⟨r, member, own, .refl⟩
  | tail _ flow ih =>
    obtain ⟨mid, among, owns, reached⟩ := ih
    obtain ⟨r', member', own', further⟩ := leads_of_staticFlow flow among owns
    exact ⟨r', member', own', reached.trans further⟩

/-- The telling opcodes on a path of static flow are among the tags that the search collects. -/
theorem mem_reachableTags_of_path {n m : Nat} {i : Instruction}
    (path : Relation.ReflTransGen (StaticFlow (decode code)) n m) (here : (decode code)[m]? = some i)
    (telling : Scan.tellingOpcodes.contains i.opcode) (member : r ∈ (scanned code).regions)
    (own : r.step = (decode code).regionOf n) :
    i.opcode.byte.toNat ∈ (scanned code).reachableTags r := by
  obtain ⟨r', member', own', reached⟩ := leads_of_path path member own
  have tagged : (decode code).tagAt? m = some i.opcode := by
    unfold Decoding.tagAt?
    rw [here, Option.map_some, Option.filter_some, if_pos telling]
  have kept := (mem_tags_iff member').mpr
    ⟨m, (List.getElem?_eq_some_iff.mp here).1, own'.symm, i.opcode, tagged, rfl⟩
  exact mem_reachableTags_of_leads (distinctStarts_scanned code) member reached _ kept

end Program

namespace Abi

variable {p : Program} {selector : Text} {target : Nat} {region : Region}

theorem not_stores_of_view (view : (functionAt p.index selector target region).mutability = .view) :
    Opcode.sstore.byte.toNat ∉ p.reachableTags region := by
  intro stores
  have contained : (p.index.reachableTags region).contains Opcode.sstore.byte.toNat = true :=
    List.contains_iff_mem.mpr stores
  unfold functionAt mutabilityOf at view
  dsimp only at view
  rw [contained] at view
  split at view
  · cases view
  · cases view

theorem not_returns_of_no_outputs (none_out : (functionAt p.index selector target region).outputs? = none) :
    Opcode.return_.byte.toNat ∉ p.reachableTags region := by
  intro returns
  have contained : (p.index.reachableTags region).contains Opcode.return_.byte.toNat = true :=
    List.contains_iff_mem.mpr returns
  unfold functionAt at none_out
  dsimp only at none_out
  rw [contained] at none_out
  cases none_out

theorem not_reads_of_no_inputs (none_in : (functionAt p.index selector target region).inputs? = none)
    {op : Opcode} (reads : op ∈ argumentReads) : op.byte.toNat ∉ p.reachableTags region := by
  intro tagged
  have contained : (argumentReads.any fun op =>
      (p.index.reachableTags region).contains op.byte.toNat) = true :=
    List.any_eq_true.mpr ⟨op, reads, List.contains_iff_mem.mpr tagged⟩
  unfold functionAt at none_in
  dsimp only at none_in
  rw [contained] at none_in
  cases none_in

/-- Whatever static control flow from the label of a recovered function reaches is reported: a view
reaches no store, a function without results no return, and one without arguments no argument read. -/
theorem ofCode_covers_static_flow (code : Bytes) :
    ∃ p entries, Program.ofCode code = .ok p ∧ ofCode code = .ok entries ∧
      ∀ f, .function f ∈ entries →
        ∃ target n label, p.selectors.get? f.selector = some target ∧
          (decode code)[n]? = some label ∧ label.opcode = .jumpdest ∧ label.offset = target ∧
          ∀ m i, Relation.ReflTransGen (StaticFlow (decode code)) n m → (decode code)[m]? = some i →
            (f.mutability = .view → i.opcode ≠ .sstore) ∧
            (f.outputs? = none → i.opcode ≠ .return_) ∧
            (f.inputs? = none → i.opcode ∉ argumentReads) := by
  refine ⟨Program.scanned code, _, AbiRecovery.ofCode_eq code, ofCode_eq code, ?_⟩
  intro f listed
  obtain ⟨target, region, recorded, found, made⟩ := exists_of_function_mem listed
  obtain ⟨n, is_label, rfl, own⟩ := Program.exists_label_of_regionAt? found
  obtain ⟨label, here, opcode⟩ := Decoding.has_iff.mp is_label
  have member := Program.mem_of_regionAt? found
  have selected := OrderedMap.get?_of_mem (Scan.nodup_keys_selectors _ _) recorded
  refine ⟨_, n, label, selected, here, opcode, offset_eq_startOf here, ?_⟩
  intro m i path at_m
  have tagged : Scan.tellingOpcodes.contains i.opcode → i.opcode.byte.toNat ∈
      (Program.scanned code).reachableTags region :=
    fun telling => Program.mem_reachableTags_of_path path at_m telling member own
  rw [made]
  refine ⟨?_, ?_, ?_⟩
  · intro view stores
    rw [stores] at tagged
    exact not_stores_of_view view (tagged (by decide))
  · intro none_out returns
    rw [returns] at tagged
    exact not_returns_of_no_outputs none_out (tagged (by decide))
  · intro none_in reads
    have telling : ∀ op ∈ argumentReads, Scan.tellingOpcodes.contains op = true := by decide
    exact not_reads_of_no_inputs none_in reads (tagged (telling _ reads))

end Abi

end AbiRecovery
