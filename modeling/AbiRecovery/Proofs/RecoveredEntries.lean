import AbiRecovery.Proofs.ControlFlow
import AbiRecovery.Proofs.DispatchTable
import AbiRecovery.Proofs.ReachedTags

/-!
# What the recovered entries say

The entries of code, said of its instructions alone. There is a function for each selector whose target is
a label, and what is said of it (`Abi.Describes`) is read off the instructions after the label and those in
the regions that pushed jump targets lead to (`Decoding.Reaches`). The search for tags visits just these
regions, wherever in a region the label stands and however the jumps turn back (`mem_reachableTags_iff_reaches`).
-/
namespace AbiRecovery

/-- The regions that pushed jump targets lead to from one, each known by the number of the instruction that
opens it. -/
inductive RegionReached (is : Decoding) (entry : Nat) : Nat → Prop
  | entry : RegionReached is entry entry
  | jump {n m target : Nat} (reached : RegionReached is entry (is.regionOf n))
      (pushed : is.staticTarget? n = some target) (lands : is.has m .jumpdest) (there : is.standsAt m target) :
      RegionReached is entry (is.regionOf m)

namespace Decoding

/-- Whether an opcode occurs in a region that pushed jump targets lead to from the region of number `n`. -/
def Reaches (is : Decoding) (n : Nat) (op : Opcode) : Prop :=
  ∃ m, RegionReached is (is.regionOf n) (is.regionOf m) ∧ is.has m op

/-- Whether a label stands at an offset. -/
def hasLabelAt (is : Decoding) (offset : Nat) : Bool := is.any fun i => i.opcode = .jumpdest && i.offset = offset

/-- The numbers below `n` of labels that are guarded against attached value. -/
def guardsBelow (is : Decoding) (n : Nat) : List Nat := (List.range n).filter is.isGuarded

variable {is : Decoding} {n : Nat}

theorem guardsBelow_succ (is : Decoding) (n : Nat) :
    is.guardsBelow (n + 1) = is.guardsBelow n ++ if is.isGuarded n then [n] else [] :=
  filter_range_succ _ n

/-- A label is guarded just if the three instructions after it are `CALLVALUE DUP1 ISZERO`. -/
theorem isGuarded_iff (label : is.has n .jumpdest) :
    is.isGuarded n ↔ is.has (n + 1) .callvalue ∧ is.has (n + 2) .dup1 ∧ is.has (n + 3) .iszero := by
  unfold isGuarded
  rw [label]
  simp only [Bool.true_and, Bool.and_eq_true, and_assoc]

end Decoding

variable {code : Bytes} {n : Nat}

theorem standsAt_iff {m offset : Nat} (inside : m < (decode code).length) :
    (decode code).standsAt m offset ↔ startOf code m = offset := by
  have here := List.getElem?_eq_getElem inside
  rw [Decoding.standsAt_eq here, decide_eq_true_iff, offset_eq_startOf here]

theorem hasLabelAt_iff {offset : Nat} :
    (decode code).hasLabelAt offset ↔ ∃ m, (decode code).has m .jumpdest ∧ startOf code m = offset := by
  unfold Decoding.hasLabelAt
  rw [List.any_eq_true]
  constructor
  · rintro ⟨i, among, label⟩
    obtain ⟨m, here⟩ := List.mem_iff_getElem?.mp among
    rw [Bool.and_eq_true, decide_eq_true_iff, decide_eq_true_iff] at label
    exact ⟨m, Decoding.has_iff.mpr ⟨i, here, label.1⟩, offset_eq_startOf here ▸ label.2⟩
  · rintro ⟨m, label, rfl⟩
    obtain ⟨i, here, opcode⟩ := Decoding.has_iff.mp label
    refine ⟨i, List.mem_of_getElem? here, ?_⟩
    rw [Bool.and_eq_true, decide_eq_true_iff, decide_eq_true_iff]
    exact ⟨opcode, offset_eq_startOf here⟩

/-! ## Guards -/

/-- After `n` instructions the guarded labels so far are recorded with their numbers. -/
theorem Scan.guards_after (n : Nat) (inside : n ≤ (decode code).length) :
    (Scan.after (decode code) n).guards.toList = ((decode code).guardsBelow n).map fun m => (startOf code m, m) := by
  induction n with
  | zero => rfl
  | succ n ih =>
    have here := List.getElem?_eq_getElem (Nat.lt_of_succ_le inside)
    rw [Scan.after_succ here, Decoding.guardsBelow_succ, List.map_append, ← ih (Nat.le_of_succ_le inside)]
    cases guarded : (decode code).isGuarded n with
    | false => simp [Scan.next, guarded]
    | true => simp [Scan.next, guarded, offset_eq_startOf here]

namespace Program

theorem guards_scanned (code : Bytes) :
    (scanned code).guards = ((decode code).guardsBelow (decode code).length).map fun m => (startOf code m, m) :=
  Scan.guards_after _ (Nat.le_refl _)

theorem keys_guards_scanned (code : Bytes) :
    (scanned code).guards.keys = ((decode code).guardsBelow (decode code).length).map (startOf code) := by
  rw [guards_scanned]
  unfold OrderedMap.keys
  rw [List.map_map]
  rfl

theorem contains_guards_iff (label : (decode code).has n .jumpdest) :
    (scanned code).guards.contains (startOf code n) ↔ (decode code).isGuarded n := by
  have inside := Decoding.lt_length_of_has label
  rw [OrderedMap.contains_iff_mem_keys, keys_guards_scanned, List.mem_map]
  constructor
  · rintro ⟨m, among, same⟩
    obtain ⟨below, guarded⟩ := List.mem_filter.mp among
    rw [← eq_of_startOf_eq (List.mem_range.mp below) inside same]
    exact guarded
  · intro guarded
    exact ⟨n, List.mem_filter.mpr ⟨List.mem_range.mpr inside, guarded⟩, rfl⟩

/-- A target leads into a region just if a label stands there. -/
theorem isSome_regionAt?_iff {target : Nat} :
    ((scanned code).regionAt? target).isSome ↔ (decode code).hasLabelAt target := by
  rw [hasLabelAt_iff, Option.isSome_iff_exists]
  constructor
  · rintro ⟨r, found⟩
    obtain ⟨m, label, starts, _⟩ := exists_label_of_regionAt? found
    exact ⟨m, label, starts⟩
  · rintro ⟨m, label, rfl⟩
    obtain ⟨r, member, step, _⟩ := exists_region code m
    exact ⟨r, regionAt?_label label member step⟩

/-! ## Reach

The jumps that regions list and the targets that instructions push are the same steps, seen from either side. -/

/-- Jumps lead from regions of a program to regions of it. -/
theorem mem_of_reached {p : Program} {r r' : Region} (path : Relation.ReflTransGen p.Leads r r')
    (member : r ∈ p.regions) : r' ∈ p.regions := by
  cases path with
  | refl => exact member
  | tail _ leads =>
    obtain ⟨target, _, found⟩ := leads
    exact mem_of_regionAt? found

theorem exists_reached_of_regionReached {r : Region} (member : r ∈ (scanned code).regions) {k : Nat}
    (reached : RegionReached (decode code) r.step k) :
    ∃ r', Relation.ReflTransGen (scanned code).Leads r r' ∧ r'.step = k := by
  induction reached with
  | entry => exact ⟨r, .refl, rfl⟩
  | @jump n m target _ pushed lands there ih =>
    obtain ⟨mid, path, own⟩ := ih
    have starts := (standsAt_iff (Decoding.lt_length_of_has lands)).mp there
    obtain ⟨r', _, own', leads⟩ := leads_of_staticTarget (mem_of_reached path member) own pushed lands starts
    exact ⟨r', .tail path leads, own'⟩

theorem regionReached_of_reached {r r' : Region} (member : r ∈ (scanned code).regions)
    (path : Relation.ReflTransGen (scanned code).Leads r r') : RegionReached (decode code) r.step r'.step := by
  induction path with
  | refl => exact .entry
  | tail before leads ih =>
    obtain ⟨target, listed, found⟩ := leads
    obtain ⟨n, _, own, pushed⟩ := (mem_jumps_iff (mem_of_reached before member)).mp listed
    obtain ⟨m, label, starts, step⟩ := exists_label_of_regionAt? found
    rw [← own] at ih
    rw [step]
    exact .jump ih pushed label ((standsAt_iff (Decoding.lt_length_of_has label)).mpr starts)

/-- The tags found from the region of an instruction are the telling opcodes that occur within its reach. -/
theorem mem_reachableTags_iff_reaches {r : Region} (member : r ∈ (scanned code).regions)
    (own : r.step = (decode code).regionOf n) {op : Opcode} (telling : Scan.tellingOpcodes.contains op) :
    op.byte.toNat ∈ (scanned code).reachableTags r ↔ (decode code).Reaches n op := by
  rw [mem_reachableTags_iff (distinctStarts_scanned code) member]
  unfold Decoding.Reaches
  rw [← own]
  constructor
  · rintro ⟨r', path, tagged⟩
    obtain ⟨m, _, own', op', kept, same⟩ := (mem_tags_iff (mem_of_reached path member)).mp tagged
    obtain rfl : op' = op := congrArg Opcode.mk (UInt8.toNat_inj.mp same)
    refine ⟨m, own' ▸ regionReached_of_reached member path, ?_⟩
    obtain ⟨i, here, opcode⟩ := Option.map_eq_some_iff.mp (Option.filter_eq_some_iff.mp kept).1
    exact Decoding.has_iff.mpr ⟨i, here, opcode⟩
  · rintro ⟨m, reached, occurs⟩
    obtain ⟨r', path, step⟩ := exists_reached_of_regionReached member reached
    refine ⟨r', path, (mem_tags_iff (mem_of_reached path member)).mpr
      ⟨m, Decoding.lt_length_of_has occurs, step.symm, op, ?_, rfl⟩⟩
    obtain ⟨i, here, rfl⟩ := Decoding.has_iff.mp occurs
    unfold Decoding.tagAt?
    rw [here, Option.map_some, Option.filter_some, if_pos telling]

end Program

namespace Abi

/-- What an entry says of the function whose label has number `n`. -/
structure Describes (is : Decoding) (n : Nat) (f : Function) : Prop where
  /-- It refuses value just if the label is followed by a guard. -/
  refuses : f.payable = false ↔ is.has (n + 1) .callvalue ∧ is.has (n + 2) .dup1 ∧ is.has (n + 3) .iszero
  payable : f.mutability = .payable ↔ f.payable
  nonpayable : f.mutability = .nonpayable ↔ f.payable = false ∧ is.Reaches n .sstore
  view : f.mutability = .view ↔ f.payable = false ∧ ¬is.Reaches n .sstore
  returns : f.outputs?.isSome ↔ f.mutability = .view ∨ is.Reaches n .return_
  reads : f.inputs?.isSome ↔
    is.Reaches n .calldataload ∨ is.Reaches n .calldatasize ∨ is.Reaches n .calldatacopy
  general : ∀ parameters, f.inputs? = some parameters ∨ f.outputs? = some parameters → parameters = [.generic]

variable {payable : Bool} {tags : NumberSet}

theorem mutabilityOf_eq_payable_iff : mutabilityOf payable tags = .payable ↔ payable := by
  unfold mutabilityOf
  cases payable <;> cases tags.contains Opcode.sstore.byte.toNat <;> decide

theorem mutabilityOf_eq_nonpayable_iff :
    mutabilityOf payable tags = .nonpayable ↔ payable = false ∧ tags.contains Opcode.sstore.byte.toNat := by
  unfold mutabilityOf
  cases payable <;> cases tags.contains Opcode.sstore.byte.toNat <;> decide

theorem mutabilityOf_eq_view_iff :
    mutabilityOf payable tags = .view ↔ payable = false ∧ ¬tags.contains Opcode.sstore.byte.toNat := by
  unfold mutabilityOf
  cases payable <;> cases tags.contains Opcode.sstore.byte.toNat <;> decide

/-- The entry that is made for a label describes it. -/
theorem describes_functionAt {region : Region} (label : (decode code).has n .jumpdest)
    (found : (Program.scanned code).regionAt? (startOf code n) = some region) (selector : Text) :
    Describes (decode code) n (functionAt (Program.scanned code).index selector (startOf code n) region) := by
  have guarded : (Program.scanned code).index.isGuarded (startOf code n) = (decode code).isGuarded n := by
    rw [Program.Index.isGuarded_eq, Bool.eq_iff_iff]
    exact Program.contains_guards_iff label
  obtain ⟨own_region, member, own, _⟩ := Program.exists_region code n
  have entered := Program.regionAt?_label label member own
  obtain rfl : own_region = region := Option.some.inj (entered.symm.trans found)
  have within : ∀ op, Scan.tellingOpcodes.contains op → ((decode code).Reaches n op ↔
      ((Program.scanned code).index.reachableTags own_region).contains op.byte.toNat) := by
    intro op telling
    rw [List.contains_iff_mem]
    exact (Program.mem_reachableTags_iff_reaches member own telling).symm
  have stores := within .sstore (by decide)
  constructor
  case refuses =>
    rw [← Decoding.isGuarded_iff label, ← guarded]
    simp [functionAt]
  case payable => exact mutabilityOf_eq_payable_iff
  case nonpayable =>
    rw [stores]
    exact mutabilityOf_eq_nonpayable_iff
  case view =>
    rw [stores]
    exact mutabilityOf_eq_view_iff
  case returns =>
    rw [within .return_ (by decide)]
    simp [functionAt, or_comm]
  case reads =>
    rw [within .calldataload (by decide), within .calldatasize (by decide), within .calldatacopy (by decide)]
    simp [functionAt, argumentReads]
  case general =>
    intro parameters present
    simp only [functionAt, Option.ite_none_right_eq_some, Option.some.injEq] at present
    rcases present with ⟨_, rfl⟩ | ⟨_, rfl⟩ <;> rfl

/-- The functions among the entries of a program. -/
def functionsOf (p : Program) : List Function :=
  p.selectors.filterMap fun (selector, target) =>
    (p.regionAt? target).map fun region => functionAt p.index selector target region

/-- The functions come first, then an event for every topic. -/
theorem ofProgram_eq (p : Program) : ofProgram p = (functionsOf p).map .function ++ p.topics.map .event := by
  unfold ofProgram functionsOf
  simp only [List.map_filterMap, Program.Index.regionAt?_eq, Option.map_map]
  rfl

theorem map_selector_functionsOf (p : Program) :
    (functionsOf p).map Function.selector =
      OrderedMap.keys (p.selectors.filter fun entry => (p.regionAt? entry.2).isSome) := by
  unfold functionsOf OrderedMap.keys
  induction p.selectors with
  | nil => rfl
  | cons entry rest ih =>
    cases found : p.regionAt? entry.2 with
    | none => simpa [found] using ih
    | some region => simpa [found, functionAt] using ih

/-- There is an entry for each selector whose target is a label, in the order of the table, and it says what the
instructions say. -/
theorem ofCode_exact (code : Bytes) :
    ∃ (p : Program) (functions : List Function), Program.ofCode code = .ok p ∧ selectorsOf code = .ok p.selectors.keys ∧
      ofCode code = .ok (functions.map .function ++ p.topics.map .event) ∧
      functions.map Function.selector =
        OrderedMap.keys (p.selectors.filter fun entry => (decode code).hasLabelAt entry.2) ∧
      ∀ f ∈ functions, ∃ n label, (decode code)[n]? = some label ∧ label.opcode = .jumpdest ∧
        p.selectors.get? f.selector = some label.offset ∧ Describes (decode code) n f := by
  refine ⟨Program.scanned code, functionsOf (Program.scanned code), AbiRecovery.ofCode_eq code, selectorsOf_eq code,
    ?_, ?_, ?_⟩
  · rw [← ofProgram_eq]
    exact ofCode_eq code
  · rw [map_selector_functionsOf]
    refine congrArg _ (List.filter_congr fun entry _ => ?_)
    rw [Bool.eq_iff_iff]
    exact Program.isSome_regionAt?_iff
  · intro f made
    obtain ⟨⟨selector, target⟩, recorded, entered⟩ := List.mem_filterMap.mp made
    obtain ⟨region, found, rfl⟩ := Option.map_eq_some_iff.mp entered
    obtain ⟨n, is_label, rfl, _⟩ := Program.exists_label_of_regionAt? found
    obtain ⟨label, here, opcode⟩ := Decoding.has_iff.mp is_label
    refine ⟨n, label, here, opcode, ?_, describes_functionAt is_label found selector⟩
    rw [offset_eq_startOf here]
    exact OrderedMap.get?_of_mem (Scan.nodup_keys_selectors _ _) recorded

end Abi

end AbiRecovery
