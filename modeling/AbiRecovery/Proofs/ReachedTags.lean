import AbiRecovery.Proofs.Reachability
import Mathlib.Order.Bounds.Defs

/-!
# The tags within reach

The search collects the tags of the regions that jumps lead to and no others: what it collects comes from the
regions on its stack and from those behind them (`mem_collectTags`). With the closure of the visited regions
this makes the result exact for every program, whatever its jumps and labels are (`mem_reachableTags_iff`). The
regions within reach are the least set that holds the first one and all that jumps of its members lead into.
-/
namespace AbiRecovery

namespace Program

/-- A set of regions that no jump of the program leads out of. -/
def ClosedUnderJumps (p : Program) (regions : Set Region) : Prop :=
  ∀ r ∈ regions, ∀ target ∈ r.jumps.toList, ∀ next, p.regionAt? target = some next → next ∈ regions

variable {p : Program} {entry : Region} {tag : Nat}

theorem leads_of_mem_successors {r : Region} {m : p.Member} (successor : m ∈ p.index.successors r) :
    p.Leads r m.val := by
  obtain ⟨target, listed, found⟩ := mem_successors_iff.mp successor
  refine ⟨target, listed, ?_⟩
  rw [← Index.regionAt?_eq, Index.regionAt?, found]
  rfl

/-- What the search adds comes from a region on the stack, or from one that jumps lead to from there. -/
theorem mem_collectTags (visited : Std.HashSet Nat) (tags : NumberSet) (stack : List p.Member)
    (collected : tag ∈ p.index.collectTags visited tags stack) :
    tag ∈ tags ∨ ∃ m ∈ stack, ∃ r, Relation.ReflTransGen p.Leads m.val r ∧ tag ∈ r.tags := by
  fun_induction p.index.collectTags visited tags stack with
  | case1 visited tags => exact Or.inl collected
  | case2 visited tags m rest seen ih =>
    refine (ih collected).imp_right ?_
    rintro ⟨next, later, reached⟩
    exact ⟨next, List.mem_cons_of_mem _ later, reached⟩
  | case3 visited tags m rest fresh ih =>
    rcases ih collected with known | ⟨next, waiting, r, path, tagged⟩
    · rcases NumberSet.mem_union.mp known with before | own
      · exact Or.inl before
      · exact Or.inr ⟨m, List.mem_cons_self, m.val, .refl, own⟩
    · rcases List.mem_append.mp waiting with successor | later
      · exact Or.inr ⟨m, List.mem_cons_self, r, .head (leads_of_mem_successors successor) path, tagged⟩
      · exact Or.inr ⟨next, List.mem_cons_of_mem _ later, r, path, tagged⟩

/-- The search collects exactly the tags of the regions that jumps lead to. -/
theorem mem_reachableTags_iff (distinct : p.DistinctStarts) (member : entry ∈ p.regions) :
    tag ∈ p.reachableTags entry ↔ ∃ r, Relation.ReflTransGen p.Leads entry r ∧ tag ∈ r.tags := by
  constructor
  · intro collected
    rcases mem_collectTags _ _ _ collected with own | ⟨m, successor, r, path, tagged⟩
    · exact ⟨entry, .refl, own⟩
    · exact ⟨r, .head (leads_of_mem_successors successor) path, tagged⟩
  · rintro ⟨r, path, tagged⟩
    exact mem_reachableTags_of_leads distinct member path tag tagged

/-- The regions within reach are the least set with the first one that no jump leads out of. -/
theorem isLeast_reached (p : Program) (entry : Region) :
    IsLeast {regions | entry ∈ regions ∧ p.ClosedUnderJumps regions}
      {r | Relation.ReflTransGen p.Leads entry r} := by
  constructor
  · refine ⟨.refl, ?_⟩
    intro r reached target listed next found
    exact .tail reached ⟨target, listed, found⟩
  · rintro regions ⟨first, closed⟩ r reached
    induction reached with
    | refl => exact first
    | tail _ leads ih =>
      obtain ⟨target, listed, found⟩ := leads
      exact closed _ ih target listed _ found

/-- For any program whose regions have different starts, the tags found from a region are those of the least set of
regions that holds it and all that jumps of its members lead into, loops and dead ends included. -/
theorem reachableTags_exact (distinct : p.DistinctStarts) (member : entry ∈ p.regions) :
    ∃ reached, IsLeast {regions | entry ∈ regions ∧ p.ClosedUnderJumps regions} reached ∧
      ∀ tag, tag ∈ p.reachableTags entry ↔ ∃ r ∈ reached, tag ∈ r.tags :=
  ⟨_, isLeast_reached p entry, fun _ => mem_reachableTags_iff distinct member⟩

/-- A program in which jumps lead back, to themselves, to one region from several, and nowhere: label 50 belongs to no
region, and 999 is no label. -/
def looped : Program where
  regions := [⟨10, 0, some 19, [0x35], #[20, 30, 20]⟩, ⟨20, 4, some 29, [0x55], #[10, 40]⟩,
    ⟨30, 8, some 39, [0xF3], #[40, 50, 999]⟩, ⟨40, 9, some 59, [0xFD], #[40]⟩, ⟨60, 12, none, [0x54], #[10]⟩]
  labels := [(10, 10), (20, 20), (30, 30), (40, 40), (50, 55), (60, 60)]
  selectors := []
  guards := []
  topics := []

/-- From the first region the second one is reached, which stores; the last one, which loads, is not. -/
theorem reachableTags_exact_of_loops :
    looped.DistinctStarts ∧ ∃ entry ∈ looped.regions, entry.start = 10 ∧
      Opcode.sstore.byte.toNat ∈ looped.reachableTags entry ∧
      Opcode.sload.byte.toNat ∉ looped.reachableTags entry := by
  have distinct : looped.DistinctStarts := by unfold DistinctStarts; decide
  refine ⟨distinct, _, List.mem_cons_self, rfl, ?_⟩
  obtain ⟨reached, ⟨⟨first, closed⟩, least⟩, found⟩ := reachableTags_exact distinct (List.mem_cons_self)
  rw [found, found]
  constructor
  · refine ⟨⟨20, 4, some 29, [0x55], #[10, 40]⟩, ?_, by decide⟩
    exact closed _ first 20 (by decide) _ (by decide)
  · have passed : ∀ r ∈ looped.regions, r.start ≠ 60 → ∀ target ∈ r.jumps.toList,
        (looped.regionAt? target).all fun next => next.start ≠ 60 := by decide
    have within := least (a := {r | r ∈ looped.regions ∧ r.start ≠ 60}) (by
      refine ⟨⟨List.mem_cons_self, by decide⟩, ?_⟩
      rintro r ⟨member, early⟩ target listed next at_target
      have early' := passed r member early target listed
      rw [at_target] at early'
      exact ⟨mem_of_regionAt? at_target, by simpa using early'⟩)
    have silent : ∀ r ∈ looped.regions, r.start ≠ 60 → Opcode.sload.byte.toNat ∉ r.tags := by decide
    rintro ⟨r, reached, tagged⟩
    obtain ⟨member, early⟩ := within reached
    exact silent r member early tagged

end Program

end AbiRecovery
