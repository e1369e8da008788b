import AbiRecovery.Reachable
import Mathlib.Logic.Relation

/-!
# The search for tags is closed

`Leads` is the relation of one static jump between regions. While the search runs, the jumps of every
visited region lead to visited regions or to regions on the stack (`Searched`). At its end the stack is
empty, so the visited regions are closed under jumps, and the tags of all of them have been collected:
nothing that static jumps lead to is missed, loops and shared targets included.
-/
namespace AbiRecovery

namespace Program

/-- A static jump of one region leads into another. -/
def Leads (p : Program) (r r' : Region) : Prop := ∃ target ∈ r.jumps.toList, p.regionAt? target = some r'

/-- No two regions start at the same offset. -/
def DistinctStarts (p : Program) : Prop := ∀ r ∈ p.regions, ∀ r' ∈ p.regions, r.start = r'.start → r = r'

variable {p : Program}

theorem mem_successors_iff {r : Region} {m : p.Member} :
    m ∈ p.index.successors r ↔ ∃ target ∈ r.jumps.toList, p.index.memberAt? target = some m := by
  unfold Index.successors
  rw [List.mem_filterMap]

theorem exists_successor_of_leads {r r' : Region} (leads : p.Leads r r') :
    ∃ m ∈ p.index.successors r, m.val = r' := by
  obtain ⟨target, listed, found⟩ := leads
  rw [← Index.regionAt?_eq] at found
  obtain ⟨m, at_target, rfl⟩ := Option.map_eq_some_iff.mp found
  exact ⟨m, mem_successors_iff.mpr ⟨target, listed, at_target⟩, rfl⟩

/-- The tags of the visited regions are collected, and what their jumps lead to is visited or waits on
the stack. -/
structure Searched (p : Program) (visited : Std.HashSet Nat) (tags : NumberSet) (stack : List p.Member) :
    Prop where
  collected : ∀ r ∈ p.regions, visited.contains r.start → ∀ tag ∈ r.tags, tag ∈ tags
  followed : ∀ r ∈ p.regions, visited.contains r.start → ∀ m ∈ p.index.successors r,
    visited.contains m.val.start ∨ m ∈ stack

/-- A region that has been visited before is passed over. -/
theorem Searched.pop {visited : Std.HashSet Nat} {tags : NumberSet} {m : p.Member} {rest : List p.Member}
    (searched : p.Searched visited tags (m :: rest)) (seen : visited.contains m.val.start) :
    p.Searched visited tags rest := by
  refine ⟨searched.collected, ?_⟩
  intro r member known next successor
  rcases searched.followed r member known next successor with done | waiting
  · exact Or.inl done
  · rcases List.mem_cons.mp waiting with rfl | later
    · exact Or.inl seen
    · exact Or.inr later

/-- A fresh region is visited, and what its jumps lead to is put on the stack. -/
theorem Searched.visit (distinct : p.DistinctStarts) {visited : Std.HashSet Nat} {tags : NumberSet}
    {m : p.Member} {rest : List p.Member} (searched : p.Searched visited tags (m :: rest)) :
    p.Searched (visited.insert m.val.start) (tags.union m.val.tags) (p.index.successors m.val ++ rest) := by
  constructor
  case collected =>
    intro r member known tag tagged
    rw [Std.HashSet.contains_insert, Bool.or_eq_true, beq_iff_eq] at known
    rcases known with here | before
    · obtain rfl := distinct _ m.property r member here
      exact NumberSet.mem_union.mpr (Or.inr tagged)
    · exact NumberSet.mem_union.mpr (Or.inl (searched.collected r member before tag tagged))
  case followed =>
    intro r member known next successor
    rw [Std.HashSet.contains_insert, Bool.or_eq_true, beq_iff_eq] at known ⊢
    rcases known with here | before
    · obtain rfl := distinct _ m.property r member here
      exact Or.inr (List.mem_append_left _ successor)
    · rcases searched.followed r member before next successor with done | waiting
      · exact Or.inl (Or.inr done)
      · rcases List.mem_cons.mp waiting with rfl | later
        · exact Or.inl (Or.inl rfl)
        · exact Or.inr (List.mem_append_right _ later)

/-- The search ends with a set of starts that holds those visited and those on the stack, is closed under
jumps, and has had all its tags collected. -/
theorem exists_closed_of_searched (distinct : p.DistinctStarts) (visited : Std.HashSet Nat)
    (tags : NumberSet) (stack : List p.Member) (searched : p.Searched visited tags stack) :
    ∃ reached : Std.HashSet Nat,
      (∀ start, visited.contains start → reached.contains start) ∧
      (∀ m ∈ stack, reached.contains m.val.start) ∧
      p.Searched reached (p.index.collectTags visited tags stack) [] := by
  -- One case for each call of the search; the set only grows, so what is visited stays visited.
  fun_induction p.index.collectTags visited tags stack with
  | case1 visited tags => exact ⟨visited, fun _ known => known, by simp, searched⟩
  | case2 visited tags m rest seen ih =>
    obtain ⟨reached, kept, covered, closed⟩ := ih (searched.pop seen)
    refine ⟨reached, kept, ?_, closed⟩
    intro next waiting
    rcases List.mem_cons.mp waiting with rfl | later
    · exact kept _ seen
    · exact covered next later
  | case3 visited tags m rest fresh ih =>
    obtain ⟨reached, kept, covered, closed⟩ := ih (searched.visit distinct)
    have grown : ∀ start, visited.contains start ∨ start = m.val.start → reached.contains start := by
      intro start known
      apply kept
      rw [Std.HashSet.contains_insert, Bool.or_eq_true, beq_iff_eq]
      exact known.symm.imp_left Eq.symm
    refine ⟨reached, fun start known => grown start (Or.inl known), ?_, closed⟩
    intro next waiting
    rcases List.mem_cons.mp waiting with rfl | later
    · exact grown _ (Or.inr rfl)
    · exact covered next (List.mem_append_right _ later)

/-- The tags of every region that static jumps lead to are collected. -/
theorem mem_reachableTags_of_leads (distinct : p.DistinctStarts) {entry r : Region}
    (member : entry ∈ p.regions) (path : Relation.ReflTransGen p.Leads entry r) :
    ∀ tag ∈ r.tags, tag ∈ p.reachableTags entry := by
  have begun : p.Searched {entry.start} entry.tags (p.index.successors entry) := by
    have only : ∀ r ∈ p.regions, ({entry.start} : Std.HashSet Nat).contains r.start → entry = r := by
      intro r among known
      exact distinct entry member r among (by simpa using known)
    constructor
    case collected =>
      intro r among known tag tagged
      rw [only r among known]
      exact tagged
    case followed =>
      intro r among known next successor
      rw [only r among known]
      exact Or.inr successor
  obtain ⟨reached, kept, _, closed⟩ := exists_closed_of_searched distinct _ _ _ begun
  have arrives : r ∈ p.regions ∧ reached.contains r.start := by
    induction path with
    | refl => exact ⟨member, kept _ (by simp)⟩
    | tail _ leads ih =>
      obtain ⟨m, successor, rfl⟩ := exists_successor_of_leads leads
      rcases closed.followed _ ih.1 ih.2 m successor with done | waiting
      · exact ⟨m.property, done⟩
      · cases waiting
  exact closed.collected r arrives.1 arrives.2

end Program

end AbiRecovery
