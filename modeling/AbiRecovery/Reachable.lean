import AbiRecovery.Program.Index
import Std.Data.HashSet

/-!
# Reachable regions

Which telling opcodes occur in the regions that static jumps lead to from a given region. Jumps to an
offset that is no label lead nowhere. A region is visited once, so the search ends, and its cost is that
of reading every jump on the way once.
-/
namespace AbiRecovery

namespace Program

def unvisited (p : Program) (visited : Std.HashSet Nat) : List Region :=
  p.regions.filter fun r => !visited.contains r.start

/-- A visit to a region leaves fewer regions unvisited. -/
theorem unvisited_insert_lt {p : Program} {visited : Std.HashSet Nat} {r : Region} (member : r ∈ p.regions)
    (fresh : visited.contains r.start = false) :
    (p.unvisited (visited.insert r.start)).length < (p.unvisited visited).length := by
  have refined : p.unvisited (visited.insert r.start) =
      (p.unvisited visited).filter fun r' => !(r.start == r'.start) := by
    simp only [unvisited, List.filter_filter, Std.HashSet.contains_insert, Bool.not_or]
  rw [refined, List.length_filter_lt_length_iff_exists]
  exact ⟨r, List.mem_filter.mpr ⟨member, by simpa using fresh⟩, by simp⟩

namespace Index

variable {p : Program}

/-- The regions that the static jumps of a region lead to. -/
def successors (i : p.Index) (r : Region) : List p.Member := r.jumps.toList.filterMap i.memberAt?

/-- The tags of the regions on the stack and of all regions that can be reached from them without
passing a visited one, added to `tags`. -/
def collectTags (i : p.Index) (visited : Std.HashSet Nat) (tags : NumberSet) : List p.Member → NumberSet
  | [] => tags
  | r :: rest =>
    if _seen : visited.contains r.val.start then i.collectTags visited tags rest
    else i.collectTags (visited.insert r.val.start) (tags.union r.val.tags) (i.successors r.val ++ rest)
termination_by stack => ((p.unvisited visited).length, stack.length)
decreasing_by
  · exact Prod.Lex.right _ (Nat.lt_succ_self _)
  · exact Prod.Lex.left _ _ (unvisited_insert_lt r.property (by simpa using _seen))

/-- The tags of a region and of all regions that static jumps lead to from there. -/
def reachableTags (i : p.Index) (entry : Region) : NumberSet :=
  i.collectTags {entry.start} entry.tags (i.successors entry)

end Index

/-- The tags of a region and of all regions that static jumps of the program lead to from there. -/
def reachableTags (p : Program) (entry : Region) : NumberSet := p.index.reachableTags entry

end Program

end AbiRecovery
