import AbiRecovery.OrderedMap
import AbiRecovery.NumberSet
import AbiRecovery.Opcode.Basic
import AbiRecovery.Text.Basic

/-!
# What a scan finds in code

Code falls into regions, candidates for functions, each opened by a label after an instruction that
never falls through. A region keeps the telling opcodes that occur in it and the jump targets that its
instructions push. Labels, value guards, selectors and event topics are found beside them.
-/
namespace AbiRecovery

/-- A stretch of code that is entered by its first instruction only, as far as the scan can tell. -/
structure Region where
  /-- The offset of the first instruction. -/
  start : Nat
  /-- The number of the first instruction. -/
  step : Nat
  /-- The offset before the next region; none for the last region. -/
  last? : Option Nat
  /-- The telling opcodes that occur, by their numbers. -/
  tags : NumberSet
  /-- The targets of the jumps whose target is pushed right before them, in order. -/
  jumps : Array Nat
  deriving DecidableEq, Repr

namespace Region

/-- A region in which nothing has been seen yet. -/
def opened (start step : Nat) : Region := ⟨start, step, none, [], #[]⟩

def has (r : Region) (op : Opcode) : Bool := r.tags.contains op.byte.toNat

end Region

/-- The findings of a scan. -/
structure Program where
  /-- The regions in the order of the code. -/
  regions : List Region
  /-- Each label with the start of its region. -/
  labels : OrderedMap Nat Nat
  /-- Each selector that is compared, with the target of the jump that the comparison guards. -/
  selectors : OrderedMap Text Nat
  /-- Each label that is followed by a test for attached value, with the number of its instruction. -/
  guards : OrderedMap Nat Nat
  /-- The constants that are logged as topics, in the order of the code. -/
  topics : List Text
  deriving DecidableEq, Repr

namespace Program

def regionStarting? (p : Program) (start : Nat) : Option Region :=
  p.regions.find? fun r => r.start = start

def regionAt? (p : Program) (offset : Nat) : Option Region :=
  (p.labels.get? offset).bind p.regionStarting?

/-- The region of a label is a region of the program. -/
theorem mem_of_regionAt? {p : Program} {offset : Nat} {r : Region} (found : p.regionAt? offset = some r) :
    r ∈ p.regions := by
  obtain ⟨start, _, found⟩ := Option.bind_eq_some_iff.mp found
  exact List.mem_of_find?_eq_some found

end Program

end AbiRecovery
