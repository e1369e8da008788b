import AbiRecovery.Abi.Recovery
import AbiRecovery.Proofs.ScanState

/-!
# The entries of code

A scan of code never asks for more than its cursor remembers, so recovering always goes through. An entry of a function
comes from a selector, of which there is one with a text, and from the region of its label.
-/
namespace AbiRecovery

namespace Scan

/-- Selectors are recorded under distinct texts. -/
theorem nodup_keys_selectors (is : Decoding) (n : Nat) : (after is n).selectors.keys.Nodup := by
  induction n with
  | zero => exact List.nodup_nil
  | succ n ih =>
    cases here : is[n]? with
    | none =>
      rw [after, here]
      exact ih
    | some i =>
      rw [after_succ here]
      unfold next
      dsimp only
      split
      · exact OrderedMap.nodup_keys_insert ih _ _
      · exact ih

end Scan

namespace Abi

theorem exists_of_function_mem {p : Program} {f : Function} (listed : .function f ∈ ofProgram p) :
    ∃ target region, (f.selector, target) ∈ p.selectors ∧ p.regionAt? target = some region ∧
      f = functionAt p.index f.selector target region := by
  unfold ofProgram at listed
  rcases List.mem_append.mp listed with recovered | logged
  · obtain ⟨⟨selector, target⟩, recorded, found⟩ := List.mem_filterMap.mp recovered
    obtain ⟨region, at_target, made⟩ := Option.map_eq_some_iff.mp found
    rw [Program.Index.regionAt?_eq] at at_target
    have same : functionAt p.index selector target region = f := Entry.function.inj made
    subst same
    exact ⟨target, region, recorded, at_target, rfl⟩
  · obtain ⟨topic, _, event⟩ := List.mem_map.mp logged
    cases event

/-- The entries that are recovered from code. -/
def recovered (code : Bytes) : List Entry := ofProgram (Program.scanned code)

theorem ofCode_eq (code : Bytes) : ofCode code = .ok (recovered code) := by
  unfold ofCode
  rw [AbiRecovery.ofCode_eq]
  rfl

theorem selectorsOf_eq (code : Bytes) : selectorsOf code = .ok (Program.scanned code).selectors.keys := by
  unfold selectorsOf
  rw [AbiRecovery.ofCode_eq]
  rfl

end Abi

end AbiRecovery
