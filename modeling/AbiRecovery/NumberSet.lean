/-!
# Sets of numbers

A finite set of natural numbers as the ascending list of its elements, so that equal sets are equal
lists and the elements come in order.
-/
namespace AbiRecovery

/-- A finite set of natural numbers, in ascending order. -/
abbrev NumberSet : Type := List Nat

namespace NumberSet

def insert : NumberSet → Nat → NumberSet
  | [], n => [n]
  | m :: rest, n =>
    if n < m then n :: m :: rest
    else if n = m then m :: rest
    else m :: insert rest n

def union (a b : NumberSet) : NumberSet := b.foldl insert a

def ofList (ns : List Nat) : NumberSet := union [] ns

/-- Membership after an insertion. -/
theorem mem_insert {s : NumberSet} {n k : Nat} : k ∈ s.insert n ↔ k = n ∨ k ∈ s := by
  induction s with
  | nil => simp [insert]
  | cons m rest ih =>
    by_cases below : n < m
    · simp [insert, below]
    · by_cases same : n = m
      · simp [insert, same]
      · simp only [insert, below, same, if_false, List.mem_cons, ih]
        exact or_left_comm

/-- Membership in a union. -/
theorem mem_union {a b : NumberSet} {k : Nat} : k ∈ a.union b ↔ k ∈ a ∨ k ∈ b := by
  unfold union
  induction b generalizing a with
  | nil => simp
  | cons n rest ih =>
    rw [List.foldl_cons, ih, mem_insert, List.mem_cons]
    exact ⟨fun h => by rcases h with (h | h) | h <;> simp [h],
      fun h => by rcases h with h | h | h <;> simp [h]⟩

end NumberSet

end AbiRecovery
