import AbiRecovery.Text.Basic

/-!
# Splitting at a separator

A text falls into one part more than it holds separators; parts may be empty.
-/
namespace AbiRecovery.Text

def splitAt (separator : Char) : Text → List Text
  | [] => [[]]
  | c :: rest =>
    if c = .char separator then [] :: splitAt separator rest
    else match splitAt separator rest with
      | [] => [[c]]
      | part :: parts => (c :: part) :: parts

/-- The parts with a separator between every two of them. -/
def joinWith (separator : Char) : List Text → Text
  | [] => []
  | [part] => part
  | part :: parts => part ++ .char separator :: joinWith separator parts

/-- A text without separator is one part. -/
theorem splitAt_of_not_mem {separator : Char} {part : Text} (absent : .char separator ∉ part) :
    splitAt separator part = [part] := by
  induction part with
  | nil => rfl
  | cons c rest ih =>
    have other : c ≠ .char separator := fun same => absent (List.mem_cons.mpr (Or.inl same.symm))
    rw [splitAt, if_neg other, ih (fun later => absent (List.mem_cons_of_mem _ later))]

/-- The first part ends at the first separator. -/
theorem splitAt_append {separator : Char} {part : Text} (absent : .char separator ∉ part) (rest : Text) :
    splitAt separator (part ++ .char separator :: rest) = part :: splitAt separator rest := by
  induction part with
  | nil => rw [List.nil_append, splitAt, if_pos rfl]
  | cons c part ih =>
    have other : c ≠ .char separator := fun same => absent (List.mem_cons.mpr (Or.inl same.symm))
    rw [List.cons_append, splitAt, if_neg other, ih (fun later => absent (List.mem_cons_of_mem _ later))]

/-- Parts without separator are found again after joining. -/
theorem splitAt_joinWith {separator : Char} {parts : List Text} (some_part : parts ≠ [])
    (absent : ∀ part ∈ parts, .char separator ∉ part) : splitAt separator (joinWith separator parts) = parts := by
  induction parts with
  | nil => exact absurd rfl some_part
  | cons part rest ih =>
    have first := absent part List.mem_cons_self
    cases rest with
    | nil => rw [joinWith, splitAt_of_not_mem first]
    | cons next later =>
      have others := ih (List.cons_ne_nil _ _) fun part member => absent part (List.mem_cons_of_mem _ member)
      rw [joinWith, splitAt_append first, others]
      exact List.cons_ne_nil _ _

end AbiRecovery.Text
