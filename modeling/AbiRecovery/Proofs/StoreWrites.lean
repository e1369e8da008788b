import AbiRecovery.Proofs.StoreTable

/-!
# Writes one after another

What is found after several writes is the last one under each key. Where all writes under a key are the same, their
order and their repetition do not count; and writing the same rows once more in the same order changes nothing.
-/
namespace AbiRecovery.Store.Table

/-- Writes rows one after another. -/
def putAll (t : Table) (writes : Table) : Table := writes.foldl (fun t row => t.put row.1 row.2) t

theorem putAll_cons (t : Table) (row : Text × Value) (writes : Table) :
    t.putAll (row :: writes) = (t.put row.1 row.2).putAll writes := rfl

theorem putAll_append (t front back : Table) : t.putAll (front ++ back) = (t.putAll front).putAll back :=
  List.foldl_append

/-- No two of the rows have one key and different values. -/
def Consistent (writes : Table) : Prop := ∀ key value value', (key, value) ∈ writes → (key, value') ∈ writes → value = value'

theorem find?_putAll_of_not_mem {writes : Table} {key : Text} (other : ∀ value, (key, value) ∉ writes) (t : Table) :
    (t.putAll writes).find? key = t.find? key := by
  induction writes generalizing t with
  | nil => rfl
  | cons row writes ih =>
    obtain ⟨k, value⟩ := row
    have different : k ≠ key := by
      rintro rfl
      exact other value List.mem_cons_self
    rw [putAll_cons, ih fun value member => other value (List.mem_cons_of_mem _ member), find?_put, if_neg different]

theorem find?_putAll_of_mem {writes : Table} (consistent : writes.Consistent) {key : Text} {value : Value}
    (member : (key, value) ∈ writes) (t : Table) : (t.putAll writes).find? key = some value := by
  induction writes generalizing t with
  | nil => cases member
  | cons row writes ih =>
    obtain ⟨k, v⟩ := row
    rw [putAll_cons]
    by_cases later : ∃ v', (key, v') ∈ writes
    · obtain ⟨v', later⟩ := later
      have same : value = v' := consistent key value v' member (List.mem_cons_of_mem _ later)
      subst same
      refine ih (fun key value value' one other => ?_) later _
      exact consistent key value value' (List.mem_cons_of_mem _ one) (List.mem_cons_of_mem _ other)
    · have last : (key, value) = (k, v) := by
        rcases List.mem_cons.mp member with first | rest
        · exact first
        · exact absurd ⟨value, rest⟩ later
      cases last
      rw [find?_putAll_of_not_mem (fun v' rest => later ⟨v', rest⟩), find?_put, if_pos rfl]

/-- What is found after writes that are consistent depends on which rows they are, and not on their order. -/
theorem find?_putAll_eq {writes writes' : Table} (consistent : writes.Consistent) (same : ∀ row, row ∈ writes ↔ row ∈ writes')
    (t : Table) (key : Text) : (t.putAll writes').find? key = (t.putAll writes).find? key := by
  have consistent' : writes'.Consistent := fun key value value' one other =>
    consistent key value value' ((same _).mpr one) ((same _).mpr other)
  by_cases written : ∃ value, (key, value) ∈ writes
  · obtain ⟨value, member⟩ := written
    rw [find?_putAll_of_mem consistent member, find?_putAll_of_mem consistent' ((same _).mp member)]
  · have other (value : Value) : (key, value) ∉ writes := fun member => written ⟨value, member⟩
    rw [find?_putAll_of_not_mem other, find?_putAll_of_not_mem fun value member => other value ((same _).mpr member)]

/-- The rows whose keys are not written. -/
def without (t : Table) (writes : Table) : Table := t.filter fun row => writes.all fun write => write.1 ≠ row.1

theorem without_append (front back writes : Table) :
    (front ++ back).without writes = front.without writes ++ back.without writes := List.filter_append ..

/-- The rows that are written come last, in an order that does not depend on the rows before. -/
theorem putAll_eq (t writes : Table) : t.putAll writes = t.without writes ++ putAll [] writes := by
  induction writes generalizing t with
  | nil =>
    have all : t.without [] = t := List.filter_eq_self.mpr fun _ _ => rfl
    rw [all]
    exact (List.append_nil t).symm
  | cons row writes ih =>
    have before : without (t.filter fun other => other.1 ≠ row.1) writes = t.without (row :: writes) := by
      unfold without
      rw [List.filter_filter]
      refine List.filter_congr fun other _ => ?_
      rw [List.all_cons, Bool.and_comm]
      simp only [ne_comm]
    have split : (t.put row.1 row.2).without writes = t.without (row :: writes) ++ (put [] row.1 row.2).without writes := by
      unfold put
      rw [without_append, before]
      rfl
    rw [putAll_cons, putAll_cons, ih, ih (put [] row.1 row.2), split, List.append_assoc]

theorem mem_of_mem_putAll {writes : Table} {row : Text × Value} {t : Table} (member : row ∈ t.putAll writes) :
    row ∈ t ∨ row ∈ writes := by
  induction writes generalizing t with
  | nil => exact .inl member
  | cons first writes ih =>
    rcases ih member with put | later
    · rcases mem_put.mp put with ⟨old, -⟩ | new
      · exact .inl old
      · exact .inr (new ▸ List.mem_cons_self)
    · exact .inr (List.mem_cons_of_mem _ later)

/-- Writing the same rows once more changes nothing. -/
theorem putAll_putAll (t writes : Table) : (t.putAll writes).putAll writes = t.putAll writes := by
  have first : (t.without writes).without writes = t.without writes := by
    unfold without
    rw [List.filter_filter]
    simp only [Bool.and_self]
  have written : (putAll [] writes).without writes = [] := by
    refine List.filter_eq_nil_iff.mpr fun row member all => ?_
    have known : row ∈ writes := (mem_of_mem_putAll member).resolve_left nofun
    have other := List.all_eq_true.mp all row known
    simp at other
  rw [putAll_eq t, putAll_eq, without_append, first, written, List.append_nil]

end AbiRecovery.Store.Table
