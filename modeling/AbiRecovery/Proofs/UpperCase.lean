import AbiRecovery.Text.UpperCase

/-!
# Upper case is reached at once

No upper-case character has another upper-case form, so a text that is raised twice is as if it were raised once.
-/
namespace AbiRecovery.Text

namespace UpperRun

/-- Whether a number is that of a lower-case character of a run. -/
def has (run : UpperRun) (n : Nat) : Bool :=
  (run.first.ble n).and ((n.ble run.last).and (((n - run.first) % run.stride).beq 0))

theorem has_iff {run : UpperRun} {n : Nat} :
    run.has n ↔ run.first ≤ n ∧ n ≤ run.last ∧ (n - run.first) % run.stride = 0 := by
  simp only [has, Bool.and_eq_true, Nat.ble_eq, Nat.beq_eq]

/-- Whether no upper-case character of a run is a lower-case character of another one. -/
def isApart (run other : UpperRun) : Bool :=
  ((run.upper + (run.last - run.first)).blt other.first).or ((other.last.blt run.upper).or
    ((List.range (run.last - run.first + 1)).all fun i => i % run.stride ≠ 0 || !other.has (run.upper + i)))

theorem not_has_of_isApart {run other : UpperRun} (apart : run.isApart other) {n : Nat} (lower : run.has n) :
    ¬other.has (run.upper + (n - run.first)) := by
  rw [has_iff] at lower
  simp only [isApart, Bool.or_eq_true, Nat.blt_eq, List.all_eq_true, List.mem_range] at apart
  rcases apart with below | above | apart
  · rw [has_iff]
    omega
  · rw [has_iff]
    omega
  · have at_n := apart (n - run.first) (by omega)
    simpa [lower.2] using at_n

end UpperRun

/-- The lower-case letters of ASCII. -/
def asciiRun : UpperRun := ⟨'a'.toNat, 'z'.toNat, 1, 'A'.toNat⟩

/-- All characters with upper-case forms, as runs. -/
def lowerRuns : List UpperRun :=
  asciiRun :: (upperRuns.toList ++ upperExpansions.toList.map fun entry => ⟨entry.1, entry.1, 1, 0⟩)

/-- Whether the character with a number has an upper-case form. -/
def isRaised (n : Nat) : Bool := lowerRuns.any fun run => run.has n

theorem runs_apart :
    ((asciiRun :: upperRuns.toList).all fun run => lowerRuns.all fun other => run.isApart other) = true := by
  decide +kernel

theorem expansions_not_raised :
    (upperExpansions.toList.all fun entry => entry.2.all fun n => !isRaised n) = true := by
  decide +kernel

theorem not_has_of_not_isRaised {n : Nat} (fixed : isRaised n = false) (run : UpperRun) (known : run ∈ lowerRuns) :
    ¬run.has n := by
  simp only [isRaised, List.any_eq_false] at fixed
  exact fixed run known

/-- The upper-case characters of a run are raised no further. -/
theorem not_isRaised_of_has {run : UpperRun} (known : run ∈ asciiRun :: upperRuns.toList) {n : Nat}
    (lower : run.has n) : isRaised (run.upper + (n - run.first)) = false := by
  have apart := List.all_eq_true.mp (List.all_eq_true.mp runs_apart run known)
  simp only [isRaised, List.any_eq_false]
  exact fun other member => UpperRun.not_has_of_isApart (apart other member) lower

theorem has_asciiRun {c : Char} : asciiRun.has c.toNat ↔ c.val ≥ 'a'.val ∧ c.val ≤ 'z'.val := by
  rw [UpperRun.has_iff]
  show 97 ≤ c.val.toNat ∧ c.val.toNat ≤ 122 ∧ (c.val.toNat - 97) % 1 = 0 ↔ (97 : UInt32) ≤ c.val ∧ c.val ≤ (122 : UInt32)
  rw [UInt32.le_iff_toNat_le, UInt32.le_iff_toNat_le, Nat.mod_one]
  simp

/-- What is not raised stays as it is. -/
theorem upperChar_of_not_isRaised {c : Char} (fixed : isRaised c.toNat = false) : upperChar c = [c] := by
  unfold upperChar
  dsimp only
  split
  · have small : ¬asciiRun.has c.toNat := not_has_of_not_isRaised fixed _ List.mem_cons_self
    rw [has_asciiRun] at small
    have kept : c.toUpper = c := dif_neg small
    rw [kept]
  · have expansions : upperExpansions.find? (·.1 = c.toNat) = none := by
      rw [Array.find?_eq_none]
      intro entry member same
      refine not_has_of_not_isRaised fixed ⟨entry.1, entry.1, 1, 0⟩ ?_ ?_
      · exact List.mem_cons_of_mem _ (List.mem_append_right _ (List.mem_map.mpr ⟨entry, member.val, rfl⟩))
      · rw [UpperRun.has_iff]
        simp only [decide_eq_true_eq] at same
        simp [same]
    have runs : (upperRuns.find? fun run =>
        run.first ≤ c.toNat && c.toNat ≤ run.last && (c.toNat - run.first) % run.stride = 0) = none := by
      rw [Array.find?_eq_none]
      intro run member found
      refine not_has_of_not_isRaised fixed run ?_ ?_
      · exact List.mem_cons_of_mem _ (List.mem_append_left _ member.val)
      · rw [UpperRun.has_iff]
        simpa [and_assoc] using found
    rw [expansions, runs]

theorem not_isRaised_ofNat {n : Nat} (fixed : isRaised n = false) : isRaised (Char.ofNat n).toNat = false := by
  by_cases valid : n.isValidChar
  · have drawn : Char.ofNat n = Char.ofNatAux n valid := dif_pos valid
    have number : (Char.ofNatAux n valid).toNat = n := UInt32.toNat_ofNatLT ..
    rw [drawn, number]
    exact fixed
  · have blank : Char.ofNat n = '\x00' := dif_neg valid
    rw [blank]
    decide +kernel

theorem first_lowerRuns : (lowerRuns.tail.all fun run => Nat.ble 0x80 run.first) = true := by
  decide +kernel

/-- Of the characters of ASCII only the lower-case letters are raised. -/
theorem has_asciiRun_of_isRaised {n : Nat} (small : n < 0x80) (raised : isRaised n) : asciiRun.has n := by
  obtain ⟨run, member, lower⟩ := List.any_eq_true.mp raised
  rcases List.mem_cons.mp member with rfl | later
  · exact lower
  · have beyond := Nat.ble_eq.mp (List.all_eq_true.mp first_lowerRuns run later)
    have reached := (UpperRun.has_iff.mp lower).1
    omega

theorem not_isRaised_toUpper {c : Char} (small : c.toNat < 0x80) : isRaised c.toUpper.toNat = false := by
  by_cases letter : asciiRun.has c.toNat
  · have upper := not_isRaised_of_has List.mem_cons_self letter
    have bounds := UpperRun.has_iff.mp letter
    have number : c.toUpper.toNat = asciiRun.upper + (c.toNat - asciiRun.first) := by
      have moved : c.toUpper = ⟨c.val + ('A'.val - 'a'.val), _⟩ := dif_pos (has_asciiRun.mp letter)
      rw [moved]
      -- The step from `a` to `A` leads downwards, so it is a step around the end of the numbers.
      show (c.val + 4294967264).toNat = 65 + (c.val.toNat - 97)
      have low : 97 ≤ c.val.toNat := bounds.1
      have high : c.val.toNat ≤ 122 := bounds.2.1
      rw [UInt32.toNat_add]
      show (c.val.toNat + 4294967264) % 4294967296 = _
      omega
    rw [number]
    exact upper
  · have unraised : isRaised c.toNat = false :=
      Bool.eq_false_iff.mpr fun raised => letter (has_asciiRun_of_isRaised small raised)
    rw [has_asciiRun] at letter
    have kept : c.toUpper = c := dif_neg letter
    rw [kept]
    exact unraised

/-- Upper-case forms are not raised. -/
theorem not_isRaised_of_mem_upperChar {c d : Char} (form : d ∈ upperChar c) : isRaised d.toNat = false := by
  cases raised : isRaised c.toNat with
  | false =>
    rw [upperChar_of_not_isRaised raised] at form
    rw [List.mem_singleton.mp form]
    exact raised
  | true =>
    unfold upperChar at form
    dsimp only at form
    split at form
    next small =>
      rw [List.mem_singleton.mp form]
      exact not_isRaised_toUpper small
    next large =>
      split at form
      next entry expansion found =>
        obtain ⟨n, member, rfl⟩ := List.mem_map.mp form
        have all := List.all_eq_true.mp expansions_not_raised _ (Array.mem_of_find?_eq_some found).val
        have fixed := List.all_eq_true.mp all n member
        exact not_isRaised_ofNat (by simpa using fixed)
      next unexpanded =>
        split at form
        next run found =>
          rw [List.mem_singleton.mp form]
          have known := List.mem_cons_of_mem asciiRun (Array.mem_of_find?_eq_some found).val
          refine not_isRaised_ofNat (not_isRaised_of_has known ?_)
          rw [UpperRun.has_iff]
          simpa [and_assoc] using Array.find?_some found
        next unraised =>
          rw [Array.find?_eq_none] at unexpanded unraised
          obtain ⟨run, member, lower⟩ := List.any_eq_true.mp raised
          rw [UpperRun.has_iff] at lower
          rcases List.mem_cons.mp member with rfl | member
          · have last : c.toNat ≤ 122 := lower.2.1
            omega
          · rcases List.mem_append.mp member with listed | listed
            · exact absurd (by simpa [and_assoc] using lower) (unraised run ⟨listed⟩)
            · obtain ⟨entry, known, rfl⟩ := List.mem_map.mp listed
              exact absurd (by simpa using Nat.le_antisymm lower.1 lower.2.1) (unexpanded entry ⟨known⟩)

theorem upper_append (front back : Text) : upper (front ++ back) = upper front ++ upper back := List.flatMap_append

theorem upper_ofChars {cs : List Char} (fixed : ∀ c ∈ cs, isRaised c.toNat = false) : upper (ofChars cs) = ofChars cs := by
  induction cs with
  | nil => rfl
  | cons c cs ih =>
    have first : upper [.char c] = [.char c] := by
      show ofChars (upperChar c) ++ [] = _
      rw [upperChar_of_not_isRaised (fixed c List.mem_cons_self)]
      rfl
    have rest := ih fun d member => fixed d (List.mem_cons_of_mem c member)
    show upper ([.char c] ++ ofChars cs) = [.char c] ++ ofChars cs
    rw [upper_append, first, rest]

/-- Raising a text twice is raising it once. -/
theorem upper_upper (t : Text) : upper (upper t) = upper t := by
  induction t with
  | nil => rfl
  | cons symbol t ih =>
    have first : upper (upperSymbol symbol) = upperSymbol symbol := by
      cases symbol with
      | half place => rfl
      | char c => exact upper_ofChars fun _ => not_isRaised_of_mem_upperChar
    show upper (upperSymbol symbol ++ upper t) = upperSymbol symbol ++ upper t
    rw [upper_append, first, ih]

end AbiRecovery.Text
