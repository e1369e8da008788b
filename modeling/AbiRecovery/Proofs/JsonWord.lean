import AbiRecovery.Proofs.JsonGrammar
import Mathlib.Algebra.Group.Nat.Defs
import Mathlib.Data.List.TakeDrop
import Mathlib.Data.List.TakeWhile

/-!
# Words of JSON texts

A word lies between blanks, quotes and punctuation. The three named values and the whole numbers that have no more digits
than are converted are words, and each is read as what it stands for.
-/
namespace AbiRecovery.Json

open Text

/-- Whether a character ends a word. -/
def endsWord (c : Char) : Bool := isTokenBlank c || c = '"' || (punctuation? c).isSome

/-! ## The digits of a number -/

theorem isDigit_of_mem_toDigits {m : Nat} {c : Char} (member : c ∈ Nat.toDigits 10 m) : c.isDigit :=
  Nat.isDigit_of_mem_toDigits (by decide) (by decide) member

theorem digitsValue_toDigits (m : Nat) : digitsValue (Nat.toDigits 10 m) = m := by
  unfold digitsValue ofDigits
  rw [List.foldl_map]
  exact Nat.ofDigitChars_toDigits (by decide) (by decide)

/-- Only zero begins with a zero. -/
theorem toDigits_ne_zero_cons {m : Nat} (positive : 0 < m) (cs : List Char) : Nat.toDigits 10 m ≠ '0' :: cs := by
  induction m using Nat.strongRecOn generalizing cs with
  | _ m ih =>
    by_cases single : m < 10
    · have small : ∀ m < 10, 0 < m → m.digitChar ≠ '0' := by decide
      rw [Nat.toDigits_of_lt_base single]
      exact fun same => small m single positive (List.cons.inj same).1
    · have shorter : 0 < m / 10 := by omega
      obtain ⟨first, others, front⟩ := List.exists_cons_of_ne_nil (Nat.toDigits_ne_nil (n := m / 10) (b := 10))
      rw [Nat.toDigits_of_base_le (by decide) (by omega), front, List.cons_append]
      intro same
      obtain rfl := (List.cons.inj same).1
      exact ih (m / 10) (by omega) shorter others front

/-- All digits of a number are taken. -/
theorem cutWhole_toDigits (m : Nat) : Numeral.cutWhole (Nat.toDigits 10 m) = (Nat.toDigits 10 m, []) := by
  have all : ∀ c ∈ Nat.toDigits 10 m, c.isDigit := fun c => isDigit_of_mem_toDigits
  unfold Numeral.cutWhole
  split
  next cs same =>
    obtain rfl : m = 0 := Nat.eq_zero_of_not_pos fun positive => toDigits_ne_zero_cons positive cs same
    obtain rfl : [] = cs := (List.cons.inj same).2
    rfl
  next =>
    rw [List.span_eq_takeWhile_dropWhile, List.takeWhile_eq_self_iff.mpr all, List.dropWhile_eq_nil_iff.mpr all]

/-- A number is cut off whole, with its sign. -/
theorem cut?_toDigits (m : Nat) :
    Numeral.cut? (Nat.toDigits 10 m) = some (⟨false, Nat.toDigits 10 m, [], none⟩, []) ∧
      Numeral.cut? ('-' :: Nat.toDigits 10 m) = some (⟨true, Nat.toDigits 10 m, [], none⟩, []) := by
  have nonempty : (Nat.toDigits 10 m).isEmpty = false := List.isEmpty_eq_false_iff.mpr Nat.toDigits_ne_nil
  constructor
  · obtain ⟨c, cs, same⟩ := List.exists_cons_of_ne_nil (Nat.toDigits_ne_nil (n := m) (b := 10))
    have digit : c.isDigit := isDigit_of_mem_toDigits (same ▸ List.mem_cons_self)
    have unsigned : c ≠ '-' := by
      rintro rfl
      cases digit
    have whole := cutWhole_toDigits m
    rw [same] at whole nonempty ⊢
    unfold Numeral.cut?
    simp [whole, Numeral.cutFraction, Numeral.cutPower, nonempty, unsigned]
  · unfold Numeral.cut?
    simp [cutWhole_toDigits, Numeral.cutFraction, Numeral.cutPower, nonempty]

/-- The digits of a number denote the number, unless they are too many. -/
theorem value_toDigits (m : Nat) (negative : Bool) :
    Numeral.value ⟨negative, Nat.toDigits 10 m, [], none⟩ =
      if maxIntegerDigits < (Nat.toDigits 10 m).length then .error ⟨(Nat.toDigits 10 m).length⟩
      else .ok (.int (if negative then -(m : Int) else m)) := by
  unfold Numeral.value
  rw [digitsValue_toDigits]
  rfl

/-- A number below a power of ten has as few digits. -/
theorem length_toDigits_le_iff {m width : Nat} : (Nat.toDigits 10 m).length ≤ width + 1 ↔ m < 10 ^ (width + 1) := by
  induction width generalizing m with
  | zero =>
    by_cases single : m < 10
    · exact iff_of_true (by simp [Nat.toDigits_of_lt_base single]) single
    · have positive : 0 < (Nat.toDigits 10 (m / 10)).length := List.length_pos_iff.mpr Nat.toDigits_ne_nil
      rw [Nat.toDigits_of_base_le (by decide) (by omega), List.length_append, List.length_singleton]
      exact iff_of_false (by omega) single
  | succ width ih =>
    by_cases single : m < 10
    · have small : m < 10 ^ (width + 1 + 1) := Nat.lt_of_lt_of_le single (Nat.le_self_pow (by omega) 10)
      exact iff_of_true (by simp [Nat.toDigits_of_lt_base single]) small
    · rw [Nat.toDigits_of_base_le (by decide) (by omega), List.length_append, List.length_singleton,
        Nat.add_le_add_iff_right, ih, Nat.div_lt_iff_lt_mul (by decide), ← Nat.pow_succ]

/-- A number that is not too long is written. -/
theorem isLong_eq_false_iff {n : Int} : isLong n = false ↔ IsShort n := by
  obtain ⟨width, known⟩ : ∃ width, maxIntegerDigits = width + 1 := ⟨4299, rfl⟩
  unfold isLong leastLong IsShort
  rw [known, length_toDigits_le_iff, decide_eq_false_iff_not, Nat.not_le]
  exact Iff.rfl

/-- The plain form of a number: its digits, behind a sign if it is below zero. -/
theorem toList_toString (n : Int) :
    (toString n).toList = if n < 0 then '-' :: Nat.toDigits 10 n.natAbs else Nat.toDigits 10 n.natAbs := by
  cases n with
  | ofNat m =>
    have same : (toString (Int.ofNat m)).toList = Nat.toDigits 10 m := Nat.toList_repr
    exact same.trans (if_neg (Int.not_lt.mpr (Int.natCast_nonneg m))).symm
  | negSucc m =>
    rw [if_pos (Int.negSucc_lt_zero m)]
    show ("-" ++ (m + 1).repr).toList = _
    rw [String.toList_append, Nat.toList_repr]
    rfl

theorem toList_toString_ne_nil (n : Int) : (toString n).toList ≠ [] := by
  rw [toList_toString]
  split
  · exact List.cons_ne_nil _ _
  · exact Nat.toDigits_ne_nil

theorem mem_toString {n : Int} {c : Char} (member : c ∈ (toString n).toList) : c = '-' ∨ c.isDigit := by
  rw [toList_toString] at member
  split at member
  · exact (List.mem_cons.mp member).imp_right isDigit_of_mem_toDigits
  · exact Or.inr (isDigit_of_mem_toDigits member)

/-- What holds of the sign and of the ten digits holds of every character of a number. -/
theorem forall_mem_toString {p : Char → Bool} (sign : p '-') (digits : ∀ m < 58, 48 ≤ m → p (Char.ofNat m)) (n : Int) :
    ∀ c ∈ (toString n).toList, p c := by
  intro c member
  rcases mem_toString member with rfl | digit
  · exact sign
  · obtain ⟨low, high⟩ : 48 ≤ c.toNat ∧ c.toNat ≤ 57 := by
      simpa [Char.isDigit, UInt32.le_iff_toNat_le] using digit
    have known := digits c.toNat (Nat.lt_succ_of_le high) low
    rwa [Char.ofNat_toNat] at known

/-! ## Words as tokens -/

/-- The words that are no numbers. -/
def namedWords : List String := ["null", "true", "false", "NaN", "Infinity", "-Infinity"]

/-- No character of a name ends a word. -/
theorem endsWord_of_mem_name {name : String} (known : name ∈ namedWords) : ∀ c ∈ name.toList, endsWord c = false := by
  have inside : ∀ name ∈ namedWords, name.toList.all fun c => !endsWord c := by decide
  exact fun c member => Bool.not_eq_true' _ ▸ List.all_eq_true.mp (inside name known) c member

theorem wordToken_of_unnamed {cs : List Char} (unnamed : ∀ name ∈ namedWords, cs ≠ name.toList) :
    wordToken cs = numberToken cs := by
  have other : ∀ name ∈ namedWords, String.ofList cs ≠ name := by
    rintro name known rfl
    exact unnamed _ known String.toList_ofList.symm
  simp only [namedWords, List.forall_mem_cons] at other
  obtain ⟨isNull, isTrue, isFalse, isNaN, isInfinity, isNegative, -⟩ := other
  unfold wordToken
  dsimp only
  rw [if_neg isNull, if_neg isTrue, if_neg isFalse, if_neg isNaN, if_neg isInfinity, if_neg isNegative]

/-- A word that begins with a digit, or with a sign and a digit, is none of the named words. -/
theorem unnamed_of_isDigit {c : Char} (digit : c.isDigit) (cs : List Char) :
    ∀ name ∈ namedWords, c :: cs ≠ name.toList ∧ '-' :: c :: cs ≠ name.toList := by
  have letters : ∀ name ∈ namedWords, name.toList.head?.all (fun c => !c.isDigit) ∧
      name.toList.tail.head?.all (fun c => !c.isDigit) := by decide
  intro name known
  obtain ⟨first, second⟩ := letters name known
  constructor
  · intro same
    simp [← same, digit] at first
  · intro same
    simp [← same, digit] at second

/-- A number in its plain form is the token of its digits. -/
theorem wordToken_toString_eq (n : Int) :
    wordToken (toString n).toList =
      match Numeral.value ⟨decide (n < 0), Nat.toDigits 10 n.natAbs, [], none⟩ with
      | .error fault => .fault (.longInteger fault)
      | .ok value => .scalar value := by
  obtain ⟨c, cs, same⟩ := List.exists_cons_of_ne_nil (Nat.toDigits_ne_nil (n := n.natAbs) (b := 10))
  have digit : c.isDigit := isDigit_of_mem_toDigits (same ▸ List.mem_cons_self)
  have unnamed := unnamed_of_isDigit digit cs
  rw [← same] at unnamed
  rw [toList_toString]
  split
  next negative =>
    rw [wordToken_of_unnamed fun name known => (unnamed name known).2, decide_eq_true negative]
    unfold numberToken
    rw [(cut?_toDigits n.natAbs).2]
    rfl
  next other =>
    rw [wordToken_of_unnamed fun name known => (unnamed name known).1, decide_eq_false other]
    unfold numberToken
    rw [(cut?_toDigits n.natAbs).1]
    rfl

theorem wordToken_toString {n : Int} (short : IsShort n) : wordToken (toString n).toList = .scalar (.int n) := by
  have number : (if decide (n < 0) = true then -(n.natAbs : Int) else n.natAbs) = n := by
    simp only [decide_eq_true_eq]
    split <;> omega
  rw [wordToken_toString_eq, value_toDigits, if_neg (Nat.not_lt_of_le short), number]

/-- No character of a number ends a word. -/
theorem endsWord_of_mem_toString (n : Int) : ∀ c ∈ (toString n).toList, endsWord c = false := by
  have inside := forall_mem_toString (p := fun c => !endsWord c) (by decide) (by decide) n
  exact fun c member => Bool.not_eq_true' _ ▸ inside c member

end AbiRecovery.Json
