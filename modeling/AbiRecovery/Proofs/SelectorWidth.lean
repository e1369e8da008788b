import AbiRecovery.Proofs.ControlFlow
import AbiRecovery.Proofs.DispatchTable
import AbiRecovery.Proofs.HexText

/-!
# How selectors are written

A comparison is recorded under the digits of its constant, filled up with zeros to four bytes. A constant of
more bytes keeps them all, so its text is longer than a selector's (`isMarkedHex_four_iff`), and zeros in front
of it count: two comparisons share a text if their constants are one number in one width (`selectorText_eq_iff`).
-/
namespace AbiRecovery

/-- Whether a text is an `0x` with two lower-case digits for each of some bytes. -/
def Text.IsMarkedHex (width : Nat) (t : Text) : Prop :=
  ∃ digits : List Char, t = Text.ofChars ('0' :: 'x' :: digits) ∧ digits.length = 2 * width ∧
    ∀ c ∈ digits, c ∈ "0123456789abcdef".toList

namespace Bytes

theorem toNat_concat (bytes : Bytes) (byte : UInt8) : Bytes.toNat (bytes ++ [byte]) = 256 * bytes.toNat + byte.toNat := by
  unfold Bytes.toNat
  rw [List.foldl_append]
  rfl

/-- Zeros in front do not count. -/
theorem toNat_padLeft (length : Int) (bytes : Bytes) : (bytes.padLeft length).toNat = bytes.toNat := by
  unfold padLeft
  induction (length - bytes.length).toNat with
  | zero => rfl
  | succ missing ih =>
    rw [List.replicate_succ, List.cons_append, ← ih]
    rfl

theorem length_padLeft (length : Nat) (bytes : Bytes) : (bytes.padLeft length).length = max length bytes.length := by
  unfold padLeft
  rw [List.length_append, List.length_replicate]
  omega

/-- Among bytes of one length each number is written in one way. -/
theorem eq_of_toNat_eq {a b : Bytes} (length : a.length = b.length) (number : a.toNat = b.toNat) : a = b := by
  induction a using List.reverseRecOn generalizing b with
  | nil => exact (List.length_eq_zero_iff.mp length.symm).symm
  | append_singleton a x ih =>
    rcases List.eq_nil_or_concat b with rfl | ⟨b, y, rfl⟩
    · simp at length
    · rw [List.concat_eq_append] at length number ⊢
      rw [toNat_concat, toNat_concat] at number
      have small := x.toNat_lt
      have small' := y.toNat_lt
      have same : x = y := UInt8.toNat_inj.mp (by omega)
      rw [List.length_append, List.length_append] at length
      rw [ih (Nat.add_right_cancel length) (by omega), same]

end Bytes

namespace Hex

theorem isMarkedHex_encodeMarked (bytes : Bytes) : Text.IsMarkedHex bytes.length (encodeMarked bytes) := by
  refine ⟨digits bytes, rfl, length_digits bytes, ?_⟩
  intro c member
  have lower : ∀ d < 16, Text.hexDigit d ∈ "0123456789abcdef".toList := by decide
  obtain ⟨d, small, rfl⟩ := exists_hexDigit_of_mem_digits member
  exact lower d small

end Hex

namespace Scan

/-- A constant is written with all its bytes, and with at least four. -/
theorem isMarkedHex_selectorText (constant : Bytes) :
    Text.IsMarkedHex (max 4 constant.length) (selectorText constant) := by
  have written := Hex.isMarkedHex_encodeMarked (constant.padLeft selectorWidth)
  rwa [show selectorWidth = ((4 : Nat) : Int) from rfl, Bytes.length_padLeft] at written

/-- Two constants are written alike if they are the same number, and neither is longer than the other and than four bytes. -/
theorem selectorText_eq_iff {a b : Bytes} :
    selectorText a = selectorText b ↔ a.toNat = b.toNat ∧ max 4 a.length = max 4 b.length := by
  have width : ∀ c : Bytes, (c.padLeft selectorWidth).length = max 4 c.length := Bytes.length_padLeft 4
  constructor
  · intro same
    have padded := Hex.encodeMarked_injective same
    constructor
    · rw [← Bytes.toNat_padLeft selectorWidth a, padded, Bytes.toNat_padLeft]
    · rw [← width a, padded, width b]
  · rintro ⟨number, length⟩
    refine congrArg Hex.encodeMarked (Bytes.eq_of_toNat_eq ?_ ?_)
    · rw [width a, length, width b]
    · rw [Bytes.toNat_padLeft, number, Bytes.toNat_padLeft]

/-- Four bytes are what a selector has just if the constant has no more. -/
theorem isMarkedHex_four_iff {constant : Bytes} :
    Text.IsMarkedHex 4 (selectorText constant) ↔ constant.length ≤ 4 := by
  obtain ⟨digits, written, length, lower⟩ := isMarkedHex_selectorText constant
  constructor
  · rintro ⟨four, same, eight, _⟩
    rw [written] at same
    have whole := congrArg List.length same
    simp only [Text.ofChars, List.length_map, List.length_cons, length, eight] at whole
    omega
  · intro narrow
    refine ⟨digits, written, ?_, lower⟩
    rw [length, Nat.max_eq_left narrow]

end Scan

namespace OrderedMap

theorem mem_keys_ofList {κ ν : Type} [DecidableEq κ] {pairs : List (κ × ν)} {key : κ} :
    key ∈ (ofList pairs).keys ↔ ∃ value, (key, value) ∈ pairs := by
  induction pairs using List.reverseRecOn with
  | nil => simp [ofList, keys]
  | append_singleton pairs last ih =>
    obtain ⟨k, v⟩ := last
    have added : key ∈ ((ofList pairs).insert k v).keys ↔ key ∈ (ofList pairs).keys ∨ key = k := by
      rw [keys_insert]
      split
      next known => exact ⟨Or.inl, fun found => found.elim id fun same => same ▸ known⟩
      next => rw [List.mem_append, List.mem_singleton]
    rw [ofList_concat, added, ih]
    simp only [List.mem_append, List.mem_singleton, Prod.mk.injEq, exists_or, exists_and_left, exists_eq, and_true]

end OrderedMap

/-- Whether number `n` compares the selector with a constant, in a region that is read as part of the dispatch
table. -/
def Decoding.Compares (is : Decoding) (n : Nat) (constant : Bytes) : Prop :=
  n ∈ is.tableBelow is.length ∧ ∃ target, is.entryAt? n = some (constant, target)

theorem mem_keys_selectors_iff {code : Bytes} {key : Text} :
    key ∈ (Program.scanned code).selectors.keys ↔
      ∃ n constant, (decode code).Compares n constant ∧ Scan.selectorText constant = key := by
  have recorded : (Program.scanned code).selectors =
      OrderedMap.ofList (((decode code).tableBelow (decode code).length).filterMap (decode code).record?) :=
    (TableState.after code _ (Nat.le_refl _)).recorded
  rw [recorded, OrderedMap.mem_keys_ofList]
  constructor
  · rintro ⟨target, listed⟩
    obtain ⟨n, among, record⟩ := List.mem_filterMap.mp listed
    obtain ⟨⟨constant, target⟩, entry, same⟩ := Option.map_eq_some_iff.mp record
    exact ⟨n, constant, ⟨among, target, entry⟩, congrArg Prod.fst same⟩
  · rintro ⟨n, constant, ⟨among, target, entry⟩, rfl⟩
    refine ⟨target, List.mem_filterMap.mpr ⟨n, among, ?_⟩⟩
    unfold Decoding.record?
    rw [entry, Option.map_some]

/-- The selectors of code are its compared constants, each with two digits for every byte and for four at least.
A selector has the form of four bytes exactly if its constant has no more of them, and two comparisons are
recorded under one selector exactly if their constants are the same number in the same width, up to four bytes. -/
theorem selectors_by_width (code : Bytes) :
    ∃ p entries, Program.ofCode code = .ok p ∧ Abi.ofCode code = .ok entries ∧
      Abi.selectorsOf code = .ok p.selectors.keys ∧
      (∀ f, .function f ∈ entries → f.selector ∈ p.selectors.keys) ∧
      (∀ n constant, (decode code).Compares n constant → Scan.selectorText constant ∈ p.selectors.keys) ∧
      (∀ key ∈ p.selectors.keys, ∃ n constant, (decode code).Compares n constant ∧
        key = Scan.selectorText constant ∧ key.IsMarkedHex (max 4 constant.length) ∧
        (key.IsMarkedHex 4 ↔ constant.length ≤ 4)) ∧
      ∀ n m a b, (decode code).Compares n a → (decode code).Compares m b →
        (Scan.selectorText a = Scan.selectorText b ↔ a.toNat = b.toNat ∧ max 4 a.length = max 4 b.length) := by
  refine ⟨_, _, ofCode_eq code, Abi.ofCode_eq code, Abi.selectorsOf_eq code, ?_, ?_, ?_,
    fun _ _ _ _ _ _ => Scan.selectorText_eq_iff⟩
  · intro f listed
    obtain ⟨target, _, recorded, _⟩ := Abi.exists_of_function_mem listed
    exact List.mem_map_of_mem (f := Prod.fst) recorded
  · intro n constant compared
    exact mem_keys_selectors_iff.mpr ⟨n, constant, compared, rfl⟩
  · intro key listed
    obtain ⟨n, constant, compared, rfl⟩ := mem_keys_selectors_iff.mp listed
    exact ⟨n, constant, compared, rfl, Scan.isMarkedHex_selectorText constant, Scan.isMarkedHex_four_iff⟩

/-- Code that compares the selector with one number twice, in four bytes and in five. -/
def comparedInTwoWidths : Bytes :=
  [0x63, 0xaa, 0xbb, 0xcc, 0xdd, 0x14, 0x60, 0x00, 0x57, 0x64, 0x00, 0xaa, 0xbb, 0xcc, 0xdd, 0x14, 0x60, 0x00, 0x57]

/-- A constant of five bytes makes a selector of its own, which is longer than a selector is. -/
theorem selectors_of_two_widths :
    (Abi.selectorsOf comparedInTwoWidths).toOption =
      some [Text.ofString "0xaabbccdd", Text.ofString "0x00aabbccdd"] ∧
    ¬ Text.IsMarkedHex 4 (Text.ofString "0x00aabbccdd") ∧
    Bytes.toNat [0xaa, 0xbb, 0xcc, 0xdd] = Bytes.toNat [0x00, 0xaa, 0xbb, 0xcc, 0xdd] := by
  refine ⟨by decide +kernel, ?_, by decide⟩
  exact fun narrow => absurd (Scan.isMarkedHex_four_iff.mp
    (show Text.IsMarkedHex 4 (Scan.selectorText [0x00, 0xaa, 0xbb, 0xcc, 0xdd]) from narrow)) (by decide)

end AbiRecovery
