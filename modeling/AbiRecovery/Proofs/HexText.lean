import AbiRecovery.Hex

/-!
# Hexadecimal text read back

Numerals and bytes that were written in hexadecimal are read back as they were. All that is written
consists of digits for values below sixteen, so no blank stands among them.
-/
namespace AbiRecovery

namespace Text

theorem hexValue?_hexDigit : ∀ n < 16, hexValue? (hexDigit n) = some n := by decide

theorem hexDigit_ne_blank : ∀ n < 16, hexDigit n ≠ ' ' := by decide

/-- The number that digits denote in base sixteen, most significant first. What is no digit counts as zero. -/
def hexNumber (digits : List Char) : Nat :=
  digits.foldl (fun number digit => 16 * number + (hexValue? digit).getD 0) 0

theorem hexNumber_concat (digits : List Char) {n : Nat} (small : n < 16) :
    hexNumber (digits ++ [hexDigit n]) = 16 * hexNumber digits + n := by
  unfold hexNumber
  rw [List.foldl_append, List.foldl_cons, List.foldl_nil, hexValue?_hexDigit n small, Option.getD_some]

theorem hexNumber_hexNumeral (n : Nat) : hexNumber (hexNumeral n) = n := by
  fun_induction hexNumeral n with
  | case1 n small =>
    have single := hexNumber_concat [] small
    rw [List.nil_append] at single
    rw [single]
    exact Nat.zero_add n
  | case2 n _ ih =>
    rw [hexNumber_concat _ (Nat.mod_lt n (by decide)), ih]
    omega

theorem hexNumber_padLeft (width : Nat) (digits : List Char) :
    hexNumber (padLeft width '0' digits) = hexNumber digits := by
  unfold padLeft
  generalize width - digits.length = missing
  induction missing with
  | zero => rfl
  | succ missing ih =>
    rw [List.replicate_succ, List.cons_append, ← ih]
    rfl

/-- A numeral denotes its number, however many zeros stand in front. -/
@[simp]
theorem hexNumber_paddedHex (width n : Nat) : hexNumber (paddedHex width n) = n := by
  rw [paddedHex, hexNumber_padLeft, hexNumber_hexNumeral]

theorem exists_hexDigit_of_mem_hexNumeral {n : Nat} {c : Char} (member : c ∈ hexNumeral n) :
    ∃ d < 16, c = hexDigit d := by
  fun_induction hexNumeral n with
  | case1 n small => exact ⟨n, small, List.mem_singleton.mp member⟩
  | case2 n _ ih =>
    rcases List.mem_append.mp member with before | last
    · exact ih before
    · exact ⟨n % 16, Nat.mod_lt n (by decide), List.mem_singleton.mp last⟩

theorem exists_hexDigit_of_mem_paddedHex {width n : Nat} {c : Char} (member : c ∈ paddedHex width n) :
    ∃ d < 16, c = hexDigit d := by
  unfold paddedHex padLeft at member
  rcases List.mem_append.mp member with zero | digit
  · exact ⟨0, by decide, List.eq_of_mem_replicate zero⟩
  · exact exists_hexDigit_of_mem_hexNumeral digit

theorem hexNumeral_ne_nil (n : Nat) : hexNumeral n ≠ [] := by
  unfold hexNumeral
  split <;> simp

theorem paddedHex_ne_nil (width n : Nat) : paddedHex width n ≠ [] := by
  unfold paddedHex padLeft
  exact List.append_ne_nil_of_right_ne_nil _ (hexNumeral_ne_nil n)

/-- A byte has two digits. -/
theorem paddedHex_two {n : Nat} (small : n < 256) : paddedHex 2 n = [hexDigit (n / 16), hexDigit (n % 16)] := by
  unfold paddedHex padLeft
  by_cases single : n < 16
  · rw [hexNumeral, if_pos single, Nat.div_eq_of_lt single, Nat.mod_eq_of_lt single]
    rfl
  · have first : hexNumeral (n / 16) = [hexDigit (n / 16)] := by
      rw [hexNumeral, if_pos (by omega)]
    rw [hexNumeral, if_neg single, first]
    rfl

end Text

namespace Hex

open Text

theorem byteOfDigits_hexDigit (byte : UInt8) :
    byteOfDigits (hexDigit (byte.toNat / 16)) (hexDigit (byte.toNat % 16)) = byte := by
  have bound := byte.toNat_lt
  unfold byteOfDigits
  rw [hexValue?_hexDigit _ (by omega), hexValue?_hexDigit _ (by omega), Option.getD_some, Option.getD_some,
    Nat.div_add_mod, UInt8.ofNat_toNat]

theorem digits_cons (byte : UInt8) (bytes : Bytes) :
    digits (byte :: bytes) = hexDigit (byte.toNat / 16) :: hexDigit (byte.toNat % 16) :: digits bytes := rfl

theorem bytesOfPairs_digits (bytes : Bytes) : bytesOfPairs (digits bytes) = bytes := by
  induction bytes with
  | nil => rfl
  | cons byte bytes ih => rw [digits_cons, bytesOfPairs, byteOfDigits_hexDigit, ih]

/-- The digits tell the bytes. -/
theorem digits_injective {code code' : Bytes} (same : digits code = digits code') : code = code' := by
  rw [← bytesOfPairs_digits code, same, bytesOfPairs_digits]

theorem length_digits (bytes : Bytes) : (digits bytes).length = 2 * bytes.length := by
  induction bytes with
  | nil => rfl
  | cons byte bytes ih =>
    rw [digits_cons, List.length_cons, List.length_cons, List.length_cons, ih]
    omega

/-- Bytes have an even number of digits, so none is missing in front. -/
@[simp]
theorem bytesOfDigits_digits (bytes : Bytes) : bytesOfDigits (digits bytes) = bytes := by
  unfold bytesOfDigits
  rw [if_pos (by rw [length_digits]; omega), bytesOfPairs_digits]

theorem exists_hexDigit_of_mem_digits {bytes : Bytes} {c : Char} (member : c ∈ digits bytes) :
    ∃ d < 16, c = hexDigit d := by
  obtain ⟨byte, _, digit⟩ := List.mem_flatMap.mp member
  have bound := byte.toNat_lt
  rcases List.mem_cons.mp digit with high | low
  · exact ⟨byte.toNat / 16, by omega, high⟩
  · exact ⟨byte.toNat % 16, by omega, List.mem_singleton.mp low⟩

theorem isDigit_hexDigit {n : Nat} (small : n < 16) : isDigit (hexDigit n) := by
  unfold isDigit
  rw [hexValue?_hexDigit n small]
  rfl

theorem digits?_encodeMarked (bytes : Bytes) : digits? (encodeMarked bytes) = some (digits bytes) := by
  have all_digits : (digits bytes).all isDigit := by
    rw [List.all_eq_true]
    intro c member
    obtain ⟨d, small, rfl⟩ := exists_hexDigit_of_mem_digits member
    exact isDigit_hexDigit small
  unfold digits? encodeMarked
  rw [chars?_ofChars, Option.map_some, withoutMark, Option.filter_some, if_pos all_digits]

theorem encodeMarked_injective {a b : Bytes} (same : encodeMarked a = encodeMarked b) : a = b := by
  have read := congrArg digits? same
  rw [digits?_encodeMarked, digits?_encodeMarked] at read
  exact digits_injective (Option.some.inj read)

end Hex

end AbiRecovery
