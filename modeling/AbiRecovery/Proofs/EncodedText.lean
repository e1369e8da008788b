import AbiRecovery.Proofs.CodeFile
import Mathlib.Algebra.Group.Nat.Defs

/-!
# Encoded text read back

A text without halves of surrogate pairs is read back from its bytes in UTF-8 as it was (`decodeUtf8_of_encodeUtf8`). Each
character is read by itself: its first byte tells how many bytes follow, and each of these adds six bits. The bounds of
the second byte exclude only what would have had fewer bytes, what is half of a pair, and what lies beyond the last
character.
-/
namespace AbiRecovery.Text

variable {position start : Nat} {seen : List UInt8} {done : List Char} {rest : List UInt8} {value v : Nat}
  {low high : UInt8}

theorem toNat_ofNat {n : Nat} (small : n < 256) : (UInt8.ofNat n).toNat = n := UInt8.toNat_ofNat_of_lt' small

/-! ## The bytes after the first -/

/-- The byte with the last six bits of a number. -/
def followByte (v : Nat) : UInt8 := UInt8.ofNat (v % 64 + 128)

theorem toNat_followByte (v : Nat) : (followByte v).toNat = v % 64 + 128 := toNat_ofNat (by omega)

theorem followByte_within (above : low.toNat ≤ v % 64 + 128) (below : v % 64 + 128 ≤ high.toNat) :
    (decide (low ≤ followByte v) && decide (followByte v ≤ high)) = true := by
  rw [Bool.and_eq_true, decide_eq_true_eq, decide_eq_true_eq, UInt8.le_iff_toNat_le, UInt8.le_iff_toNat_le,
    toNat_followByte]
  exact ⟨above, below⟩

theorem followByte_bits (value v : Nat) : 64 * value + (followByte v).toNat % 64 = 64 * value + v % 64 := by
  rw [toNat_followByte]
  omega

/-- The last byte completes the character. -/
theorem utf8From_last (above : low.toNat ≤ v % 64 + 128) (below : v % 64 + 128 ≤ high.toNat) :
    utf8From position (some ⟨start, seen, value, 1, low, high⟩) done (followByte v :: rest) =
      utf8From (position + 1) none (Char.ofNat (64 * value + v % 64) :: done) rest := by
  rw [utf8From]
  dsimp only
  rw [if_pos (followByte_within above below), if_pos rfl, followByte_bits]

/-- A byte before the last adds its bits; after it every byte that may follow at all may follow. -/
theorem utf8From_next (missing : Nat) (above : low.toNat ≤ v % 64 + 128) (below : v % 64 + 128 ≤ high.toNat) :
    utf8From position (some ⟨start, seen, value, missing + 2, low, high⟩) done (followByte v :: rest) =
      utf8From (position + 1) (some ⟨start, followByte v :: seen, 64 * value + v % 64, missing + 1, 0x80, 0xBF⟩) done
        rest := by
  rw [utf8From]
  dsimp only
  rw [if_pos (followByte_within above below), if_neg (by omega), followByte_bits, Nat.add_sub_cancel (missing + 1) 1]

/-! ## The first byte -/

theorem utf8Shape?_two : ∀ h < 32, 2 ≤ h → utf8Shape? (UInt8.ofNat (h + 192)) = some (1, 0x80, 0xBF) := by decide

theorem utf8Shape?_three : ∀ h < 16, utf8Shape? (UInt8.ofNat (h + 224)) =
    some (2, if h = 0 then 0xA0 else 0x80, if h = 13 then 0x9F else 0xBF) := by decide

theorem utf8Shape?_four : ∀ h < 5, utf8Shape? (UInt8.ofNat (h + 240)) =
    some (3, if h = 0 then 0x90 else 0x80, if h = 4 then 0x8F else 0xBF) := by decide

/-- A first byte that tells of bytes to follow begins a character. -/
theorem utf8From_first {byte : UInt8} {missing : Nat} (shape : utf8Shape? byte = some (missing + 1, low, high))
    (bits : byte.toNat % 2 ^ (6 - (missing + 1)) = value) :
    utf8From position none done (byte :: rest) =
      utf8From (position + 1) (some ⟨position, [byte], value, missing + 1, low, high⟩) done rest := by
  rw [utf8From, shape, ← bits]
  rfl

/-! ## Characters by the number of their bytes -/

variable {c : Char}

theorem utf8From_one (small : c.toNat ≤ 127) :
    utf8From position none done (String.utf8EncodeChar c ++ rest) = utf8From (position + 1) none (c :: done) rest := by
  obtain ⟨bytes, ascii, back⟩ := asciiByte_of_ascii (Nat.lt_succ_of_le small)
  have shape : utf8Shape? (asciiByte c) = some (0, 0x80, 0xBF) := if_pos ascii
  rw [bytes, List.singleton_append, utf8From, shape]
  dsimp only
  rw [back]
  rfl

theorem utf8From_two (large : 127 < c.toNat) (small : c.toNat ≤ 2047) :
    utf8From position none done (String.utf8EncodeChar c ++ rest) = utf8From (position + 2) none (c :: done) rest := by
  have bytes : String.utf8EncodeChar c = [UInt8.ofNat (c.toNat / 64 % 32 + 192), followByte c.toNat] :=
    (if_neg (Nat.not_le_of_lt large)).trans (if_pos small)
  have bits : (UInt8.ofNat (c.toNat / 64 % 32 + 192)).toNat % 2 ^ 5 = c.toNat / 64 := by
    rw [toNat_ofNat (by omega)]
    omega
  have number : 64 * (c.toNat / 64) + c.toNat % 64 = c.toNat := by omega
  rw [bytes, List.cons_append, List.cons_append, utf8From_first (utf8Shape?_two _ (by omega) (by omega)) bits,
    utf8From_last (show 128 ≤ _ by omega) (show _ ≤ 191 by omega), number, Char.ofNat_toNat]
  rfl

theorem utf8From_three (large : 2047 < c.toNat) (small : c.toNat ≤ 65535) :
    utf8From position none done (String.utf8EncodeChar c ++ rest) = utf8From (position + 3) none (c :: done) rest := by
  have valid : c.toNat < 0xD800 ∨ 0xDFFF < c.toNat ∧ c.toNat < 0x110000 := c.valid
  have bytes : String.utf8EncodeChar c =
      [UInt8.ofNat (c.toNat / 4096 % 16 + 224), followByte (c.toNat / 64), followByte c.toNat] :=
    (if_neg (show ¬c.toNat ≤ 127 by omega)).trans ((if_neg (Nat.not_le_of_lt large)).trans (if_pos small))
  have bits : (UInt8.ofNat (c.toNat / 4096 % 16 + 224)).toNat % 2 ^ 4 = c.toNat / 4096 := by
    rw [toNat_ofNat (by omega)]
    omega
  -- Below the lower bound of the second byte two bytes would do, and above the upper bound there are halves of pairs.
  have above : (if c.toNat / 4096 % 16 = 0 then (0xA0 : UInt8) else 0x80).toNat ≤ c.toNat / 64 % 64 + 128 := by
    split
    · show 160 ≤ _
      omega
    · show 128 ≤ _
      omega
  have below : c.toNat / 64 % 64 + 128 ≤ (if c.toNat / 4096 % 16 = 13 then (0x9F : UInt8) else 0xBF).toNat := by
    split
    · show _ ≤ 159
      omega
    · show _ ≤ 191
      omega
  have number : 64 * (64 * (c.toNat / 4096) + c.toNat / 64 % 64) + c.toNat % 64 = c.toNat := by omega
  rw [bytes, List.cons_append, List.cons_append, List.cons_append,
    utf8From_first (utf8Shape?_three _ (by omega)) bits, utf8From_next 0 above below,
    utf8From_last (show 128 ≤ _ by omega) (show _ ≤ 191 by omega), number, Char.ofNat_toNat]
  rfl

theorem utf8From_four (large : 65535 < c.toNat) :
    utf8From position none done (String.utf8EncodeChar c ++ rest) = utf8From (position + 4) none (c :: done) rest := by
  have valid : c.toNat < 0xD800 ∨ 0xDFFF < c.toNat ∧ c.toNat < 0x110000 := c.valid
  have bytes : String.utf8EncodeChar c =
      [UInt8.ofNat (c.toNat / 262144 % 8 + 240), followByte (c.toNat / 4096), followByte (c.toNat / 64),
        followByte c.toNat] :=
    (if_neg (show ¬c.toNat ≤ 127 by omega)).trans
      ((if_neg (show ¬c.toNat ≤ 2047 by omega)).trans (if_neg (Nat.not_le_of_lt large)))
  have bits : (UInt8.ofNat (c.toNat / 262144 % 8 + 240)).toNat % 2 ^ 3 = c.toNat / 262144 := by
    rw [toNat_ofNat (by omega)]
    omega
  -- Below the lower bound of the second byte three bytes would do, and above the upper bound there are no characters.
  have above : (if c.toNat / 262144 % 8 = 0 then (0x90 : UInt8) else 0x80).toNat ≤ c.toNat / 4096 % 64 + 128 := by
    split
    · show 144 ≤ _
      omega
    · show 128 ≤ _
      omega
  have below : c.toNat / 4096 % 64 + 128 ≤ (if c.toNat / 262144 % 8 = 4 then (0x8F : UInt8) else 0xBF).toNat := by
    split
    · show _ ≤ 143
      omega
    · show _ ≤ 191
      omega
  have number : 64 * (64 * (64 * (c.toNat / 262144) + c.toNat / 4096 % 64) + c.toNat / 64 % 64) + c.toNat % 64 =
      c.toNat := by omega
  rw [bytes, List.cons_append, List.cons_append, List.cons_append, List.cons_append,
    utf8From_first (utf8Shape?_four _ (by omega)) bits, utf8From_next 1 above below,
    utf8From_next 0 (show 128 ≤ _ by omega) (show _ ≤ 191 by omega),
    utf8From_last (show 128 ≤ _ by omega) (show _ ≤ 191 by omega), number, Char.ofNat_toNat]
  rfl

/-- The bytes of a character are read as the character. -/
theorem exists_utf8From (c : Char) (position : Nat) :
    ∃ next, ∀ done rest, utf8From position none done (String.utf8EncodeChar c ++ rest) =
      utf8From next none (c :: done) rest := by
  by_cases one : c.toNat ≤ 127
  · exact ⟨_, fun _ _ => utf8From_one one⟩
  by_cases two : c.toNat ≤ 2047
  · exact ⟨_, fun _ _ => utf8From_two (Nat.lt_of_not_le one) two⟩
  by_cases three : c.toNat ≤ 65535
  · exact ⟨_, fun _ _ => utf8From_three (Nat.lt_of_not_le two) three⟩
  · exact ⟨_, fun _ _ => utf8From_four (Nat.lt_of_not_le three)⟩

/-! ## Texts -/

theorem utf8From_flatMap (cs : List Char) :
    utf8From position none done (cs.flatMap String.utf8EncodeChar) = .ok (done.reverse ++ cs) := by
  induction cs generalizing position done with
  | nil => rw [List.flatMap_nil, utf8From, List.append_nil]
  | cons c cs ih =>
    obtain ⟨next, read⟩ := exists_utf8From c position
    rw [List.flatMap_cons, read, ih, List.reverse_cons, ← List.append_cons]

/-- A text that has bytes consists of characters. -/
theorem exists_chars_of_encodeUtf8 {t : Text} {bytes : List UInt8} (encoded : encodeUtf8 t = .ok bytes) :
    ∃ cs, t = ofChars cs := by
  have characters : ∀ symbol ∈ t, symbol.isHalf = false := hasBytes_iff.mp (by rw [hasBytes, encoded])
  clear encoded
  induction t with
  | nil => exact ⟨[], rfl⟩
  | cons symbol t ih =>
    obtain ⟨first, others⟩ := List.forall_mem_cons.mp characters
    obtain ⟨cs, rfl⟩ := ih others
    cases symbol with
    | char c => exact ⟨c :: cs, rfl⟩
    | half place => cases first

/-- A text is read back from its bytes. -/
theorem decodeUtf8_of_encodeUtf8 {t : Text} {bytes : List UInt8} (encoded : encodeUtf8 t = .ok bytes) :
    decodeUtf8 bytes = .ok t := by
  obtain ⟨cs, rfl⟩ := exists_chars_of_encodeUtf8 encoded
  rw [encodeUtf8_ofChars] at encoded
  obtain rfl := Except.ok.inj encoded
  unfold decodeUtf8
  rw [utf8From_flatMap]
  rfl

end AbiRecovery.Text
