import AbiRecovery.Proofs.HexText
import AbiRecovery.Proofs.StoreTable

/-!
# Keys of the store

An address is its twenty bytes: texts that spell the same bytes are read as the same address, and the letters that are
raised in its written form can be lowered again. So the key of a contract tells its address, and the name of its chain
but for the case. A key has bytes unless there is half of a surrogate pair in the name of the chain.
-/
namespace AbiRecovery

/-- Whether a text has bytes, so that it can be a key. -/
def Text.hasBytes (t : Text) : Bool :=
  match encodeUtf8 t with
  | .ok _ => true
  | .error _ => false

theorem Text.halfFault?_eq_none {t : Text} {position : Nat} :
    Text.halfFault? (fun _ => false) position t = none ↔ ∀ symbol ∈ t, symbol.isHalf = false := by
  induction t generalizing position with
  | nil => exact ⟨fun _ => nofun, fun _ => rfl⟩
  | cons symbol rest ih =>
    rw [halfFault?, List.forall_mem_cons]
    cases symbol.isHalf with
    | false => simpa using ih
    | true => simp

/-- A text has bytes unless there is half of a surrogate pair in it. -/
theorem Text.hasBytes_iff {t : Text} : t.hasBytes ↔ ∀ symbol ∈ t, symbol.isHalf = false := by
  rw [← halfFault?_eq_none]
  unfold hasBytes encodeUtf8
  cases Text.halfFault? (fun _ => false) 0 t <;> simp

theorem Text.hasBytes_append {front back : Text} : (front ++ back : Text).hasBytes ↔ front.hasBytes ∧ back.hasBytes := by
  simp only [hasBytes_iff, List.mem_append, or_imp, forall_and]

theorem Text.hasBytes_ofChars (cs : List Char) : (ofChars cs).hasBytes := by
  rw [hasBytes_iff]
  intro symbol member
  obtain ⟨c, -, rfl⟩ := List.mem_map.mp member
  rfl

/-- A text in upper case has bytes just if the text has. -/
theorem Text.hasBytes_upper {t : Text} : (upper t).hasBytes ↔ t.hasBytes := by
  rw [hasBytes_iff, hasBytes_iff]
  constructor
  · intro bytes symbol member
    cases symbol with
    | char c => rfl
    | half place => exact bytes _ (List.mem_flatMap.mpr ⟨_, member, List.mem_singleton_self _⟩)
  · intro bytes symbol member
    obtain ⟨source, known, form⟩ := List.mem_flatMap.mp member
    cases source with
    | char c =>
      obtain ⟨d, -, rfl⟩ := List.mem_map.mp form
      rfl
    | half place => cases bytes _ known

theorem Keccak.length_hash (bytes : Bytes) : (Keccak.hash bytes).length = 32 := by
  unfold Keccak.hash
  generalize Keccak.absorbBlocks _ _ _ = state
  have lanes : (state.toList.take 4).length = 4 := by rw [List.length_take, Vector.length_toList]; rfl
  have bytesOf : (fun lane => (Keccak.bytesOfLane lane).length) = fun _ => 8 := rfl
  show ((state.toList.take 4).flatMap Keccak.bytesOfLane).length = 32
  rw [List.length_flatMap, bytesOf, List.map_const', lanes]
  rfl

theorem Hex.lt_of_isDigit {c : Char} (digit : isDigit c) : c.toNat < 128 := by
  have upTo {first last : Char} (low : last.toNat < 128) (large : ¬c.toNat < 128) :
      ¬(decide (first ≤ c) && decide (c ≤ last)) = true := by
    simp only [Bool.and_eq_true, decide_eq_true_eq]
    intro ⟨_, bound⟩
    exact large (Nat.lt_of_le_of_lt bound low)
  refine Decidable.byContradiction fun large => ?_
  unfold isDigit Text.hexValue? at digit
  rw [if_neg (upTo (by decide) large), if_neg (upTo (by decide) large), if_neg (upTo (by decide) large)] at digit
  cases digit

namespace Address

open Text Hex

/-- An address with as many digits as it must have, all of lower case. -/
structure Proper (address : Address) : Prop where
  width : address.digits.length = Address.width
  digits : ∀ c ∈ address.digits, ∃ n < 16, c = hexDigit n

/-- The bytes that an address names. -/
def bytes (address : Address) : Bytes := bytesOfDigits address.digits

theorem toLower_of_isDigit {c : Char} (digit : isDigit c) : ∃ n < 16, c.toLower = hexDigit n := by
  have small := Hex.lt_of_isDigit digit
  have all : ∀ n < 128, isDigit (Char.ofNat n) → ∃ m < 16, (Char.ofNat n).toLower = hexDigit m := by decide
  rw [← Char.ofNat_toNat c] at digit ⊢
  exact all _ small digit

/-- What is read as an address is a proper one. -/
theorem proper_of_ofText {text : Text} {address : Address} (read : ofText text = .ok address) : address.Proper := by
  unfold ofText at read
  cases known : digits? text with
  | none => rw [known] at read; cases read
  | some ds =>
    rw [known] at read
    dsimp only at read
    split at read
    next width =>
      obtain rfl := Except.ok.inj read
      refine ⟨width, fun c member => ?_⟩
      obtain ⟨d, known', rfl⟩ := List.mem_map.mp member
      obtain ⟨-, all⟩ := Option.filter_eq_some_iff.mp known
      exact toLower_of_isDigit (List.all_eq_true.mp all d known')
    next => cases read

theorem digits_bytesOfPairs (cs : List Char) (known : ∀ c ∈ cs, ∃ n < 16, c = hexDigit n) (even : cs.length % 2 = 0) :
    Hex.digits (bytesOfPairs cs) = cs := by
  match cs with
  | [] => rfl
  | [c] => cases even
  | high :: low :: rest =>
    obtain ⟨h, bound, rfl⟩ := known high (by simp)
    obtain ⟨l, bound', rfl⟩ := known low (by simp)
    have small : 16 * h + l < 256 := by omega
    have first : byteOfDigits (hexDigit h) (hexDigit l) = UInt8.ofNat (16 * h + l) := by
      unfold byteOfDigits
      rw [hexValue?_hexDigit h bound, hexValue?_hexDigit l bound']
      rfl
    have value : (UInt8.ofNat (16 * h + l)).toNat = 16 * h + l := UInt8.toNat_ofNat_of_lt' small
    rw [bytesOfPairs, digits_cons, first, value, digits_bytesOfPairs rest (fun c member => known c (by simp [member]))
      (by simp only [List.length_cons] at even; omega)]
    congr <;> omega

/-- The digits of a proper address are those of its bytes. -/
theorem digits_bytes {a : Address} (proper : a.Proper) : Hex.digits a.bytes = a.digits := by
  unfold bytes bytesOfDigits
  rw [if_pos (by rw [proper.width]; rfl)]
  exact digits_bytesOfPairs _ proper.digits (by rw [proper.width]; rfl)

/-- Proper addresses that name the same bytes are the same. -/
theorem eq_of_bytes_eq {a b : Address} (proper : a.Proper) (proper' : b.Proper) (same : a.bytes = b.bytes) : a = b := by
  have digits := (digits_bytes proper).symm.trans ((congrArg Hex.digits same).trans (digits_bytes proper'))
  cases a
  cases b
  exact congrArg Address.mk digits

/-- A raised letter is lowered again. -/
theorem toLower_raise : ∀ n < 16, ∀ nibble, (raise (hexDigit n) nibble).toLower = hexDigit n := by
  intro n small nibble
  have raised : ∀ n < 16, (hexDigit n).toUpper.toLower = hexDigit n := by decide
  have kept : ∀ n < 16, (hexDigit n).toLower = hexDigit n := by decide
  unfold raise
  split
  · exact raised n small
  · exact kept n small

theorem map_toLower_zipWith {cs : List Char} (known : ∀ c ∈ cs, ∃ n < 16, c = hexDigit n) {nibbles : List Nat}
    (long : cs.length ≤ nibbles.length) : (List.zipWith raise cs nibbles).map Char.toLower = cs := by
  induction cs generalizing nibbles with
  | nil => rfl
  | cons c cs ih =>
    cases nibbles with
    | nil => cases long
    | cons nibble nibbles =>
      obtain ⟨n, small, rfl⟩ := known c (by simp)
      rw [List.zipWith_cons_cons, List.map_cons, toLower_raise n small,
        ih (fun c member => known c (by simp [member])) (Nat.le_of_succ_le_succ long)]

/-- The nibbles that say which letters are raised. -/
theorem length_nibbles (bytes : Bytes) :
    (bytes.flatMap fun byte => [byte.toNat / 16, byte.toNat % 16]).length = 2 * bytes.length := by
  induction bytes with
  | nil => rfl
  | cons byte bytes ih =>
    rw [List.flatMap_cons, List.length_append, ih, List.length_cons]
    simp
    omega

/-- The written form of a proper address has its digits, of which some letters are raised. -/
theorem checksum_eq {address : Address} (proper : address.Proper) :
    ∃ raised, address.checksum = ofChars ('0' :: 'x' :: raised) ∧ raised.map Char.toLower = address.digits :=
  ⟨_, rfl, map_toLower_zipWith proper.digits (by rw [length_nibbles, Keccak.length_hash, proper.width]; decide)⟩

theorem length_checksum {address : Address} (proper : address.Proper) : address.checksum.length = width + 2 := by
  obtain ⟨raised, written, lowered⟩ := checksum_eq proper
  have long : raised.length = width := by rw [← proper.width, ← lowered, List.length_map]
  rw [written, ofChars, List.length_map, List.length_cons, List.length_cons, long]

/-- The written form of a proper address tells the address. -/
theorem checksum_injective {a b : Address} (proper : a.Proper) (proper' : b.Proper) (same : a.checksum = b.checksum) :
    a = b := by
  obtain ⟨raised, written, lowered⟩ := checksum_eq proper
  obtain ⟨raised', written', lowered'⟩ := checksum_eq proper'
  rw [written, written', ofChars, ofChars, List.map_inj_right fun _ _ => Symbol.char.inj] at same
  have raised_eq := (List.cons.inj (List.cons.inj same).2).2
  cases a
  cases b
  exact congrArg Address.mk (lowered.symm.trans (raised_eq ▸ lowered'))

end Address

/-! ## Letter case -/

namespace Hex

theorem toLower_of_large {c : Char} (large : ¬c.toNat < 128) : c.toLower = c := by
  unfold Char.toLower
  rw [dif_neg]
  rintro ⟨-, high⟩
  exact large (Nat.lt_of_le_of_lt (show c.toNat ≤ 90 from high) (by decide))

/-- What holds of the characters of ASCII, one by one, and of all others, holds of every character. -/
theorem forall_char (p : Char → Prop) (small : ∀ n < 128, p (Char.ofNat n)) (large : ∀ c : Char, ¬c.toNat < 128 → p c)
    (c : Char) : p c := by
  by_cases bound : c.toNat < 128
  · have known := small _ bound
    rwa [Char.ofNat_toNat] at known
  · exact large c bound

theorem isDigit_toLower : ∀ c, isDigit c.toLower = isDigit c :=
  forall_char _ (by decide) fun c large => by rw [toLower_of_large large]

theorem toLower_toLower : ∀ c : Char, c.toLower.toLower = c.toLower :=
  forall_char _ (by decide) fun c large => by rw [toLower_of_large large, toLower_of_large large]

theorem toLower_eq_zero : ∀ c : Char, c.toLower = '0' ↔ c = '0' :=
  forall_char _ (by decide) fun c large => by rw [toLower_of_large large]

theorem toLower_eq_mark : ∀ c : Char, c.toLower = 'x' ↔ c = 'x' ∨ c = 'X' := by
  refine forall_char _ (by decide) fun c large => ?_
  rw [toLower_of_large large]
  refine ⟨Or.inl, fun either => either.resolve_right ?_⟩
  rintro rfl
  exact large (by decide)

theorem withoutMark_cons_cons (first second : Char) (cs : List Char) :
    withoutMark (first :: second :: cs) =
      if first = '0' ∧ (second = 'x' ∨ second = 'X') then cs else first :: second :: cs := by
  unfold withoutMark
  split <;> simp_all

theorem withoutMark_singleton (c : Char) : withoutMark [c] = [c] := by
  unfold withoutMark
  split <;> simp_all

theorem withoutMark_map_toLower (cs : List Char) :
    withoutMark (cs.map Char.toLower) = (withoutMark cs).map Char.toLower := by
  match cs with
  | [] => rfl
  | [c] =>
    rw [List.map_singleton, withoutMark_singleton, withoutMark_singleton]
    rfl
  | first :: second :: cs =>
    have never : ∀ c : Char, c.toLower ≠ 'X' :=
      forall_char _ (by decide) fun c large same => large (by rw [← toLower_of_large large, same]; decide)
    simp only [List.map_cons, withoutMark_cons_cons, toLower_eq_zero, toLower_eq_mark, never, or_false]
    split <;> rfl

theorem chars?_lowerAscii (t : Text) : Text.chars? t.lowerAscii = (Text.chars? t).map (List.map Char.toLower) := by
  induction t with
  | nil => rfl
  | cons symbol t ih =>
    cases symbol with
    | half place => rfl
    | char c =>
      have cons (c : Char) (t : Text) : Text.chars? (.char c :: t) = (Text.chars? t).map (c :: ·) := by
        unfold Text.chars?
        rw [List.mapM_cons]
        show (List.mapM Text.Symbol.char? t).bind _ = _
        cases List.mapM Text.Symbol.char? t <;> rfl
      show Text.chars? (.char c.toLower :: Text.lowerAscii t) = _
      rw [cons, ih, cons, Option.map_map, Option.map_map]
      rfl

theorem digits?_lowerAscii (t : Text) : digits? t.lowerAscii = (digits? t).map (List.map Char.toLower) := by
  unfold digits?
  rw [chars?_lowerAscii]
  cases Text.chars? t with
  | none => rfl
  | some cs =>
    have all : ((withoutMark cs).map Char.toLower).all isDigit = (withoutMark cs).all isDigit := by
      simp only [List.all_map, Function.comp_def, isDigit_toLower]
    simp only [Option.map_some, withoutMark_map_toLower, Option.filter_some, all]
    split <;> rfl

end Hex

/-- An address is the same in any letter case. -/
theorem Address.toOption_ofText_lowerAscii (t : Text) : (ofText t.lowerAscii).toOption = (ofText t).toOption := by
  unfold ofText
  rw [Hex.digits?_lowerAscii]
  cases Hex.digits? t with
  | none => rfl
  | some digits =>
    simp only [Option.map_some, List.map_map, Function.comp_def, Hex.toLower_toLower]
    split <;> rfl

namespace Store

/-- The key of a contract tells the address, and the name of the chain but for the case. -/
theorem contractKey_eq_iff {chain chain' : Text} {a b : Address} (proper : a.Proper) (proper' : b.Proper) :
    contractKey chain a = contractKey chain' b ↔ Text.upper chain = Text.upper chain' ∧ a = b := by
  constructor
  · intro same
    unfold contractKey at same
    obtain ⟨front, written⟩ := List.append_inj' same (by rw [Address.length_checksum proper, Address.length_checksum proper'])
    exact ⟨List.append_cancel_left (List.append_cancel_right front), Address.checksum_injective proper proper' written⟩
  · rintro ⟨names, rfl⟩
    unfold contractKey
    rw [names]

/-- The key of code has bytes. -/
theorem hasBytes_codeKey (code : Bytes) : (codeKey (Tool.codeHash code)).hasBytes :=
  Text.hasBytes_append.mpr ⟨by decide, Text.hasBytes_ofChars _⟩

/-- The key of a contract has bytes just if the name of its chain has. -/
theorem hasBytes_contractKey {chain : Text} {contract : Address} : (contractKey chain contract).hasBytes ↔ chain.hasBytes := by
  have marks : contractMark.hasBytes ∧ Text.hasBytes ":" := by decide
  unfold contractKey
  simp only [Text.hasBytes_append, Text.hasBytes_upper, marks, true_and, and_true, and_iff_left_iff_imp]
  exact fun _ => Text.hasBytes_ofChars _

end Store

end AbiRecovery
