import AbiRecovery.Proofs.AddressText

/-!
# Keys of contracts

The key of a contract tells the twenty bytes of its address and the name of its chain but for the case, whatever
characters the name has: the written form of an address has one length and ends the key, so a separator in the name of
a chain is never taken for the one before the address (`contractKey_tells`). No key of a contract is the key of code, and
a row under one is never listed among the saved entries.
-/
namespace AbiRecovery

open Store

/-- Whether a text is an address of these bytes, with any mark and in any case. -/
def Text.IsAddressOf (t : Text) (bytes : Bytes) : Prop :=
  ∃ digits, t.SpellsAddress digits ∧ digits.map Char.toLower = Hex.digits bytes

namespace Address

variable {text text' : Text} {a b : Address}

theorem length_bytes (proper : a.Proper) : a.bytes.length = 20 := by
  have twice := Hex.length_digits a.bytes
  rw [digits_bytes proper, proper.width, width] at twice
  omega

/-- A text that is read as an address spells the digits of the address but for the case, and no other digits. -/
theorem map_toLower_eq_digits (read : ofText text = .ok a) {digits : List Char} (spelled : text.SpellsAddress digits) :
    digits.map Char.toLower = a.digits := by
  have same : ofText text = .ok ⟨digits.map Char.toLower⟩ := ofText_eq_ok_iff.mpr ⟨digits, spelled, rfl⟩
  rw [same] at read
  exact congrArg Address.digits (Except.ok.inj read)

/-- What is read as an address is an address of its bytes, and of no others. -/
theorem isAddressOf_iff (read : ofText text = .ok a) {bytes : Bytes} : text.IsAddressOf bytes ↔ a.bytes = bytes := by
  have written := digits_bytes (proper_of_ofText read)
  constructor
  · rintro ⟨digits, spelled, lowered⟩
    apply Hex.digits_injective
    rw [written, ← map_toLower_eq_digits read spelled, lowered]
  · rintro rfl
    obtain ⟨digits, spelled, lowered⟩ := ofText_eq_ok_iff.mp read
    exact ⟨digits, spelled, by rw [written, lowered]⟩

/-- Two texts are read as the same address just if they differ in their marks and in the case of their digits only. -/
theorem sameAddress_iff (read : ofText text = .ok a) (read' : ofText text' = .ok b) : text.SameAddress text' ↔ a = b := by
  constructor
  · rintro ⟨digits, digits', spelled, spelled', lowered⟩
    rw [map_toLower_eq_digits read spelled, map_toLower_eq_digits read' spelled'] at lowered
    cases a
    cases b
    exact congrArg Address.mk lowered
  · rintro rfl
    obtain ⟨digits, spelled, lowered⟩ := ofText_eq_ok_iff.mp read
    obtain ⟨digits', spelled', lowered'⟩ := ofText_eq_ok_iff.mp read'
    exact ⟨digits, digits', spelled, spelled', lowered.symm.trans lowered'⟩

end Address

namespace Store

/-- A row under the key of a contract is not listed, wherever it stands in a table. -/
theorem Table.saved_contractKey (chain : Text) (address : Address) (value : Value) (front back : Table) :
    saved (front ++ (contractKey chain address, value) :: back) = saved (front ++ back) := by
  have unlisted : savedRow? (contractKey chain address, value) = none := by
    unfold savedRow?
    rw [isPrefixOf_contractKey]
    rfl
  unfold saved
  rw [List.filterMap_append, List.filterMap_cons_none unlisted, List.filterMap_append]

/-- Two contracts have the same key just if the names of their chains are the same but for the case and their addresses
are the same twenty bytes, that is the same digits but for the mark and the case. No piece of code has the key of a
contract, whatever its hash is taken to be, and rows under such a key do not change which entries are listed. -/
theorem contractKey_tells {chain chain' text text' : Text} {a b : Address} (read : Address.ofText text = .ok a)
    (read' : Address.ofText text' = .ok b) :
    (contractKey chain a = contractKey chain' b ↔
      Text.upper chain = Text.upper chain' ∧
        ∃ bytes, bytes.length = 20 ∧ text.IsAddressOf bytes ∧ text'.IsAddressOf bytes) ∧
    ((∃ bytes, bytes.length = 20 ∧ text.IsAddressOf bytes ∧ text'.IsAddressOf bytes) ↔ text.SameAddress text') ∧
    (∀ hash, contractKey chain a ≠ codeKey hash) ∧
    ∀ (front back : Table) (value : Value),
      Table.saved (front ++ (contractKey chain a, value) :: back) = Table.saved (front ++ back) := by
  have proper := Address.proper_of_ofText read
  have proper' := Address.proper_of_ofText read'
  have same : (∃ bytes, bytes.length = 20 ∧ text.IsAddressOf bytes ∧ text'.IsAddressOf bytes) ↔ a = b := by
    simp only [Address.isAddressOf_iff read, Address.isAddressOf_iff read']
    constructor
    · rintro ⟨bytes, -, first, second⟩
      exact Address.eq_of_bytes_eq proper proper' (first.trans second.symm)
    · rintro rfl
      exact ⟨a.bytes, Address.length_bytes proper, rfl, rfl⟩
  refine ⟨?_, ?_, fun hash => (codeKey_ne_contractKey hash chain a).symm, fun front back value => ?_⟩
  · rw [same]
    exact contractKey_eq_iff proper proper'
  · rw [same]
    exact (Address.sameAddress_iff read read').symm
  · exact Table.saved_contractKey chain a value front back

/-- One contract by two names of its chain, with separators in them, and two spellings of its address. -/
theorem contractKey_tells_of_separators :
    let lower : Text := Text.ofChars ('0' :: 'x' :: List.replicate 40 'b')
    let upper : Text := Text.ofChars (List.replicate 40 'B')
    let address : Address := ⟨List.replicate 40 'b'⟩
    Address.ofText lower = .ok address ∧ Address.ofText upper = .ok address ∧
      contractKey "a:0xb" address = contractKey "A:0XB" address ∧ contractKey "a:0xb" address ≠ codeKey "a:0xb" := by
  intro lower upper address
  have read : Address.ofText lower = .ok address := by rfl
  have read' : Address.ofText upper = .ok address := by rfl
  obtain ⟨keys, same, apart, -⟩ := @contractKey_tells "a:0xb" "A:0XB" _ _ _ _ read read'
  refine ⟨read, read', keys.mpr ⟨by decide, same.mpr ?_⟩, apart _⟩
  exact (Address.sameAddress_iff read read').mpr rfl

end Store

end AbiRecovery
