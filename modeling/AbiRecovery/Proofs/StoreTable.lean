import AbiRecovery.Abi.Recovery
import AbiRecovery.Session.Contract

/-!
# Rows of the store

The last row written under a key is the one that is found, and a row that is written goes to the end. The two kinds
of keys are told apart by how they begin.
-/
namespace AbiRecovery.Store

namespace Table

/-- Finding after a write: the row that has been written, and every other row as before. -/
theorem find?_put (t : Table) (key k : Text) (value : Value) :
    (t.put key value).find? k = if key = k then some value else t.find? k := by
  unfold put find?
  rw [OrderedMap.get?_append]
  have erased := OrderedMap.get?_erase t key k
  unfold OrderedMap.erase at erased
  rw [erased]
  by_cases same : key = k
  · simp [OrderedMap.get?, same]
  · simp [OrderedMap.get?, same]

theorem mem_put {t : Table} {key : Text} {value : Value} {row : Text × Value} :
    row ∈ t.put key value ↔ (row ∈ t ∧ row.1 ≠ key) ∨ row = (key, value) := by
  unfold put
  simp [List.mem_append, List.mem_filter]

end Table

/-- The key of code is not the key of a contract. -/
theorem codeKey_ne_contractKey (hash chain : Text) (address : Address) : codeKey hash ≠ contractKey chain address := by
  intro same
  have second := congrArg (fun key : Text => key[1]?) same
  simp [codeKey, contractKey, codeMark, contractMark, Text.ofString, Text.ofChars] at second

theorem codeKey_injective {hash hash' : Text} (same : codeKey hash = codeKey hash') : hash = hash' :=
  List.append_cancel_left same

theorem isPrefixOf_codeKey (hash : Text) : contractMark.isPrefixOf (codeKey hash) = false := rfl

theorem isPrefixOf_contractKey (chain : Text) (address : Address) :
    codeMark.isPrefixOf (contractKey chain address) = false := rfl

/-- A table whose contracts are linked to hashes under which there are entries, and whose entries are those of code
with their hash. -/
structure Table.Sound (t : Table) : Prop where
  links : ∀ key value, (key, value) ∈ t → contractMark.isPrefixOf key →
    ∃ hash, value.toJson = .str hash ∧ t.isSaved hash
  codes : ∀ key value, (key, value) ∈ t → codeMark.isPrefixOf key →
    ∃ code entries, key = codeKey (Tool.codeHash code) ∧ Abi.ofCode code = .ok entries ∧
      value.toJson = Abi.entriesJson entries

namespace Table

theorem sound_nil : Sound [] := ⟨nofun, nofun⟩

variable {t : Table}

theorem isSaved_put_codeKey (t : Table) (hash hash' : Text) (value : Value) :
    (t.put (codeKey hash) value).isSaved hash' = (hash = hash' || t.isSaved hash') := by
  unfold isSaved
  rw [find?_put]
  by_cases same : hash = hash'
  · rw [if_pos (congrArg codeKey same)]
    simp [same]
  · rw [if_neg fun keys => same (codeKey_injective keys)]
    simp [same]

theorem isSaved_put_contractKey (t : Table) (chain : Text) (address : Address) (hash : Text) (value : Value) :
    (t.put (contractKey chain address) value).isSaved hash = t.isSaved hash := by
  unfold isSaved
  rw [find?_put, if_neg (Ne.symm (codeKey_ne_contractKey hash chain address))]

/-- Saving what is recovered from code keeps a table sound. -/
theorem Sound.save (sound : t.Sound) {code : Bytes} {entries : List Abi.Entry} (recovered : Abi.ofCode code = .ok entries) :
    (t.put (codeKey (Tool.codeHash code)) (.entries entries)).Sound := by
  constructor
  case links =>
    intro key value member mark
    rcases mem_put.mp member with ⟨old, -⟩ | new
    · obtain ⟨hash, target, saved⟩ := sound.links key value old mark
      exact ⟨hash, target, by rw [isSaved_put_codeKey, saved, Bool.or_true]⟩
    · cases new
      rw [isPrefixOf_codeKey] at mark
      cases mark
  case codes =>
    intro key value member mark
    rcases mem_put.mp member with ⟨old, -⟩ | new
    · exact sound.codes key value old mark
    · cases new
      exact ⟨code, entries, rfl, recovered, rfl⟩

/-- Linking a contract to a hash under which there are entries keeps a table sound. -/
theorem Sound.link (sound : t.Sound) (chain : Text) (address : Address) {hash : Text} (saved : t.isSaved hash) :
    (t.put (contractKey chain address) (.hash hash)).Sound := by
  constructor
  case links =>
    intro key value member mark
    rcases mem_put.mp member with ⟨old, -⟩ | new
    · obtain ⟨hash', target, saved'⟩ := sound.links key value old mark
      exact ⟨hash', target, by rw [isSaved_put_contractKey, saved']⟩
    · cases new
      exact ⟨hash, rfl, by rw [isSaved_put_contractKey, saved]⟩
  case codes =>
    intro key value member mark
    rcases mem_put.mp member with ⟨old, -⟩ | new
    · exact sound.codes key value old mark
    · cases new
      rw [isPrefixOf_contractKey] at mark
      cases mark

end Table

end AbiRecovery.Store
