import AbiRecovery.Opcode.Mnemonic
import AbiRecovery.Proofs.HexText
import Mathlib.Data.List.Nodup

/-!
# One name for every opcode

No two opcodes have the same name, so a name is read back as the opcode it stands for. A name of a
numbered family falls into its letters, which are those of the family, and its digits, which are those
of the number; no other mnemonic has such letters but `PUSH0`, whose number the family does not have.
The other mnemonics are a table of distinct words, and no mnemonic begins as the name of a byte that is
no instruction does.
-/
namespace AbiRecovery.Opcode

/-- The numbered families by their letters, each with the byte that its number is added to. -/
def numberedFamilies : List (String × Nat) :=
  [("PUSH", 0x5F), ("DUP", 0x7F), ("SWAP", 0x8F), ("LOG", 0xA0)]

def letters (name : String) : List Char := name.toList.filter fun c => !c.isDigit

def numerals (name : String) : List Char := name.toList.filter Char.isDigit

variable {family family' : String × Nat} {op op' : Opcode} {name : String} {k k' : Nat}

/-! ## Numbered names -/

theorem isDigit_of_mem_family : ∀ family ∈ numberedFamilies, ∀ c ∈ family.1.toList, c.isDigit = false := by
  simp [numberedFamilies]

theorem toList_numbered (stem : String) (k : Nat) :
    (stem ++ toString k).toList = stem.toList ++ Nat.toDigits 10 k := by
  rw [String.toList_append, Nat.toString_eq_repr, Nat.toList_repr]

theorem letters_numbered (numbered : family ∈ numberedFamilies) (k : Nat) :
    letters (family.1 ++ toString k) = family.1.toList := by
  have stem : family.1.toList.filter (fun c => !c.isDigit) = family.1.toList := by
    rw [List.filter_eq_self]
    intro c member
    rw [isDigit_of_mem_family family numbered c member]
    rfl
  have number : (Nat.toDigits 10 k).filter (fun c => !c.isDigit) = [] := by
    rw [List.filter_eq_nil_iff]
    intro c member
    rw [Nat.isDigit_of_mem_toDigits (by decide) (by decide) member]
    decide
  rw [letters, toList_numbered, List.filter_append, stem, number, List.append_nil]

theorem numerals_numbered (numbered : family ∈ numberedFamilies) (k : Nat) :
    numerals (family.1 ++ toString k) = Nat.toDigits 10 k := by
  have stem : family.1.toList.filter Char.isDigit = [] := by
    rw [List.filter_eq_nil_iff]
    intro c member
    rw [isDigit_of_mem_family family numbered c member]
    decide
  have number : (Nat.toDigits 10 k).filter Char.isDigit = Nat.toDigits 10 k := by
    rw [List.filter_eq_self]
    intro c member
    exact Nat.isDigit_of_mem_toDigits (by decide) (by decide) member
  rw [numerals, toList_numbered, List.filter_append, stem, number, List.nil_append]

theorem eq_of_letters_eq : ∀ family ∈ numberedFamilies, ∀ family' ∈ numberedFamilies,
    family.1.toList = family'.1.toList → family = family' := by
  decide +kernel

/-- A numbered name tells the family and the number. -/
theorem numbered_unique (numbered : family ∈ numberedFamilies) (numbered' : family' ∈ numberedFamilies)
    (same : family.1 ++ toString k = family'.1 ++ toString k') : family = family' ∧ k = k' := by
  constructor
  · apply eq_of_letters_eq family numbered family' numbered'
    rw [← letters_numbered numbered k, same, letters_numbered numbered']
  · have digits : Nat.toDigits 10 k = Nat.toDigits 10 k' := by
      rw [← numerals_numbered numbered k, same, numerals_numbered numbered']
    calc
      k = Nat.ofDigitChars 10 (Nat.toDigits 10 k) 0 := (Nat.ofDigitChars_toDigits (by decide) (by decide)).symm
      _ = Nat.ofDigitChars 10 (Nat.toDigits 10 k') 0 := by rw [digits]
      _ = k' := Nat.ofDigitChars_toDigits (by decide) (by decide)

/-- A name of a numbered family: its letters, and the number that leads to the opcode. -/
def Numbered (op : Opcode) (name : String) : Prop :=
  ∃ family ∈ numberedFamilies, ∃ k, name = family.1 ++ toString k ∧ op.byte.toNat = family.2 + k ∧
    (family.1 = "PUSH" → 0 < k)

theorem numbered_of_le (letters : String) (first : Nat) (known : (letters, first) ∈ numberedFamilies)
    (begun : first ≤ op.byte.toNat) (counted : letters = "PUSH" → first < op.byte.toNat) :
    Numbered op (letters ++ toString (op.byte.toNat - first)) :=
  ⟨(letters, first), known, _, rfl, by dsimp only; omega, fun push => Nat.sub_pos_of_lt (counted push)⟩

theorem numbered_of_familyMnemonic? (named : op.familyMnemonic? = some name) : Numbered op name := by
  unfold familyMnemonic? at named
  simp only [Bool.and_eq_true, decide_eq_true_eq] at named
  split at named
  next push =>
    cases named
    exact numbered_of_le "PUSH" 0x5F (by decide) (by omega) (fun _ => by omega)
  split at named
  next dup =>
    cases named
    exact numbered_of_le "DUP" 0x7F (by decide) (by omega) (fun push => absurd push (by decide))
  split at named
  next swap =>
    cases named
    exact numbered_of_le "SWAP" 0x8F (by decide) (by omega) (fun push => absurd push (by decide))
  split at named
  next log =>
    cases named
    exact numbered_of_le "LOG" 0xA0 (by decide) (by omega) (fun push => absurd push (by decide))
  cases named

/-! ## The table of the other mnemonics -/

theorem nodup_plainMnemonics : (plainMnemonics.map Prod.snd).Nodup := by decide +kernel

/-- How the words of the table are spelled: without a blank, not as a name of a byte that is no
instruction, and not as a numbered name. -/
theorem spelling_of_mem_plainMnemonics : ∀ entry ∈ plainMnemonics, ' ' ∉ entry.2.toList ∧
    entry.2.toList.head? ≠ some 'U' ∧
    (letters entry.2 ∈ numberedFamilies.map (fun family => family.1.toList) → entry.2 = "PUSH" ++ toString 0) := by
  decide +kernel

theorem mem_of_lookup {table : List (UInt8 × String)} {byte : UInt8} (found : table.lookup byte = some name) :
    (byte, name) ∈ table := by
  induction table with
  | nil => cases found
  | cons entry rest ih =>
    obtain ⟨first, word⟩ := entry
    rw [List.lookup_cons] at found
    split at found
    next same =>
      rw [beq_iff_eq.mp same, ← Option.some.inj found]
      exact List.mem_cons_self
    next => exact List.mem_cons_of_mem _ (ih found)

theorem not_mem_plainMnemonics_of_numbered {byte : UInt8} (numbered : Numbered op name) :
    (byte, name) ∉ plainMnemonics := by
  obtain ⟨family, known, k, rfl, _, counted⟩ := numbered
  intro listed
  have spelled : letters (family.1 ++ toString k) ∈ numberedFamilies.map fun family => family.1.toList := by
    rw [letters_numbered known]
    exact List.mem_map_of_mem known
  have zero := (spelling_of_mem_plainMnemonics _ listed).2.2 spelled
  have push : (("PUSH", 0x5F) : String × Nat) ∈ numberedFamilies := by decide
  obtain ⟨rfl, rfl⟩ := numbered_unique known push zero
  exact Nat.lt_irrefl 0 (counted rfl)

/-! ## All opcodes -/

theorem mnemonic?_eq_some (named : op.mnemonic? = some name) :
    Numbered op name ∨ (op.byte, name) ∈ plainMnemonics := by
  unfold mnemonic? at named
  cases family : op.familyMnemonic? with
  | some word =>
    rw [family] at named
    cases named
    exact Or.inl (numbered_of_familyMnemonic? family)
  | none =>
    rw [family] at named
    exact Or.inr (mem_of_lookup named)

theorem eq_of_toNat_eq (same : op.byte.toNat = op'.byte.toNat) : op = op' := by
  cases op
  cases op'
  exact congrArg Opcode.mk (UInt8.toNat_inj.mp same)

/-- A mnemonic belongs to one opcode. -/
theorem eq_of_mnemonic? (named : op.mnemonic? = some name) (named' : op'.mnemonic? = some name) : op = op' := by
  rcases mnemonic?_eq_some named with numbered | plain
  · rcases mnemonic?_eq_some named' with numbered' | plain'
    · obtain ⟨family, known, k, word, byte, _⟩ := numbered
      obtain ⟨family', known', k', word', byte', _⟩ := numbered'
      obtain ⟨rfl, rfl⟩ := numbered_unique known known' (word.symm.trans word')
      exact eq_of_toNat_eq (byte.trans byte'.symm)
    · exact absurd plain' (not_mem_plainMnemonics_of_numbered numbered)
  · rcases mnemonic?_eq_some named' with numbered' | plain'
    · exact absurd plain (not_mem_plainMnemonics_of_numbered numbered')
    · have same := List.inj_on_of_nodup_map nodup_plainMnemonics plain plain' rfl
      exact eq_of_toNat_eq (congrArg (fun entry => entry.1.toNat) same)

theorem mem_all (op : Opcode) : op ∈ all := by
  refine List.mem_map.mpr ⟨op.byte.toNat, List.mem_range.mpr op.byte.toNat_lt, ?_⟩
  rw [UInt8.ofNat_toNat]

theorem ofMnemonic?_of_mnemonic? (named : op.mnemonic? = some name) : ofMnemonic? name = some op := by
  unfold ofMnemonic?
  cases found : all.find? fun op => op.mnemonic? = some name with
  | none =>
    have absent := List.find?_eq_none.mp found op (mem_all op)
    exact absurd (decide_eq_true named) absent
  | some op' =>
    have named' := List.find?_some found
    rw [eq_of_mnemonic? (of_decide_eq_true named') named]

/-! ## Bytes that are no instruction -/

theorem head?_unknownName (n : Int) : (unknownName n).toList.head? = some 'U' := by
  unfold unknownName
  rw [String.toList_append]
  simp

theorem head?_family : ∀ family ∈ numberedFamilies,
    ∃ letter, family.1.toList.head? = some letter ∧ letter ≠ 'U' := by
  simp [numberedFamilies]

theorem mnemonic?_ne_unknownName (op : Opcode) (n : Int) : op.mnemonic? ≠ some (unknownName n) := by
  intro named
  have first := head?_unknownName n
  rcases mnemonic?_eq_some named with ⟨family, known, k, word, _⟩ | plain
  · obtain ⟨letter, starts, other⟩ := head?_family family known
    rw [word, toList_numbered, List.head?_append, starts, Option.some_or] at first
    exact other (Option.some.inj first)
  · exact (spelling_of_mem_plainMnemonics _ plain).2.1 first

theorem ofMnemonic?_unknownName (n : Int) : ofMnemonic? (unknownName n) = none := by
  refine List.find?_eq_none.mpr ?_
  intro op _
  simpa using mnemonic?_ne_unknownName op n

/-- The opcode with a name, which is a mnemonic or tells the byte in two digits. -/
def ofName? (name : List Char) : Option Opcode :=
  (ofMnemonic? (String.ofList name)).or
    (match "UNKNOWN_0x".toList.isPrefixOf? name with
    | some [high, low] =>
      if Hex.isDigit high && Hex.isDigit low then some ⟨Hex.byteOfDigits high low⟩ else none
    | _ => none)

theorem toList_unknownName (op : Opcode) :
    (unknownName op.byte.toNat).toList = "UNKNOWN_0x".toList ++
      [Text.hexDigit (op.byte.toNat / 16), Text.hexDigit (op.byte.toNat % 16)] := by
  have positive : ¬((op.byte.toNat : Int) < 0) := by omega
  unfold unknownName signedHex
  rw [if_neg positive, Int.toNat_natCast, Text.paddedHex_two op.byte.toNat_lt, String.toList_append]
  exact congrArg (_ ++ ·) String.toList_ofList

/-- A name is read back as the opcode that has it. -/
@[simp]
theorem ofName?_name (op : Opcode) : ofName? op.name.toList = some op := by
  have bound := op.byte.toNat_lt
  unfold ofName? name
  rw [String.ofList_toList]
  cases named : op.mnemonic? with
  | some word => rw [Option.getD_some, ofMnemonic?_of_mnemonic? named, Option.some_or]
  | none =>
    have digits := List.isPrefixOf?_eq_some_iff_append_eq.mpr (toList_unknownName op).symm
    rw [Option.getD_none, ofMnemonic?_unknownName, Option.none_or, digits]
    simp only [Hex.isDigit_hexDigit (show op.byte.toNat / 16 < 16 by omega),
      Hex.isDigit_hexDigit (show op.byte.toNat % 16 < 16 by omega), Bool.and_self, if_true,
      Hex.byteOfDigits_hexDigit]

theorem blank_not_mem_family : ∀ family ∈ numberedFamilies, ' ' ∉ family.1.toList := by decide +kernel

theorem blank_not_mem_name (op : Opcode) : ' ' ∉ op.name.toList := by
  unfold name
  cases named : op.mnemonic? with
  | some word =>
    rw [Option.getD_some]
    rcases mnemonic?_eq_some named with ⟨family, known, k, rfl, _⟩ | plain
    · rw [toList_numbered, List.mem_append]
      rintro (letter | digit)
      · exact blank_not_mem_family family known letter
      · exact absurd (Nat.isDigit_of_mem_toDigits (by decide) (by decide) digit) (by decide)
    · exact (spelling_of_mem_plainMnemonics _ plain).1
  | none =>
    have bound := op.byte.toNat_lt
    have high := Text.hexDigit_ne_blank (op.byte.toNat / 16) (by omega)
    have low := Text.hexDigit_ne_blank (op.byte.toNat % 16) (by omega)
    rw [Option.getD_none, toList_unknownName]
    simp [high.symm, low.symm]

end AbiRecovery.Opcode
