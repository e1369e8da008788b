import AbiRecovery.Proofs.CodeText
import AbiRecovery.Proofs.SessionOutput

/-!
# Code in a file

A file that holds an ASCII text means the code that the text spells, as if the text had been handed in itself, and every
other file means its bytes, blanks included (`file_means_text`). Only a text of blanks parts the two ways: handed in it is
the empty code, and in a file it is its bytes (`blank_file_means_bytes`).
-/
namespace AbiRecovery

namespace Text

/-- Whether a text consists of ASCII characters. -/
def IsAscii (t : Text) : Prop := ∀ symbol ∈ t, symbol.isIn (·.toNat < 128)

instance (t : Text) : Decidable t.IsAscii := inferInstanceAs (Decidable (∀ symbol ∈ t, _))

/-! ## Texts of ASCII characters in bytes -/

theorem encodeUtf8_ofChars (cs : List Char) : encodeUtf8 (ofChars cs) = .ok (cs.flatMap String.utf8EncodeChar) := by
  have no_fault : halfFault? (fun _ => false) 0 (ofChars cs) = none := by
    rw [halfFault?_eq_none]
    exact hasBytes_iff.mp (hasBytes_ofChars cs)
  unfold encodeUtf8
  rw [no_fault]
  simp only [ofChars, List.flatMap_map]
  rfl

/-- The byte of an ASCII character. -/
def asciiByte (c : Char) : UInt8 := UInt8.ofNat c.toNat

theorem asciiByte_of_ascii {c : Char} (ascii : c.toNat < 128) :
    String.utf8EncodeChar c = [asciiByte c] ∧ asciiByte c < 0x80 ∧ Char.ofNat (asciiByte c).toNat = c := by
  have value : (asciiByte c).toNat = c.toNat := UInt8.toNat_ofNat_of_lt' (Nat.lt_trans ascii (by decide))
  refine ⟨if_pos (Nat.le_of_lt_succ ascii), ?_, ?_⟩
  · rw [UInt8.lt_iff_toNat_lt, value]
    exact ascii
  · rw [value, Char.ofNat_toNat]

theorem asciiByte_ofNat : ∀ byte : UInt8, byte < 0x80 →
    (Char.ofNat byte.toNat).toNat < 128 ∧ asciiByte (Char.ofNat byte.toNat) = byte := by
  intro byte ascii
  have small : byte.toNat < 128 := UInt8.lt_iff_toNat_lt.mp ascii
  have value : (Char.ofNat byte.toNat).toNat = byte.toNat :=
    (by decide : ∀ n < 128, (Char.ofNat n).toNat = n) _ small
  refine ⟨by rwa [value], ?_⟩
  unfold asciiByte
  rw [value, UInt8.ofNat_toNat]

theorem isAscii_ofChars {cs : List Char} : IsAscii (ofChars cs) ↔ ∀ c ∈ cs, c.toNat < 128 := by
  simp [IsAscii, ofChars, Symbol.isIn]

/-- A text of ASCII characters consists of characters. -/
theorem IsAscii.exists_chars {t : Text} (ascii : t.IsAscii) : ∃ cs, t = ofChars cs := by
  induction t with
  | nil => exact ⟨[], rfl⟩
  | cons symbol t ih =>
    obtain ⟨first, rest⟩ := List.forall_mem_cons.mp ascii
    obtain ⟨cs, rfl⟩ := ih rest
    cases symbol with
    | char c => exact ⟨c :: cs, rfl⟩
    | half place => cases first

theorem flatMap_utf8EncodeChar {cs : List Char} (ascii : ∀ c ∈ cs, c.toNat < 128) :
    cs.flatMap String.utf8EncodeChar = cs.map asciiByte := by
  induction cs with
  | nil => rfl
  | cons c cs ih =>
    obtain ⟨first, rest⟩ := List.forall_mem_cons.mp ascii
    rw [List.flatMap_cons, (asciiByte_of_ascii first).1, ih rest]
    rfl

/-- Bytes are read as ASCII just if they are the bytes of an ASCII text, and then as that text. -/
theorem decodeAscii?_eq_some_iff {bytes : List UInt8} {cs : List Char} :
    decodeAscii? bytes = some cs ↔ IsAscii (ofChars cs) ∧ encodeUtf8 (ofChars cs) = .ok bytes := by
  rw [isAscii_ofChars, encodeUtf8_ofChars, Except.ok.injEq]
  unfold decodeAscii?
  constructor
  · intro read
    split at read
    next all =>
      have small : ∀ byte ∈ bytes, byte < 0x80 := fun byte member => of_decide_eq_true (List.all_eq_true.mp all byte member)
      obtain rfl := Option.some.inj read
      have ascii : ∀ c ∈ bytes.map (fun byte => Char.ofNat byte.toNat), c.toNat < 128 :=
        List.forall_mem_map.mpr fun byte member => (asciiByte_ofNat byte (small byte member)).1
      refine ⟨ascii, ?_⟩
      rw [flatMap_utf8EncodeChar ascii, List.map_map]
      exact (List.map_congr_left fun byte member => (asciiByte_ofNat byte (small byte member)).2).trans (List.map_id _)
    next => cases read
  · rintro ⟨ascii, rfl⟩
    have all : (cs.map asciiByte).all (· < 0x80) := by
      rw [List.all_map, List.all_eq_true]
      exact fun c member => decide_eq_true (asciiByte_of_ascii (ascii c member)).2.1
    rw [flatMap_utf8EncodeChar ascii, List.map_map, if_pos all]
    exact congrArg some
      ((List.map_congr_left fun c member => (asciiByte_of_ascii (ascii c member)).2.2).trans (List.map_id _))

/-- Nothing is left of a text without the blanks around it just if all of it is blank. -/
theorem trim_eq_nil_iff {t : Text} : t.trim = [] ↔ t.AllBlank := by
  constructor
  · intro nothing
    obtain ⟨front, back, before, after, whole⟩ := exists_frame_trim t
    rw [nothing, List.append_nil] at whole
    rw [whole]
    exact fun symbol member => (List.mem_append.mp member).elim (before symbol) (after symbol)
  · intro blank
    have framed : trim (t ++ [] ++ []) = [] := trim_append blank nofun nofun
    rwa [List.append_nil, List.append_nil] at framed

theorem SpellsCode.trim {t : Text} {digits : List Char} (spelled : t.SpellsCode digits) : t.trim.SpellsCode digits := by
  obtain ⟨⟨mark, known, trimmed⟩, -⟩ := Hex.digits?_eq_some_iff.mp (Hex.digits?_trim_eq_some_iff.mpr spelled)
  exact ⟨⟨[], [], nofun, nofun, mark, known, by rw [trimmed, List.nil_append, List.append_nil]⟩, spelled.digits⟩

end Text

namespace CodeInput

open Text

/-! ## How the content of a file is meant -/

variable {t : Text} {digits : List Char} {content : Bytes}

/-- An ASCII text that spells code and is not blank is meant as a text. -/
theorem ofFile_of_text (ascii : t.IsAscii) (held : encodeUtf8 t = .ok content) (spelled : t.SpellsCode digits)
    (visible : ¬t.AllBlank) : ofFile content = .text t.trim := by
  obtain ⟨cs, rfl⟩ := ascii.exists_chars
  have nonempty : (trim (ofChars cs)).isEmpty = false := by
    rw [List.isEmpty_eq_false_iff]
    exact mt trim_eq_nil_iff.mp visible
  unfold ofFile
  rw [decodeAscii?_eq_some_iff.mpr ⟨ascii, held⟩]
  dsimp only
  rw [nonempty, Hex.digits?_trim_eq_some_iff.mpr spelled]
  rfl

/-- What is no such text is meant as bytes. -/
theorem ofFile_of_bytes
    (other : ∀ t, IsAscii t → encodeUtf8 t = .ok content → (∃ digits, t.SpellsCode digits) → t.AllBlank) :
    ofFile content = .bytes content := by
  unfold ofFile
  cases read : decodeAscii? content with
  | none => rfl
  | some cs =>
    obtain ⟨ascii, held⟩ := decodeAscii?_eq_some_iff.mp read
    dsimp only
    refine if_neg fun meant => ?_
    obtain ⟨nonempty, known⟩ := Bool.and_eq_true_iff.mp meant
    obtain ⟨digits, known⟩ := Option.isSome_iff_exists.mp known
    have blank := other _ ascii held ⟨digits, Hex.digits?_trim_eq_some_iff.mp known⟩
    rw [trim_eq_nil_iff.mpr blank] at nonempty
    cases nonempty

/-- Blanks around a text that spells code do not count. -/
theorem load_trim (limit : Int) (spelled : t.SpellsCode digits) : load limit (.text t.trim) = load limit (.text t) := by
  have same : (CodeInput.text t.trim).code = (CodeInput.text t).code :=
    (codeOfText_of_spellsCode spelled.trim).trans (codeOfText_of_spellsCode spelled).symm
  unfold load
  rw [same]

end CodeInput

namespace Tool

open Text CodeInput

variable {s : Session} {path : Text} {content : Bytes}

/-- The code in a file is what its content is meant as, within the limit. -/
theorem perform_codeFromFile (held : s.files.read (Location.ofText path) = .ok content) :
    perform (codeFromFile path) s = (((ofFile content).load s.settings.maxCodeBytes).mapError .code, s) := by
  unfold codeFromFile
  rw [perform_bind_ok (perform_get s), held, perform_bind_ok (perform_ofExcept _ _ _), perform_ofExcept]

/-- A file that holds an ASCII text that spells code comes to the same as the text itself, the same code or the same
refusal, unless the text is made of blanks alone. A file that holds no ASCII text that spells code, or blanks alone,
comes to the same as its bytes, of which none is dropped. -/
theorem file_means_text (held : s.files.read (Location.ofText path) = .ok content) :
    (∀ t, IsAscii t → encodeUtf8 t = .ok content → (∃ digits, t.SpellsCode digits) → (t.AllBlank → t = []) →
      perform (codeFromFile path) s = (((CodeInput.text t).load s.settings.maxCodeBytes).mapError .code, s)) ∧
    ((∀ t, IsAscii t → encodeUtf8 t = .ok content → (∃ digits, t.SpellsCode digits) → t.AllBlank) →
      perform (codeFromFile path) s = (((CodeInput.bytes content).load s.settings.maxCodeBytes).mapError .code, s)) := by
  rw [perform_codeFromFile held]
  constructor
  · rintro t ascii same ⟨digits, spelled⟩ only_empty
    by_cases blank : t.AllBlank
    · obtain rfl := only_empty blank
      obtain rfl : [] = content := Except.ok.inj same
      rfl
    · rw [ofFile_of_text ascii same spelled blank, load_trim _ spelled]
  · intro other
    rw [ofFile_of_bytes other]

/-- A session with a file. -/
def withCode (content : Bytes) : Session :=
  .start (Settings.ofEnvironment []) (FileTree.empty.add ["code"] (.file content)) ⟨fun _ _ => .code []⟩ 0

/-- A file with digits between blanks, after a mark and of both cases, and one with a byte that is not ASCII. -/
theorem file_means_text_of_two :
    (perform (codeFromFile "code") (withCode [0x20, 0x30, 0x58, 0x61, 0x42, 0x31, 0x0A])).1 =
        ((CodeInput.text " 0XaB1\n").load 49152).mapError .code ∧
      (perform (codeFromFile "code") (withCode [0x20, 0xFF, 0x0A])).1 = .ok [0x20, 0xFF, 0x0A] := by
  have held (content : Bytes) : (withCode content).files.read (Location.ofText "code") = .ok content := by rfl
  have spelled : Text.SpellsCode " 0XaB1\n" ['a', 'B', '1'] := Hex.digits?_trim_eq_some_iff.mp (by decide)
  have unread : decodeAscii? [0x20, 0xFF, 0x0A] = none := by decide
  constructor
  · rw [(file_means_text (held _)).1 " 0XaB1\n" (by decide) (by decide) ⟨_, spelled⟩ (by decide)]
    rfl
  · refine congrArg Prod.fst ((file_means_text (held [0x20, 0xFF, 0x0A])).2 fun t ascii same _ => ?_)
    obtain ⟨cs, rfl⟩ := ascii.exists_chars
    cases unread.symm.trans (decodeAscii?_eq_some_iff.mpr ⟨ascii, same⟩)

/-- A line end is the empty code where it is handed in as a text, and one byte of code where it stands in a file. -/
theorem blank_file_means_bytes :
    let s := withCode [0x0A]
    Text.IsAscii "\n" ∧ encodeUtf8 "\n" = .ok [0x0A] ∧ Text.SpellsCode "\n" [] ∧
      s.files.read (Location.ofText "code") = .ok [0x0A] ∧
      ((CodeInput.text "\n").load s.settings.maxCodeBytes) = .ok [] ∧ (perform (codeFromFile "code") s).1 = .ok [0x0A] := by
  intro s
  exact ⟨by decide, by decide, Hex.digits?_trim_eq_some_iff.mp (by decide), by rfl, by rfl, by rfl⟩

end Tool

end AbiRecovery
