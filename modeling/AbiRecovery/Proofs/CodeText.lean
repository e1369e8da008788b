import AbiRecovery.CodeInput
import AbiRecovery.Proofs.AddressText
import Mathlib.Data.List.DropRight

/-!
# How code is spelled

What is read as code is hexadecimal digits of either case, perhaps none, with a mark in front or without and between any
blanks, and nothing else (`code_of_text`). Where the number of digits is odd, a zero in front is missing. So the case, the
mark, the blanks and that zero are all in which two texts of one code differ.
-/
namespace AbiRecovery

namespace Text

/-- Whether a text consists of blanks. -/
def AllBlank (t : Text) : Prop := ∀ symbol ∈ t, symbol.isIn isBlank

instance (t : Text) : Decidable t.AllBlank := inferInstanceAs (Decidable (∀ symbol ∈ t, _))

/-- Whether a text spells code by its digits: between blanks, and with a mark in front or without. -/
structure SpellsCode (t : Text) (digits : List Char) : Prop where
  framed : ∃ front back, AllBlank front ∧ AllBlank back ∧
    ∃ mark ∈ digitMarks, t = front ++ ofChars (mark ++ digits) ++ back
  digits : ∀ c ∈ digits, c ∈ "0123456789abcdefABCDEF".toList

/-! ## Blanks around a text -/

/-- Only blanks are taken away around a text. -/
theorem exists_frame_trim (t : Text) : ∃ front back, AllBlank front ∧ AllBlank back ∧ t = front ++ trim t ++ back := by
  let rest := t.dropWhile (Symbol.isIn isBlank)
  have whole : t.takeWhile (Symbol.isIn isBlank) ++ rest = t := List.takeWhile_append_dropWhile
  have ended : trim t ++ rest.rtakeWhile (Symbol.isIn isBlank) = rest := List.rdropWhile_append_rtakeWhile ..
  refine ⟨t.takeWhile (Symbol.isIn isBlank), rest.rtakeWhile (Symbol.isIn isBlank), ?_, ?_, ?_⟩
  · exact fun symbol member => List.mem_takeWhile_imp member
  · exact fun symbol member => List.mem_rtakeWhile_imp member
  · rw [List.append_assoc, ended, whole]

/-- All blanks around a text without blanks are taken away. -/
theorem trim_append {front core back : Text} (before : AllBlank front) (after : AllBlank back)
    (kept : ∀ symbol ∈ core, symbol.isIn isBlank = false) : trim (front ++ core ++ back) = core := by
  unfold trim trimOf
  rw [List.append_assoc, List.dropWhile_append_of_pos before]
  by_cases empty : core = []
  · rw [empty, List.nil_append, List.dropWhile_eq_nil_iff.mpr after]
    rfl
  · obtain ⟨first, rest, rfl⟩ := List.exists_cons_of_ne_nil empty
    have started : (first :: rest ++ back).dropWhile (Symbol.isIn isBlank) = first :: rest ++ back :=
      List.dropWhile_cons_of_neg (by simp [kept])
    have ended : (first :: rest).rdropWhile (Symbol.isIn isBlank) = first :: rest := by
      rw [List.rdropWhile_eq_self_iff]
      intro nonempty
      simp [kept _ (List.getLast_mem nonempty)]
    have reversed : ∀ symbol ∈ back.reverse, symbol.isIn isBlank := fun symbol member => after symbol (List.mem_reverse.mp member)
    rw [started, List.reverse_append, List.dropWhile_append_of_pos reversed]
    exact ended

end Text

namespace Hex

open Text

/-! ## Digits -/

theorem isBlank_of_isDigit {c : Char} (digit : isDigit c) : Text.isBlank c = false := by
  have small := lt_of_isDigit digit
  have all : ∀ n < 128, isDigit (Char.ofNat n) → Text.isBlank (Char.ofNat n) = false := by decide
  rw [← Char.ofNat_toNat c] at digit ⊢
  exact all _ small digit

theorem isBlank_of_mem_mark {mark : List Char} (known : mark ∈ digitMarks) {c : Char} (member : c ∈ mark) :
    Text.isBlank c = false := by
  have none : digitMarks.all (List.all · fun c => !Text.isBlank c) := by decide
  simpa using List.all_eq_true.mp (List.all_eq_true.mp none mark known) c member

/-- The digits of a text that spells code are what is left of it without blanks and mark. -/
theorem digits?_trim_eq_some_iff {t : Text} {digits : List Char} : digits? t.trim = some digits ↔ t.SpellsCode digits := by
  rw [digits?_eq_some_iff]
  simp only [isDigit_iff]
  constructor
  · rintro ⟨⟨mark, known, trimmed⟩, hex⟩
    obtain ⟨front, back, before, after, whole⟩ := exists_frame_trim t
    exact ⟨⟨front, back, before, after, mark, known, trimmed ▸ whole⟩, hex⟩
  · rintro ⟨⟨front, back, before, after, mark, known, rfl⟩, hex⟩
    refine ⟨⟨mark, known, trim_append before after fun symbol member => ?_⟩, hex⟩
    obtain ⟨c, written, rfl⟩ := List.mem_map.mp member
    rcases List.mem_append.mp written with inMark | inDigits
    · exact isBlank_of_mem_mark known inMark
    · exact isBlank_of_isDigit (isDigit_iff.mpr (hex c inDigits))

/-- Digits with one zero in front, if their number is odd. -/
def completed (digits : List Char) : List Char := if digits.length % 2 = 0 then digits else '0' :: digits

theorem even_length_completed (digits : List Char) : (completed digits).length % 2 = 0 := by
  unfold completed
  split
  next even => exact even
  next odd =>
    rw [List.length_cons]
    omega

theorem completed_map_toLower (digits : List Char) : completed (digits.map Char.toLower) = (completed digits).map Char.toLower := by
  unfold completed
  rw [List.length_map]
  split <;> rfl

theorem hexValue?_toLower : ∀ c : Char, hexValue? c.toLower = hexValue? c :=
  forall_char _ (by decide) fun c large => by rw [toLower_of_large large]

/-- The bytes of digits do not depend on the case. -/
theorem bytesOfPairs_map_toLower (cs : List Char) : bytesOfPairs (cs.map Char.toLower) = bytesOfPairs cs := by
  fun_induction bytesOfPairs cs with
  | case1 high low rest ih =>
    have same : byteOfDigits high.toLower low.toLower = byteOfDigits high low := by
      unfold byteOfDigits
      rw [hexValue?_toLower, hexValue?_toLower]
    rw [List.map_cons, List.map_cons, bytesOfPairs, same, ih]
  | case2 cs short =>
    rcases cs with _ | ⟨high, _ | ⟨low, rest⟩⟩
    · rfl
    · rfl
    · exact absurd rfl (short high low rest)

/-- Digits that are read as bytes are written again in lower case, with the zero that has been missing. -/
theorem digits_bytesOfDigits {cs : List Char} (hex : ∀ c ∈ cs, isDigit c) :
    digits (bytesOfDigits cs) = completed (cs.map Char.toLower) := by
  have lower : ∀ c ∈ completed (cs.map Char.toLower), ∃ n < 16, c = hexDigit n := by
    have listed : ∀ c ∈ cs.map Char.toLower, ∃ n < 16, c = hexDigit n := by
      intro c member
      obtain ⟨d, known, rfl⟩ := List.mem_map.mp member
      exact Address.toLower_of_isDigit (hex d known)
    unfold completed
    split
    · exact listed
    · exact List.forall_mem_cons.mpr ⟨⟨0, by decide, rfl⟩, listed⟩
  calc
    digits (bytesOfDigits cs) = digits (bytesOfPairs (completed (cs.map Char.toLower))) := by
      rw [completed_map_toLower, bytesOfPairs_map_toLower]
      rfl
    _ = completed (cs.map Char.toLower) := Address.digits_bytesOfPairs _ lower (even_length_completed _)

end Hex

namespace CodeInput

open Text Hex

/-! ## Code in a text -/

variable {t : Text} {digits : List Char}

theorem codeOfText_of_spellsCode (spelled : t.SpellsCode digits) : codeOfText t = .ok (bytesOfDigits digits) := by
  unfold codeOfText
  dsimp only
  rw [digits?_trim_eq_some_iff.mpr spelled]

theorem codeOfText_of_not_spellsCode (unspelled : ¬∃ digits, t.SpellsCode digits) : codeOfText t = .error (.notHex t.trim) := by
  have none : digits? t.trim = none := by
    rw [Option.eq_none_iff_forall_ne_some]
    exact fun digits read => unspelled ⟨digits, digits?_trim_eq_some_iff.mp read⟩
  unfold codeOfText
  dsimp only
  rw [none]

theorem isDigit_of_spellsCode (spelled : t.SpellsCode digits) : ∀ c ∈ digits, isDigit c :=
  fun c member => isDigit_iff.mpr (spelled.digits c member)

/-- What is read from a text is the code that it spells. -/
theorem codeOfText_eq_ok_iff (spelled : t.SpellsCode digits) {code : Bytes} :
    codeOfText t = .ok code ↔ Hex.digits code = completed (digits.map Char.toLower) := by
  rw [codeOfText_of_spellsCode spelled, ← digits_bytesOfDigits (isDigit_of_spellsCode spelled), Except.ok.injEq]
  exact ⟨fun same => same ▸ rfl, fun same => (digits_injective same).symm⟩

/-- Each rendering of bytes by their digits spells them: in any case, with any mark, and between any blanks. -/
theorem spellsCode_of_rendering {bytes : Bytes} {front back : Text} {mark : List Char} (before : AllBlank front)
    (after : AllBlank back) (known : mark ∈ digitMarks) (lower : digits.map Char.toLower = Hex.digits bytes) :
    SpellsCode (front ++ ofChars (mark ++ digits) ++ back) digits := by
  refine ⟨⟨front, back, before, after, mark, known, rfl⟩, fun c member => ?_⟩
  have listed : c.toLower ∈ Hex.digits bytes := lower ▸ List.mem_map_of_mem member
  obtain ⟨n, small, same⟩ := exists_hexDigit_of_mem_digits listed
  rw [← isDigit_iff, ← isDigit_toLower, same]
  exact isDigit_hexDigit small

theorem map_toLower_digits (bytes : Bytes) : (Hex.digits bytes).map Char.toLower = Hex.digits bytes := by
  have kept : ∀ n < 16, (hexDigit n).toLower = hexDigit n := by decide
  have each : ∀ c ∈ Hex.digits bytes, c.toLower = id c := by
    intro c member
    obtain ⟨n, small, rfl⟩ := exists_hexDigit_of_mem_digits member
    exact kept n small
  rw [List.map_congr_left each, List.map_id]

theorem completed_digits (bytes : Bytes) : completed (Hex.digits bytes) = Hex.digits bytes := by
  unfold completed
  rw [if_pos (by rw [length_digits]; omega)]

/-- A text is read as code just if it spells code, and else refused as no hexadecimal text. What is read has the digits that
are spelled, in lower case, with one zero in front if their number is odd. So each rendering of bytes in hexadecimal is read
as those bytes, the one that the program itself writes among them; and two texts that spell code are the same code just if
their digits are the same but for the case and that zero. -/
theorem code_of_text (t : Text) :
    ((∃ code, (CodeInput.text t).code = .ok code) ↔ ∃ digits, t.SpellsCode digits) ∧
    ((CodeInput.text t).code = .error (.notHex t.trim) ↔ ¬∃ digits, t.SpellsCode digits) ∧
    (∀ code digits, t.SpellsCode digits →
      ((CodeInput.text t).code = .ok code ↔ Hex.digits code = completed (digits.map Char.toLower))) ∧
    (∀ bytes front back digits, ∀ mark ∈ digitMarks, AllBlank front → AllBlank back →
      digits.map Char.toLower = Hex.digits bytes → t = front ++ ofChars (mark ++ digits) ++ back →
      (CodeInput.text t).code = .ok bytes) ∧
    (∀ bytes, t = Hex.encodeMarked bytes → (CodeInput.text t).code = .ok bytes) ∧
    ∀ t' digits digits', t.SpellsCode digits → t'.SpellsCode digits' →
      ((CodeInput.text t).code = (CodeInput.text t').code ↔
        completed (digits.map Char.toLower) = completed (digits'.map Char.toLower)) := by
  have rendered (bytes : Bytes) (front back : Text) (digits mark : List Char) (known : mark ∈ digitMarks)
      (before : AllBlank front) (after : AllBlank back) (lower : digits.map Char.toLower = Hex.digits bytes)
      (written : t = front ++ ofChars (mark ++ digits) ++ back) : (CodeInput.text t).code = .ok bytes := by
    subst written
    exact (codeOfText_eq_ok_iff (spellsCode_of_rendering before after known lower)).mpr (by rw [lower, completed_digits])
  refine ⟨⟨?_, ?_⟩, ⟨?_, codeOfText_of_not_spellsCode⟩, fun code digits spelled => codeOfText_eq_ok_iff spelled, ?_, ?_, ?_⟩
  · rintro ⟨code, read⟩
    by_contra unspelled
    cases (codeOfText_of_not_spellsCode unspelled).symm.trans read
  · rintro ⟨digits, spelled⟩
    exact ⟨_, codeOfText_of_spellsCode spelled⟩
  · rintro refused ⟨digits, spelled⟩
    cases (codeOfText_of_spellsCode spelled).symm.trans refused
  · intro bytes front back digits mark known before after lower written
    exact rendered bytes front back digits mark known before after lower written
  · intro bytes written
    refine rendered bytes [] [] (Hex.digits bytes) ['0', 'x'] (by decide) nofun nofun (map_toLower_digits bytes) ?_
    rw [written, List.nil_append, List.append_nil]
    rfl
  · intro t' digits digits' spelled spelled'
    show codeOfText t = codeOfText t' ↔ _
    rw [codeOfText_of_spellsCode spelled', codeOfText_eq_ok_iff spelled,
      digits_bytesOfDigits (isDigit_of_spellsCode spelled'), eq_comm]

/-- A mark, both cases, and an odd number of digits between blanks. -/
example : (CodeInput.text " 0XaB1\n").code = .ok [0x0A, 0xB1] := by rfl

end CodeInput

end AbiRecovery
