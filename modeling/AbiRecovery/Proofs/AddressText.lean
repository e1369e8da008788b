import AbiRecovery.Proofs.StoreKeys

/-!
# How addresses are spelled

What is read as an address is forty hexadecimal digits of either case, with a mark in front or without, and nothing else
(`ofText_eq_ok_iff`). Two texts spell one address if their digits are the same but for the case.
-/
namespace AbiRecovery

namespace Text

/-- The marks that may stand in front of digits; the first is none. -/
def digitMarks : List (List Char) := [[], ['0', 'x'], ['0', 'X']]

/-- Whether a text spells an address by its digits. -/
structure SpellsAddress (t : Text) (digits : List Char) : Prop where
  marked : ∃ mark ∈ digitMarks, t = ofChars (mark ++ digits)
  width : digits.length = 40
  digits : ∀ c ∈ digits, c ∈ "0123456789abcdefABCDEF".toList

/-- Whether a text is an address. -/
def IsAddress (t : Text) : Prop := ∃ digits, t.SpellsAddress digits

/-- Whether two texts are the same address. -/
def SameAddress (t u : Text) : Prop :=
  ∃ digits digits', t.SpellsAddress digits ∧ u.SpellsAddress digits' ∧ digits.map Char.toLower = digits'.map Char.toLower

end Text

/-- A text that has characters consists of them. -/
theorem Text.eq_ofChars_of_chars? {t : Text} {cs : List Char} (written : chars? t = some cs) : t = ofChars cs := by
  unfold chars? at written
  induction t generalizing cs with
  | nil => cases written; rfl
  | cons symbol t ih =>
    simp only [List.mapM_cons, Option.bind_eq_bind, Option.pure_def, Option.bind_eq_some_iff, Option.some.injEq] at written
    obtain ⟨c, first, rest, later, rfl⟩ := written
    cases symbol with
    | half place => cases first
    | char d =>
      cases first
      rw [ih later]
      rfl

namespace Hex

theorem isDigit_eq_contains : ∀ c, isDigit c = "0123456789abcdefABCDEF".toList.contains c := by
  refine forall_char _ (by decide +kernel) fun c large => ?_
  have ascii : "0123456789abcdefABCDEF".toList.all (fun d => d.toNat < 128) := by decide
  rw [Bool.eq_iff_iff, List.contains_iff_mem]
  exact iff_of_false (fun digit => large (lt_of_isDigit digit)) fun listed =>
    large (of_decide_eq_true (List.all_eq_true.mp ascii c listed))

theorem isDigit_iff {c : Char} : isDigit c ↔ c ∈ "0123456789abcdefABCDEF".toList := by
  rw [isDigit_eq_contains, List.contains_iff_mem]

/-- The mark can be taken away, if digits follow. -/
theorem withoutMark_append {mark digits : List Char} (known : mark ∈ Text.digitMarks)
    (hex : ∀ c ∈ digits, isDigit c) : withoutMark (mark ++ digits) = digits := by
  have no_mark : isDigit 'x' = false ∧ isDigit 'X' = false := by decide
  simp only [Text.digitMarks, List.mem_cons, List.not_mem_nil, or_false] at known
  rcases known with rfl | rfl | rfl
  case inr.inl => rfl
  case inr.inr => rfl
  match digits with
  | [] => rfl
  | [c] => exact withoutMark_singleton c
  | first :: second :: rest =>
    rw [List.nil_append, withoutMark_cons_cons, if_neg]
    rintro ⟨-, rfl | rfl⟩
    · simp [no_mark] at hex
    · simp [no_mark] at hex

/-- A mark is all that is taken away. -/
theorem exists_mark (cs : List Char) : ∃ mark ∈ Text.digitMarks, cs = mark ++ withoutMark cs := by
  unfold withoutMark
  split
  · exact ⟨['0', 'x'], by decide, rfl⟩
  · exact ⟨['0', 'X'], by decide, rfl⟩
  · exact ⟨[], by decide, rfl⟩

/-- The digits of a text are what follows its mark. -/
theorem digits?_eq_some_iff {t : Text} {digits : List Char} :
    digits? t = some digits ↔ (∃ mark ∈ Text.digitMarks, t = Text.ofChars (mark ++ digits)) ∧ ∀ c ∈ digits, isDigit c := by
  unfold digits?
  rw [Option.filter_eq_some_iff, Option.map_eq_some_iff, List.all_eq_true]
  constructor
  · rintro ⟨⟨cs, written, rfl⟩, hex⟩
    obtain ⟨mark, known, split⟩ := exists_mark cs
    exact ⟨⟨mark, known, split ▸ Text.eq_ofChars_of_chars? written⟩, hex⟩
  · rintro ⟨⟨mark, known, rfl⟩, hex⟩
    exact ⟨⟨_, Text.chars?_ofChars _, withoutMark_append known hex⟩, hex⟩

end Hex

namespace Address

open Text

/-- Just what spells an address is read as one. -/
theorem ofText_eq_ok_iff {t : Text} {address : Address} :
    ofText t = .ok address ↔ ∃ digits, t.SpellsAddress digits ∧ address.digits = digits.map Char.toLower := by
  have read (digits : List Char) : Hex.digits? t = some digits ∧ digits.length = width ↔ t.SpellsAddress digits := by
    rw [Hex.digits?_eq_some_iff]
    simp only [Hex.isDigit_iff]
    exact ⟨fun ⟨⟨marked, hex⟩, long⟩ => ⟨marked, long, hex⟩, fun ⟨marked, long, hex⟩ => ⟨⟨marked, hex⟩, long⟩⟩
  simp only [← read]
  unfold ofText
  cases known : Hex.digits? t with
  | none => simp
  | some digits =>
    dsimp only
    rw [List.length_map]
    by_cases long : digits.length = width
    · rw [if_pos long, Except.ok.injEq]
      constructor
      · rintro rfl
        exact ⟨digits, ⟨rfl, long⟩, rfl⟩
      · rintro ⟨_, ⟨same, -⟩, lowered⟩
        cases same
        exact congrArg Address.mk lowered.symm
    · simp [long]

end Address

end AbiRecovery
