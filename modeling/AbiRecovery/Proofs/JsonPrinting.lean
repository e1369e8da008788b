import AbiRecovery.Json.Printer
import AbiRecovery.Proofs.JsonReading

/-!
# What the JSON printer writes

Everything on one line, a value without fractions and with numbers that are not too long is written as a text that spells
it, and that has no control character, whatever is in the strings. So what is written is read back.
-/
namespace AbiRecovery.Json

open Text

/-- Everything on one line; characters outside ASCII stay as they are. -/
def Style.oneLine : Style := ⟨false, none⟩

/-- Values with whole numbers only, none of which is too long, and without a key that stands twice in an object. -/
inductive Exact : Json → Prop where
  | null : Exact .null
  | bool {b : Bool} : Exact (.bool b)
  | int {n : Int} (short : IsShort n) : Exact (.int n)
  | str {t : Text} : Exact (.str t)
  | arr {items : List Json} (each : ∀ item ∈ items, Exact item) : Exact (.arr items)
  | obj {members : List (Text × Json)} (each : ∀ entry ∈ members, Exact entry.2)
      (distinct : (members.map Prod.fst).Nodup) : Exact (.obj members)

/-- Whether a text has no control character. -/
def Visible (t : Text) : Prop := ∀ symbol ∈ t, 0x20 ≤ symbol.toNat

instance (t : Text) : Decidable (Visible t) := inferInstanceAs (Decidable (∀ symbol ∈ t, 0x20 ≤ symbol.toNat))

theorem Visible.append {t u : Text} (first : Visible t) (second : Visible u) : Visible (t ++ u) :=
  List.forall_mem_append.mpr ⟨first, second⟩

theorem Visible.cons {symbol : Symbol} {t : Text} (first : 0x20 ≤ symbol.toNat) (others : Visible t) :
    Visible (symbol :: t) :=
  List.forall_mem_cons.mpr ⟨first, others⟩

theorem visible_ofChars {cs : List Char} (each : ∀ c ∈ cs, 0x20 ≤ c.toNat) : Visible (ofChars cs) :=
  List.forall_mem_map.mpr each

/-! ## Strings -/

theorem length_hexNumeral_le {width n : Nat} (small : n < 16 ^ (width + 1)) : (hexNumeral n).length ≤ width + 1 := by
  induction width generalizing n with
  | zero =>
    rw [hexNumeral, if_pos (by omega)]
    exact Nat.le_refl 1
  | succ width ih =>
    unfold hexNumeral
    split
    · simp
    · rw [List.length_append]
      exact Nat.succ_le_succ (ih (Nat.div_lt_of_lt_mul (by omega)))

/-- The four digits that are written for a unit. -/
theorem isUnit_paddedHex {n : Nat} (small : n < 0x10000) : IsUnit (paddedHex 4 n) n where
  width := by
    have fits : (hexNumeral n).length ≤ 4 := length_hexNumeral_le small
    unfold paddedHex padLeft
    rw [List.length_append, List.length_replicate, Nat.sub_add_cancel fits]
  hex := by
    intro c member
    obtain ⟨d, small, rfl⟩ := exists_hexDigit_of_mem_paddedHex member
    exact Hex.isDigit_hexDigit small
  value := hexNumber_paddedHex 4 n

/-- What is written for a symbol of a string means that symbol. -/
theorem spellsText_renderSymbol (symbol : Symbol) {t meant : Text} (rest : SpellsText t meant) :
    SpellsText (renderSymbol false symbol ++ t) (symbol :: meant) := by
  cases symbol with
  | half place => exact .plain nofun nofun (Nat.le_trans (by decide) (Nat.le_add_right firstHalf place.val)) rest
  | char c =>
    show SpellsText (ofChars (renderChar false c) ++ t) _
    unfold renderChar
    split
    next quoted =>
      rcases (Bool.or_eq_true _ _).mp quoted with quote | backslash
      · obtain rfl := of_decide_eq_true quote
        exact .short (by decide) rest
      · obtain rfl := of_decide_eq_true backslash
        exact .short (by decide) rest
    next unquoted =>
    obtain ⟨notQuote, notBackslash⟩ : c ≠ '"' ∧ c ≠ '\\' := by simpa using unquoted
    split
    next same => exact same ▸ .short (by decide) rest
    split
    next same => exact same ▸ .short (by decide) rest
    split
    next same => exact same ▸ .short (by decide) rest
    split
    next same => exact same ▸ .short (by decide) rest
    split
    next same => exact same ▸ .short (by decide) rest
    split
    next control =>
      have small : c.toNat < 0x20 := by simpa using control
      have escape : numericEscape c = unitEscape c.toNat := if_pos (Nat.lt_trans small (by decide))
      have same : Symbol.ofNat c.toNat = .char c := by
        unfold Symbol.ofNat
        rw [dif_neg (by unfold firstHalf; omega), Char.ofNat_toNat]
      rw [escape, ← same]
      exact .unit (isUnit_paddedHex (by omega)) (fun high => absurd high.1 (by omega)) rest
    next visible =>
      have visible : 0x20 ≤ c.toNat := by simpa using visible
      exact .plain (by simpa using notQuote) (by simpa using notBackslash) visible rest

theorem spellsText_flatMap (t : Text) : SpellsText (t.flatMap (renderSymbol false)) t := by
  induction t with
  | nil => exact .nil
  | cons symbol t ih => exact spellsText_renderSymbol symbol ih

theorem visible_numericSpelling {digits : List Char} {unit : Nat} (number : IsUnit digits unit) :
    Visible (numericSpelling digits) := by
  refine visible_ofChars (List.forall_mem_cons.mpr ⟨by decide, List.forall_mem_cons.mpr ⟨by decide, ?_⟩⟩)
  intro c member
  have below : ∀ n < 0x20, ¬Hex.isDigit (Char.ofNat n) := by decide
  refine Nat.le_of_not_lt fun small => below c.toNat small ?_
  rw [Char.ofNat_toNat]
  exact number.hex c member

/-- No control character stands in a string as it is. -/
theorem SpellsText.visible {t meant : Text} (spelled : SpellsText t meant) : Visible t := by
  induction spelled with
  | nil => exact nofun
  | plain _ _ visible _ ih => exact ih.cons visible
  | @short letter c _ _ known _ ih =>
    have letters : ∀ entry ∈ shortEscapes, 0x20 ≤ entry.1.toNat := by decide
    exact Visible.cons (by decide) (Visible.cons (letters _ known) ih)
  | unit number _ _ ih => exact (visible_numericSpelling number).append ih
  | pair first _ second _ _ ih => exact (visible_numericSpelling first).append ((visible_numericSpelling second).append ih)

/-! ## Values -/

variable {gap t : Text} {value : Json}

theorem Holds.blanks (blank : AllTokenBlank gap) (held : Holds t value) : Holds (gap ++ t) value := by
  cases held with
  | framed before inside after =>
    rw [← List.append_assoc]
    exact .framed (List.forall_mem_append.mpr ⟨blank, before⟩) inside after

theorem HoldsItems.blanks {items : List Json} (blank : AllTokenBlank gap) (held : HoldsItems t items) :
    HoldsItems (gap ++ t) items := by
  cases held with
  | last only => exact .last (only.blanks blank)
  | more first others =>
    rw [← List.append_assoc]
    exact .more (first.blanks blank) others

theorem HoldsMember.blanks {entry : Text × Json} (blank : AllTokenBlank gap) (held : HoldsMember t entry) :
    HoldsMember (gap ++ t) entry := by
  cases held with
  | named before inside after follows =>
    rw [← List.append_assoc]
    exact .named (List.forall_mem_append.mpr ⟨blank, before⟩) inside after follows

theorem HoldsMembers.blanks {members : List (Text × Json)} (blank : AllTokenBlank gap) (held : HoldsMembers t members) :
    HoldsMembers (gap ++ t) members := by
  cases held with
  | last only => exact .last (only.blanks blank)
  | more first others =>
    rw [← List.append_assoc]
    exact .more (first.blanks blank) others

/-- Whether what is written in front of any rest is one text, which has a form and no control character. -/
def Writes (form : Text → Prop) (written : Text → Text) : Prop := ∃ t, form t ∧ Visible t ∧ ∀ rest, written rest = t ++ rest

/-- Whether a value is spelled wherever it stands. -/
def Prints (value : Json) : Prop := ∀ depth, Writes (Spells · value) (write .oneLine depth value)

/-- A key with its value. -/
theorem writes_member (key : Text) (printed : Prints value) (depth : Nat) :
    Writes (HoldsMember · (key, value))
      (fun rest => renderString false key ++ colon ++ write .oneLine depth value rest) := by
  obtain ⟨t, spelled, visible, same⟩ := printed depth
  have inside := spellsText_flatMap key
  have name : Visible (renderString false key) := (inside.visible.cons (by decide)).append (by decide)
  refine ⟨renderString false key ++ colon ++ t, ?_, (name.append (by decide)).append visible, fun rest => ?_⟩
  · have member : HoldsMember ([] ++ .char '"' :: (key.flatMap (renderSymbol false) ++
        .char '"' :: ([] ++ .char ':' :: ([.char ' '] ++ t)))) (key, value) :=
      .named nofun inside nofun (spelled.holds.blanks (by unfold AllTokenBlank; decide))
    simpa [renderString, colon] using member
  · show renderString false key ++ colon ++ write .oneLine depth value rest = _
    rw [same, ← List.append_assoc]

/-- The items of an array, written one after another. -/
theorem writes_items {items : List Json} (depth : Nat) (first : Prints value) (others : ∀ item ∈ items, Prints item) :
    Writes (HoldsItems · (value :: items))
      (fun rest => write .oneLine depth value (writeItems .oneLine depth items rest)) := by
  induction items generalizing value with
  | nil =>
    obtain ⟨t, spelled, visible, same⟩ := first depth
    exact ⟨t, .last spelled.holds, visible, same⟩
  | cons item items ih =>
    obtain ⟨second, others⟩ := List.forall_mem_cons.mp others
    obtain ⟨t, spelled, visible, same⟩ := first depth
    obtain ⟨t', held, visible', same'⟩ := ih second others
    have held' : HoldsItems ([.char ' '] ++ t') (item :: items) := held.blanks (by unfold AllTokenBlank; decide)
    refine ⟨t ++ .char ',' :: ([.char ' '] ++ t'), .more spelled.holds held', ?_, fun rest => ?_⟩
    · exact visible.append ((visible'.cons (by decide)).cons (by decide))
    · have separated : writeItems .oneLine depth (item :: items) rest = .char ',' :: .char ' ' :: (t' ++ rest) := by
        rw [← same' rest, writeItems]
        rfl
      show write .oneLine depth value (writeItems .oneLine depth (item :: items) rest) = _
      rw [same, separated, List.append_assoc]
      rfl

/-- The members of an object, written one after another. -/
theorem writes_members {key : Text} {members : List (Text × Json)} (depth : Nat) (first : Prints value)
    (others : ∀ entry ∈ members, Prints entry.2) :
    Writes (HoldsMembers · ((key, value) :: members)) (fun rest =>
      renderString false key ++ colon ++ write .oneLine depth value (writeMembers .oneLine depth members rest)) := by
  induction members generalizing key value with
  | nil =>
    obtain ⟨t, held, visible, same⟩ := writes_member key first depth
    exact ⟨t, .last held, visible, same⟩
  | cons entry members ih =>
    obtain ⟨key', value'⟩ := entry
    obtain ⟨second, others⟩ := List.forall_mem_cons.mp others
    obtain ⟨t, held, visible, same⟩ := writes_member key first depth
    obtain ⟨t', held', visible', same'⟩ := ih second others
    have spaced : HoldsMembers ([.char ' '] ++ t') ((key', value') :: members) :=
      held'.blanks (by unfold AllTokenBlank; decide)
    refine ⟨t ++ .char ',' :: ([.char ' '] ++ t'), .more held spaced, ?_, fun rest => ?_⟩
    · exact visible.append ((visible'.cons (by decide)).cons (by decide))
    · have separated : writeMembers .oneLine depth ((key', value') :: members) rest =
          .char ',' :: .char ' ' :: (t' ++ rest) := by
        rw [← same' rest, writeMembers]
        simp [Style.separator, Style.oneLine]
      have ahead : renderString false key ++ colon ++ write .oneLine depth value
          (.char ',' :: .char ' ' :: (t' ++ rest)) = t ++ .char ',' :: .char ' ' :: (t' ++ rest) := same _
      show renderString false key ++ colon ++
        write .oneLine depth value (writeMembers .oneLine depth ((key', value') :: members) rest) = _
      rw [separated, ahead, List.append_assoc t]
      rfl

theorem prints_of_exact (known : Exact value) : Prints value := by
  induction known with
  | null => exact fun depth => ⟨"null", .null, by decide, fun rest => by rw [write]⟩
  | @bool b =>
    cases b with
    | true => exact fun depth => ⟨"true", .yes, by decide, fun rest => by rw [write]⟩
    | false => exact fun depth => ⟨"false", .no, by decide, fun rest => by rw [write]⟩
  | @int n short =>
    have inside := forall_mem_toString (p := fun c => 0x20 ≤ c.toNat) (by decide) (by decide) n
    have visible : Visible (toString n) := visible_ofChars fun c member => of_decide_eq_true (inside c member)
    exact fun depth => ⟨toString n, .int short, visible, fun rest => by rw [write]⟩
  | @str t =>
    have inside := spellsText_flatMap t
    have visible : Visible (renderString false t) := (inside.visible.cons (by decide)).append (by decide)
    exact fun depth => ⟨renderString false t, .str inside, visible, fun rest => by rw [write]; rfl⟩
  | @arr items each ih =>
    intro depth
    cases items with
    | nil => exact ⟨"[]", @Spells.emptyArray [] nofun, by decide, fun rest => by rw [write]; rfl⟩
    | cons item items =>
      obtain ⟨first, others⟩ := List.forall_mem_cons.mp ih
      obtain ⟨t, held, visible, same⟩ := writes_items (depth + 1) first others
      refine ⟨.char '[' :: (t ++ [.char ']']), .array held, (visible.append (by decide)).cons (by decide), fun rest => ?_⟩
      have inner := same (.char ']' :: rest)
      rw [write]
      simpa [Style.lineStart, Style.oneLine] using inner
  | @obj members each distinct ih =>
    intro depth
    cases members with
    | nil => exact ⟨"\x7b\x7d", @Spells.emptyObject [] nofun, by decide, fun rest => by rw [write]; rfl⟩
    | cons entry members =>
      obtain ⟨key, value⟩ := entry
      obtain ⟨first, others⟩ := List.forall_mem_cons.mp ih
      obtain ⟨t, held, visible, same⟩ := @writes_members value key members (depth + 1) first others
      refine ⟨.char '\x7b' :: (t ++ [.char '\x7d']), .object held distinct, (visible.append (by decide)).cons (by decide),
        fun rest => ?_⟩
      have inner := same (.char '\x7d' :: rest)
      rw [write]
      simpa [Style.lineStart, Style.oneLine] using inner

/-- A value is written without control characters, as a text that holds it, and is read back from it. -/
theorem render_of_exact (known : Exact value) :
    Visible (value.render .oneLine) ∧ Spells (value.render .oneLine) value ∧ read (value.render .oneLine) = .ok value := by
  obtain ⟨t, spelled, visible, same⟩ := prints_of_exact known 0
  have whole : value.render .oneLine = t := (same []).trans (List.append_nil t)
  rw [whole]
  exact ⟨visible, spelled, read_of_holds spelled.holds⟩

end AbiRecovery.Json
