import AbiRecovery.Json.Reader
import AbiRecovery.Proofs.HexText

/-!
# The grammar of JSON texts

Which texts hold a value, said without a reader: each token and each place where blanks may stand is written out. A
string may have every symbol as it is but quotes, backslashes and control characters, and every unit of sixteen bits as
an escape; two escapes in a row that make a surrogate pair are one character. An object has distinct keys. Of numbers
there are the whole ones in their plain decimal form.
-/
namespace AbiRecovery.Json

/-! ## Strings -/

/-- The four digits of a numeric escape, with the unit that they denote. -/
structure IsUnit (digits : List Char) (unit : Nat) : Prop where
  width : digits.length = 4
  hex : ∀ c ∈ digits, Hex.isDigit c
  value : Text.hexNumber digits = unit

/-- The units that begin a surrogate pair. -/
def IsHigh (unit : Nat) : Prop := 0xD800 ≤ unit ∧ unit < 0xDC00

/-- The units that end a surrogate pair. -/
def IsLow (unit : Nat) : Prop := 0xDC00 ≤ unit ∧ unit < 0xE000

/-- The character of a surrogate pair. -/
def pairedChar (high low : Nat) : Char := Char.ofNat (0x10000 + (high - 0xD800) * 0x400 + (low - 0xDC00))

/-- A numeric escape by its digits. -/
def numericSpelling (digits : List Char) : Text := Text.ofChars ('\\' :: 'u' :: digits)

/-- Whether a text begins with the escape of a unit that ends a surrogate pair. -/
def BeginsLow (t : Text) : Prop := ∃ digits unit rest, IsUnit digits unit ∧ IsLow unit ∧ t = numericSpelling digits ++ rest

/-- The letters of the short escapes, with the characters that they stand for. -/
def shortEscapes : List (Char × Char) :=
  [('"', '"'), ('\\', '\\'), ('/', '/'), ('b', '\x08'), ('f', '\x0c'), ('n', '\n'), ('r', '\r'), ('t', '\t')]

/-- What may stand between the quotes of a string, with the text that it means. -/
inductive SpellsText : Text → Text → Prop where
  | nil : SpellsText [] []
  | plain {symbol : Text.Symbol} {t meant : Text} (unquoted : symbol ≠ .char '"') (unescaped : symbol ≠ .char '\\')
      (visible : 0x20 ≤ symbol.toNat) (rest : SpellsText t meant) : SpellsText (symbol :: t) (symbol :: meant)
  | short {letter c : Char} {t meant : Text} (known : (letter, c) ∈ shortEscapes) (rest : SpellsText t meant) :
      SpellsText (.char '\\' :: .char letter :: t) (.char c :: meant)
  | unit {digits : List Char} {unit : Nat} {t meant : Text} (number : IsUnit digits unit)
      (single : IsHigh unit → ¬BeginsLow t) (rest : SpellsText t meant) :
      SpellsText (numericSpelling digits ++ t) (.ofNat unit :: meant)
  | pair {digits digits' : List Char} {high low : Nat} {t meant : Text} (first : IsUnit digits high) (begins : IsHigh high)
      (second : IsUnit digits' low) (ends : IsLow low) (rest : SpellsText t meant) :
      SpellsText (numericSpelling digits ++ (numericSpelling digits' ++ t)) (.char (pairedChar high low) :: meant)

/-! ## Values -/

/-- Whether a text consists of blanks that may stand between tokens. -/
def AllTokenBlank (t : Text) : Prop := ∀ symbol ∈ t, symbol.isIn isTokenBlank

/-- Whether a whole number has no more digits than are converted. -/
def IsShort (n : Int) : Prop := (Nat.toDigits 10 n.natAbs).length ≤ Text.maxIntegerDigits

mutual

/-- What is a value, without blanks around it. -/
inductive Spells : Text → Json → Prop where
  | null : Spells "null" .null
  | yes : Spells "true" (.bool true)
  | no : Spells "false" (.bool false)
  | int {n : Int} (short : IsShort n) : Spells (toString n) (.int n)
  | str {t meant : Text} (inside : SpellsText t meant) : Spells (.char '"' :: (t ++ [.char '"'])) (.str meant)
  | emptyArray {gap : Text} (blank : AllTokenBlank gap) : Spells (.char '[' :: (gap ++ [.char ']'])) (.arr [])
  | array {t : Text} {items : List Json} (inside : HoldsItems t items) :
      Spells (.char '[' :: (t ++ [.char ']'])) (.arr items)
  | emptyObject {gap : Text} (blank : AllTokenBlank gap) :
      Spells (.char '\x7b' :: (gap ++ [.char '\x7d'])) (.obj [])
  | object {t : Text} {members : List (Text × Json)} (inside : HoldsMembers t members)
      (distinct : (members.map Prod.fst).Nodup) : Spells (.char '\x7b' :: (t ++ [.char '\x7d'])) (.obj members)

/-- A text that holds one value between blanks. -/
inductive Holds : Text → Json → Prop where
  | framed {front t back : Text} {value : Json} (before : AllTokenBlank front) (inside : Spells t value)
      (after : AllTokenBlank back) : Holds (front ++ (t ++ back)) value

/-- The items of an array, of which there is one at least. -/
inductive HoldsItems : Text → List Json → Prop where
  | last {t : Text} {item : Json} (only : Holds t item) : HoldsItems t [item]
  | more {t rest : Text} {item : Json} {items : List Json} (first : Holds t item) (others : HoldsItems rest items) :
      HoldsItems (t ++ .char ',' :: rest) (item :: items)

/-- A member of an object: a key between blanks, a colon, and what holds the value. -/
inductive HoldsMember : Text → Text × Json → Prop where
  | named {front t back u : Text} {key : Text} {value : Json} (before : AllTokenBlank front) (inside : SpellsText t key)
      (after : AllTokenBlank back) (follows : Holds u value) :
      HoldsMember (front ++ .char '"' :: (t ++ .char '"' :: (back ++ .char ':' :: u))) (key, value)

/-- The members of an object, of which there is one at least. -/
inductive HoldsMembers : Text → List (Text × Json) → Prop where
  | last {t : Text} {entry : Text × Json} (only : HoldsMember t entry) : HoldsMembers t [entry]
  | more {t rest : Text} {entry : Text × Json} {members : List (Text × Json)} (first : HoldsMember t entry)
      (others : HoldsMembers rest members) : HoldsMembers (t ++ .char ',' :: rest) (entry :: members)

end

theorem Spells.holds {t : Text} {value : Json} (spelled : Spells t value) : Holds t value := by
  have framed : Holds ([] ++ (t ++ [])) value := .framed nofun spelled nofun
  rwa [List.nil_append, List.append_nil] at framed

end AbiRecovery.Json
