/-!
# Text

A text that comes from outside may hold half of a surrogate pair on its own. Such a half is no character,
so a text is a list of symbols, and a symbol is a character or a half. The texts of the program itself are
strings; a string is a text without halves.
-/
namespace AbiRecovery

/-- A character, or half of a surrogate pair. -/
inductive Text.Symbol where
  | char (c : Char)
  /-- A half, by its place among all halves. -/
  | half (place : Fin 0x800)
  deriving DecidableEq, Repr, Inhabited

abbrev Text : Type := List Text.Symbol

namespace Text

def firstHalf : Nat := 0xD800

namespace Symbol

/-- The symbol with a number. Numbers beyond the last character are taken for the character zero. -/
def ofNat (n : Nat) : Symbol :=
  if half : firstHalf ≤ n ∧ n < firstHalf + 0x800 then .half ⟨n - firstHalf, by omega⟩
  else .char (Char.ofNat n)

def toNat : Symbol → Nat
  | .char c => c.toNat
  | .half place => firstHalf + place.val

/-- The character of a symbol, unless it is a half. -/
def char? : Symbol → Option Char
  | .char c => some c
  | .half _ => none

/-- Whether a symbol is a character of a class. -/
def isIn (holds : Char → Bool) : Symbol → Bool
  | .char c => holds c
  | .half _ => false

/-- What stands for a half where only characters can be shown. -/
def replacement : Char := Char.ofNat 0xFFFD

def shown : Symbol → Char
  | .char c => c
  | .half _ => replacement

end Symbol

def ofChars (cs : List Char) : Text := cs.map .char

def ofString (s : String) : Text := ofChars s.toList

instance : Coe String Text := ⟨ofString⟩

def chars? (t : Text) : Option (List Char) := t.mapM Symbol.char?

/-- The string that shows a text, with a mark for every half. -/
def shown (t : Text) : String := String.ofList (t.map Symbol.shown)

/-- How many bytes a text takes in UTF-8, where a half stands for a byte that is no text. -/
def byteCount (t : Text) : Nat :=
  (t.map fun symbol => match symbol with
    | .char c => c.utf8Size
    | .half _ => 1).foldl (· + ·) 0

/-- Texts one after another, each with a line feed at its end. -/
def unlines (lines : List Text) : Text := lines.flatMap fun line => line ++ [.char '\n']

/-- A text of characters consists of them. -/
@[simp]
theorem chars?_ofChars (cs : List Char) : chars? (ofChars cs) = some cs := by
  induction cs with
  | nil => rfl
  | cons c cs ih =>
    simp only [chars?, ofChars] at ih ⊢
    simp [ih, Symbol.char?]

end Text

end AbiRecovery
