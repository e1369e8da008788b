import AbiRecovery.Json.Basic
import AbiRecovery.SizeLimit

/-!
# JSON text

Two layouts: everything on one line with a blank after each comma and colon, or one item a line with
a fixed indent. Characters above ASCII and halves of surrogate pairs are kept or escaped; control
characters, quotes and backslashes are always escaped, so a printed value never contains a line end of
its own.
-/
namespace AbiRecovery.Json

structure Style where
  /-- Escape every character outside U+0020 to U+007E, and every half of a surrogate pair. -/
  asciiOnly : Bool
  /-- Put every item on a line of its own, indented by this much more than its container; an indent
  below one leaves the lines without indentation. -/
  indent : Option Int

/-- The layout with an indent that comes from outside. -/
def Style.ofIndent (asciiOnly : Bool) (indent : Option Int) : Except SizeFault Style :=
  match indent with
  | none => .ok ⟨asciiOnly, none⟩
  | some width =>
    if !SizeLimit.isSize width then .error .noCount
    else if width > SizeLimit.memory then .error .noMemory
    else .ok ⟨asciiOnly, some width⟩

/-- Numbers as JSON writes them, with the three words for what is no finite number. -/
def numberFormat : Decimal.Format := ⟨-4, 16, "Infinity", "NaN"⟩

def unitEscape (n : Nat) : List Char := '\\' :: 'u' :: Text.paddedHex 4 n

/-- The escape of a character by its number: one unit, or a pair of surrogates. -/
def numericEscape (c : Char) : List Char :=
  let n := c.toNat
  if n < 0x10000 then unitEscape n
  else unitEscape (0xD800 + (n - 0x10000) / 0x400) ++ unitEscape (0xDC00 + (n - 0x10000) % 0x400)

def renderChar (asciiOnly : Bool) (c : Char) : List Char :=
  if c = '"' || c = '\\' then ['\\', c]
  else if c = '\n' then ['\\', 'n']
  else if c = '\r' then ['\\', 'r']
  else if c = '\t' then ['\\', 't']
  else if c = '\x08' then ['\\', 'b']
  else if c = '\x0c' then ['\\', 'f']
  else if c.toNat < 0x20 || (asciiOnly && 0x7F ≤ c.toNat) then numericEscape c
  else [c]

def renderSymbol (asciiOnly : Bool) : Text.Symbol → Text
  | .char c => Text.ofChars (renderChar asciiOnly c)
  | half => if asciiOnly then Text.ofChars (unitEscape half.toNat) else [half]

def renderString (asciiOnly : Bool) (t : Text) : Text :=
  .char '"' :: t.flatMap (renderSymbol asciiOnly) ++ [.char '"']

/-- What stands before an item that is `depth` containers deep, and before a container's end. -/
def Style.lineStart (style : Style) (depth : Nat) : Text :=
  match style.indent with
  | none => []
  | some width => .char '\n' :: List.replicate (width * depth).toNat (.char ' ')

def Style.separator (style : Style) (depth : Nat) : Text :=
  .char ',' :: (if style.indent.isNone then [.char ' '] else style.lineStart depth)

def colon : Text := [.char ':', .char ' ']

mutual

/-- The text of a value that is `depth` containers deep, in front of `rest`. -/
def write (style : Style) (depth : Nat) (value : Json) (rest : Text) : Text :=
  match value with
  | .null => "null" ++ rest
  | .bool true => "true" ++ rest
  | .bool false => "false" ++ rest
  | .int n => toString n ++ rest
  | .float x => Text.ofChars (numberFormat.text x) ++ rest
  | .str t => renderString style.asciiOnly t ++ rest
  | .arr [] => .char '[' :: .char ']' :: rest
  | .arr (item :: items) =>
    .char '[' :: style.lineStart (depth + 1) ++ write style (depth + 1) item
      (writeItems style (depth + 1) items (style.lineStart depth ++ .char ']' :: rest))
  | .obj [] => .char '\x7b' :: .char '\x7d' :: rest
  | .obj ((key, value) :: members) =>
    .char '\x7b' :: style.lineStart (depth + 1) ++ renderString style.asciiOnly key ++ colon ++
      write style (depth + 1) value
        (writeMembers style (depth + 1) members (style.lineStart depth ++ .char '\x7d' :: rest))

/-- The items after the first, each after a separator, in front of `rest`. -/
def writeItems (style : Style) (depth : Nat) (items : List Json) (rest : Text) : Text :=
  match items with
  | [] => rest
  | item :: items => style.separator depth ++ write style depth item (writeItems style depth items rest)

/-- The members after the first, each after a separator, in front of `rest`. -/
def writeMembers (style : Style) (depth : Nat) (members : List (Text × Json)) (rest : Text) : Text :=
  match members with
  | [] => rest
  | (key, value) :: members =>
    style.separator depth ++ renderString style.asciiOnly key ++ colon ++
      write style depth value (writeMembers style depth members rest)

end

def render (style : Style) (value : Json) : Text := write style 0 value []

end AbiRecovery.Json
