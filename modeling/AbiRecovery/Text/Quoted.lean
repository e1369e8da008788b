import AbiRecovery.Text.Basic
import AbiRecovery.Text.Printable
import AbiRecovery.Text.Hexadecimal

/-!
# Quoted text

The form in which messages show a text that came from outside. It stands in single quotes, or in
double quotes if it holds a single quote and no double one. The quote in use and the backslash are
escaped with a backslash, tabs and line ends have their letters, and every other character that is
not printable is written by its number, and so is half of a surrogate pair.
-/
namespace AbiRecovery.Text

/-- The quote that needs the fewest escapes; single quotes win a tie. -/
def quoteFor (t : Text) : Char :=
  if t.contains (.char '\'') && !t.contains (.char '"') then '"' else '\''

def quotedChar (quote c : Char) : List Char :=
  if c = quote || c = '\\' then ['\\', c]
  else if c = '\t' then ['\\', 't']
  else if c = '\n' then ['\\', 'n']
  else if c = '\r' then ['\\', 'r']
  else if isPrintable c then [c]
  else if c.toNat < 0x100 then '\\' :: 'x' :: paddedHex 2 c.toNat
  else if c.toNat < 0x10000 then '\\' :: 'u' :: paddedHex 4 c.toNat
  else '\\' :: 'U' :: paddedHex 8 c.toNat

def quotedSymbol (quote : Char) : Symbol → List Char
  | .char c => quotedChar quote c
  | half => '\\' :: 'u' :: paddedHex 4 half.toNat

def quotedChars (t : Text) : List Char :=
  let quote := quoteFor t
  quote :: t.flatMap (quotedSymbol quote) ++ [quote]

def quoted (t : Text) : String := String.ofList (quotedChars t)

end AbiRecovery.Text
