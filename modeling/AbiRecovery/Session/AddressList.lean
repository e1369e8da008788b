import AbiRecovery.Json.Plain
import AbiRecovery.Json.Reader
import AbiRecovery.Session.Basic
import AbiRecovery.Text.Line

/-!
# Lists of addresses

A file of addresses holds a JSON array or one address a line. Blanks around an address are dropped, and
so are blank items and lines. What is no JSON, and JSON that is no array, counts as lines.
-/
namespace AbiRecovery

namespace AddressList

/-- The items that are not blank, without the blanks around them. -/
def nonBlank (items : List Text) : List Text := (items.map Text.trim).filter (!·.isEmpty)

def ofLines (text : Text) : List Text := nonBlank text.lines

/-- The addresses in a text. JSON with an integer that is too long is an error. -/
def ofText (text : Text) : Except Json.LongInteger (List Text) :=
  let trimmed := text.trim
  match Json.read trimmed with
  | .ok (.arr items) => .ok (nonBlank (items.map Json.plain))
  | .ok _ | .error .malformed => .ok (ofLines trimmed)
  | .error (.longInteger fault) => .error fault

end AddressList

/-- The addresses in a file. A file that is not there has none, which is told at the terminal. -/
def Tool.loadAddresses (path : Text) : Tool (List Text) := do
  let s ← get
  let location := Location.ofText path
  if !(← ofExcept .file (s.files.isPresent location)) then
    printError ("File not found: " ++ path)
    return []
  let content ← ofExcept .file (s.files.read location)
  let text ← ofExcept .encoding (Text.decodeUtf8 content)
  ofExcept .longInteger (AddressList.ofText (Text.unifyLineEnds text))

end AbiRecovery
