import AbiRecovery.Hex
import AbiRecovery.Json.Basic
import AbiRecovery.Text.Blank
import AbiRecovery.Text.Utf8

/-!
# Code as it is handed in

Code comes as hexadecimal text, as bytes, or in a file that holds one of the two. Blank characters
around a text are skipped, and no digits at all are the empty code of an account without a contract.
Code above a limit is refused; the limit counts bytes, however they were written.
-/
namespace AbiRecovery

/-- A value that is offered as code. -/
inductive CodeInput where
  | text (s : Text)
  | bytes (bytes : Bytes)
  /-- Neither text nor bytes. -/
  | other (kind : Json.Kind)
  deriving Repr

inductive CodeFault where
  /-- A text, without the blanks around it, that is not hexadecimal. -/
  | notHex (trimmed : Text)
  | unsupported (kind : Json.Kind)
  | tooLarge (size : Nat) (limit : Int)
  deriving DecidableEq, Repr

/-- The message for a fault. Of a text only the beginning is shown. -/
def CodeFault.message : CodeFault → String
  | .notHex trimmed =>
    "bytecode is not valid hex: " ++ Text.quoted (trimmed.take 16) ++ "..."
  | .unsupported kind => "unsupported bytecode type: " ++ kind.name
  | .tooLarge size limit => "code is " ++ toString size ++ " bytes, limit is " ++ toString limit

namespace CodeInput

def codeOfText (s : Text) : Except CodeFault Bytes :=
  let trimmed := Text.trim s
  match Hex.digits? trimmed with
  | some digits => .ok (Hex.bytesOfDigits digits)
  | none => .error (.notHex trimmed)

def code : CodeInput → Except CodeFault Bytes
  | .text s => codeOfText s
  | .bytes given => .ok given
  | .other kind => .error (.unsupported kind)

/-- Refuses code above a limit. A limit below one is none. -/
def withinLimit (limit : Int) (code : Bytes) : Except CodeFault Bytes :=
  if 0 < limit && limit < code.length then .error (.tooLarge code.length limit) else .ok code

/-- The code that a value denotes, within a limit. -/
def load (limit : Int) (input : CodeInput) : Except CodeFault Bytes :=
  input.code >>= withinLimit limit

/-- How the content of a file is meant: as text if it is ASCII and, between blanks, hexadecimal and not
empty; else as the bytes themselves, blanks included. -/
def ofFile (content : Bytes) : CodeInput :=
  match Text.decodeAscii? content with
  | some cs =>
    let trimmed := Text.trim (Text.ofChars cs)
    if !trimmed.isEmpty && (Hex.digits? trimmed).isSome then .text trimmed else .bytes content
  | none => .bytes content

end CodeInput

end AbiRecovery
