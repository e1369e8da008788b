import AbiRecovery.Text.Quoted

/-!
# UTF-8

Decoding of bytes as UTF-8. The first bytes that form no character are reported with their positions
and the reason; nothing is replaced or skipped. A text with halves of surrogate pairs has no bytes; the
first run of them is reported.
-/
namespace AbiRecovery.Text

/-- Why bytes are not UTF-8. -/
inductive Utf8Fault.Reason where
  | startByte | continuationByte | endOfData
  deriving DecidableEq, Repr

/-- A maximal run of bytes that begins like a character and is none. -/
structure Utf8Fault where
  /-- Position of the first byte of the run. -/
  start : Nat
  /-- The bytes of the run. -/
  bytes : List UInt8
  reason : Utf8Fault.Reason
  deriving DecidableEq, Repr

def Utf8Fault.Reason.words : Utf8Fault.Reason → String
  | .startByte => "invalid start byte"
  | .continuationByte => "invalid continuation byte"
  | .endOfData => "unexpected end of data"

/-- The message for a fault: a single byte is shown, several are named by their positions. -/
def Utf8Fault.message (fault : Utf8Fault) : String :=
  let place := match fault.bytes with
    | [byte] => "byte 0x" ++ String.ofList (paddedHex 2 byte.toNat) ++ " in position " ++ toString fault.start
    | bytes => "bytes in position " ++ toString fault.start ++ "-" ++ toString (fault.start + bytes.length - 1)
  "'utf-8' codec can't decode " ++ place ++ ": " ++ fault.reason.words

/-- How many bytes follow a first byte, and between which bounds the second one lies. -/
def utf8Shape? (first : UInt8) : Option (Nat × UInt8 × UInt8) :=
  if first < 0x80 then some (0, 0x80, 0xBF)
  else if first < 0xC2 then none
  else if first < 0xE0 then some (1, 0x80, 0xBF)
  else if first = 0xE0 then some (2, 0xA0, 0xBF)
  else if first = 0xED then some (2, 0x80, 0x9F)
  else if first < 0xF0 then some (2, 0x80, 0xBF)
  else if first = 0xF0 then some (3, 0x90, 0xBF)
  else if first < 0xF4 then some (3, 0x80, 0xBF)
  else if first = 0xF4 then some (3, 0x80, 0x8F)
  else none

/-- A character of which some bytes are still to come. -/
structure Utf8Partial where
  /-- Position of its first byte. -/
  start : Nat
  /-- Its bytes so far, last first. -/
  seen : List UInt8
  /-- The code point bits so far. -/
  value : Nat
  /-- How many bytes are missing. -/
  missing : Nat
  /-- Bounds of the next byte. -/
  low : UInt8
  high : UInt8

/-- Decodes the bytes from `position` on, within the character `open?` if one has begun; `done` holds
the characters so far, last first. -/
def utf8From (position : Nat) (open? : Option Utf8Partial) (done : List Char) :
    List UInt8 → Except Utf8Fault (List Char)
  | [] => match open? with
    | none => .ok done.reverse
    | some char => .error ⟨char.start, char.seen.reverse, .endOfData⟩
  | byte :: rest => match open? with
    | none => match utf8Shape? byte with
      | none => .error ⟨position, [byte], .startByte⟩
      | some (0, _, _) => utf8From (position + 1) none (Char.ofNat byte.toNat :: done) rest
      | some (missing, low, high) =>
        let value := byte.toNat % Nat.pow 2 (6 - missing)
        utf8From (position + 1) (some ⟨position, [byte], value, missing, low, high⟩) done rest
    | some char =>
      if char.low ≤ byte && byte ≤ char.high then
        let value := 64 * char.value + byte.toNat % 64
        if char.missing = 1 then utf8From (position + 1) none (Char.ofNat value :: done) rest
        else utf8From (position + 1)
          (some ⟨char.start, byte :: char.seen, value, char.missing - 1, 0x80, 0xBF⟩) done rest
      else .error ⟨char.start, char.seen.reverse, .continuationByte⟩

/-- The text that bytes encode in UTF-8. -/
def decodeUtf8 (bytes : List UInt8) : Except Utf8Fault Text :=
  ofChars <$> utf8From 0 none [] bytes

/-- A run of halves of surrogate pairs where bytes are wanted. -/
structure HalfFault where
  /-- Position of the first half of the run. -/
  start : Nat
  first : Symbol
  /-- How many halves follow the first. -/
  more : Nat
  deriving DecidableEq, Repr

/-- The message for a fault: a single half is shown, several are named by their positions. -/
def HalfFault.message (fault : HalfFault) : String :=
  let place :=
    if fault.more = 0 then
      "character '" ++ String.ofList (quotedSymbol '\'' fault.first) ++ "' in position " ++ toString fault.start
    else "characters in position " ++ toString fault.start ++ "-" ++ toString (fault.start + fault.more)
  "'utf-8' codec can't encode " ++ place ++ ": surrogates not allowed"

/-- Whether a symbol is half of a surrogate pair. -/
def Symbol.isHalf : Symbol → Bool
  | .char _ => false
  | .half _ => true

/-- The first half without bytes and the halves that follow it, in what stands behind the first `position`
symbols; `hasBytes` tells which halves are no fault. -/
def halfFault? (hasBytes : Symbol → Bool) (position : Nat) : Text → Option HalfFault
  | [] => none
  | symbol :: rest =>
    if symbol.isHalf && !hasBytes symbol then some ⟨position, symbol, (rest.takeWhile Symbol.isHalf).length⟩
    else halfFault? hasBytes (position + 1) rest

/-- The bytes of a character in UTF-8. -/
def Symbol.utf8 : Symbol → List UInt8
  | .char c => String.utf8EncodeChar c
  | .half _ => []

def encodeUtf8 (t : Text) : Except HalfFault (List UInt8) :=
  match halfFault? (fun _ => false) 0 t with
  | some fault => .error fault
  | none => .ok (t.flatMap Symbol.utf8)

/-- The bytes of a symbol in the wider UTF-8, in which halves have bytes like characters. -/
def Symbol.wideUtf8 : Symbol → List UInt8
  | .char c => String.utf8EncodeChar c
  | .half place => [0xED, UInt8.ofNat (0xA0 + place.val / 64), UInt8.ofNat (0x80 + place.val % 64)]

/-- The half that three bytes stand for in the wider UTF-8. -/
def wideHalf? (first second third : UInt8) : Option Symbol :=
  if first = 0xED && 0xA0 ≤ second && second ≤ 0xBF && 0x80 ≤ third && third ≤ 0xBF then
    some (.ofNat (firstHalf + 64 * (second.toNat - 0xA0) + (third.toNat - 0x80)))
  else none

/-- Reads the wider UTF-8; `run` holds the bytes since the last half, last first. -/
def decodeWideFrom (run : List UInt8) : List UInt8 → Option Text
  | first :: second :: third :: rest =>
    match wideHalf? first second third with
    | some half => do
      let front ← (decodeUtf8 run.reverse).toOption
      let back ← decodeWideFrom [] rest
      return front ++ half :: back
    | none => decodeWideFrom (first :: run) (second :: third :: rest)
  | short => (decodeUtf8 (run.reverse ++ short)).toOption

/-- The text that bytes encode in the wider UTF-8. -/
def decodeWide? (bytes : List UInt8) : Option Text := decodeWideFrom [] bytes

/-- The bytes of a text in the wider UTF-8. -/
def encodeWide (t : Text) : List UInt8 := t.flatMap Symbol.wideUtf8

def decodeAscii? (bytes : List UInt8) : Option (List Char) :=
  if bytes.all (· < 0x80) then some (bytes.map fun byte => Char.ofNat byte.toNat) else none

end AbiRecovery.Text
