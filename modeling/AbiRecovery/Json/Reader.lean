import AbiRecovery.Json.Basic
import AbiRecovery.Text.Integer

/-!
# Reading JSON

The text is read one symbol at a time. A lexical state says where in a token the reader stands; a
finished token moves a stack of containers that are part way through. Besides the standard grammar the
words `NaN`, `Infinity` and `-Infinity` are numbers. Control characters may not stand in strings. A key
that occurs twice keeps its first place and its last value.

Integers may not be longer than the reader allows. What follows an integer that is too long is not
looked at, and what stands where no value may stand is malformed, however long it is.
-/
namespace AbiRecovery.Json

structure LongInteger where
  /-- How many digits it has. -/
  digits : Nat
  deriving DecidableEq, Repr

def LongInteger.message (fault : LongInteger) : String :=
  "Exceeds the limit (" ++ toString Text.maxIntegerDigits ++
    " digits) for integer string conversion: value has " ++ toString fault.digits ++
    " digits; use sys.set_int_max_str_digits() to increase the limit"

inductive ReadFault where
  /-- The text does not follow the grammar. -/
  | malformed
  | longInteger (fault : LongInteger)
  deriving DecidableEq, Repr

/-- What a text is made of, blanks apart. -/
inductive Token where
  | openArray | closeArray | openObject | closeObject | colon | comma
  | text (text : Text)
  | scalar (value : Json)
  | fault (fault : ReadFault)

/-- Where in a token the reader stands. What a token has so far is kept last first. -/
inductive Lexical where
  | between
  | word (chars : List Char)
  | text (symbols : Text)
  | escape (symbols : Text)
  /-- Inside a numeric escape that may follow an escaped high surrogate. -/
  | code (symbols : Text) (high : Option Nat) (value missing : Nat)
  /-- After an escaped high surrogate. -/
  | pair (symbols : Text) (high : Nat)
  /-- After an escaped high surrogate and a backslash. -/
  | pairEscape (symbols : Text) (high : Nat)

def isTokenBlank (c : Char) : Bool := c = ' ' || c = '\t' || c = '\n' || c = '\r'

def punctuation? : Char → Option Token
  | '[' => some .openArray
  | ']' => some .closeArray
  | '\x7b' => some .openObject
  | '\x7d' => some .closeObject
  | ':' => some .colon
  | ',' => some .comma
  | _ => none

def digitsValue (digits : List Char) : Nat := Text.ofDigits (digits.map fun c => c.toNat - '0'.toNat)

/-- A number by its parts: whole digits without a needless zero in front, then perhaps a fraction and a
power of ten. -/
structure Numeral where
  negative : Bool
  whole : List Char
  fraction : List Char
  power? : Option Int

namespace Numeral

/-- The whole digits at the beginning, and what stands after them. A zero is the only digit if it is
the first. -/
def cutWhole : List Char → List Char × List Char
  | '0' :: rest => (['0'], rest)
  | chars => chars.span Char.isDigit

/-- The digits of a fraction at the beginning, and what stands after them. A point without digits
begins no fraction. -/
def cutFraction (chars : List Char) : List Char × List Char :=
  match chars with
  | '.' :: rest => if (rest.span Char.isDigit).1.isEmpty then ([], chars) else rest.span Char.isDigit
  | _ => ([], chars)

/-- A sign at the beginning, as whether it is a minus, and what stands after it. -/
def cutSign : List Char → Bool × List Char
  | '-' :: rest => (true, rest)
  | '+' :: rest => (false, rest)
  | chars => (false, chars)

/-- The power of ten at the beginning, and what stands after it. An `e` without digits begins none. -/
def cutPower (chars : List Char) : Option Int × List Char :=
  match chars with
  | e :: rest =>
    let (negative, unsigned) := cutSign rest
    let (digits, after) := unsigned.span Char.isDigit
    if (e = 'e' || e = 'E') && !digits.isEmpty then
      (some (if negative then -(digitsValue digits : Int) else digitsValue digits), after)
    else (none, chars)
  | [] => (none, [])

/-- The longest number at the beginning, and what stands after it. -/
def cut? (chars : List Char) : Option (Numeral × List Char) :=
  let (negative, unsigned) := match chars with
    | '-' :: rest => (true, rest)
    | _ => (false, chars)
  let (whole, rest) := cutWhole unsigned
  let (fraction, rest) := cutFraction rest
  let (power?, rest) := cutPower rest
  if whole.isEmpty then none else some (⟨negative, whole, fraction, power?⟩, rest)

/-- The value of a number. One without a fraction and a power is an integer. -/
def value (n : Numeral) : Except LongInteger Json :=
  if n.fraction.isEmpty && n.power?.isNone then
    if n.whole.length > Text.maxIntegerDigits then .error ⟨n.whole.length⟩
    else .ok (.int (if n.negative then -(digitsValue n.whole : Int) else digitsValue n.whole))
  else
    .ok (.float (.ofDecimal n.negative (digitsValue (n.whole ++ n.fraction))
      (n.power?.getD 0 - n.fraction.length)))

end Numeral

/-- The token of a word that is no name. A number is read before what follows it in the word is looked
at. -/
def numberToken (chars : List Char) : Token :=
  match Numeral.cut? chars with
  | none => .fault .malformed
  | some (numeral, rest) =>
    match numeral.value with
    | .error fault => .fault (.longInteger fault)
    | .ok value => if rest.isEmpty then .scalar value else .fault .malformed

/-- The token of a word, that is of characters between blanks, quotes and punctuation. -/
def wordToken (chars : List Char) : Token :=
  let word := String.ofList chars
  if word = "null" then .scalar .null
  else if word = "true" then .scalar (.bool true)
  else if word = "false" then .scalar (.bool false)
  else if word = "NaN" then .scalar (.float .notANumber)
  else if word = "Infinity" then .scalar (.float (.infinite false))
  else if word = "-Infinity" then .scalar (.float (.infinite true))
  else numberToken chars

def betweenStep (c : Char) : Lexical × List Token :=
  if isTokenBlank c then (.between, [])
  else if c = '"' then (.text [], [])
  else match punctuation? c with
    | some token => (.between, [token])
    | none => (.word [c], [])

def textStep (symbols : Text) (c : Text.Symbol) : Lexical × List Token :=
  if c = .char '"' then (.between, [.text symbols.reverse])
  else if c = .char '\\' then (.escape symbols, [])
  else if c.toNat < 0x20 then (.between, [.fault .malformed])
  else (.text (c :: symbols), [])

/-- The character that a letter after a backslash stands for. -/
def escapedChar? : Char → Option Char
  | '"' => some '"'
  | '\\' => some '\\'
  | '/' => some '/'
  | 'b' => some '\x08'
  | 'f' => some '\x0c'
  | 'n' => some '\n'
  | 'r' => some '\r'
  | 't' => some '\t'
  | _ => none

def escapeStep (symbols : Text) (c : Char) : Lexical × List Token :=
  if c = 'u' then (.code symbols none 0 4, [])
  else match escapedChar? c with
    | some escaped => (.text (.char escaped :: symbols), [])
    | none => (.between, [.fault .malformed])

/-- A finished numeric escape that does not complete a pair: a character, a high surrogate that may
begin a pair, or a low surrogate on its own. -/
def unpaired (symbols : Text) (unit : Nat) : Lexical :=
  if 0xD800 ≤ unit && unit < 0xDC00 then .pair symbols unit
  else .text (.ofNat unit :: symbols)

def finishCode (symbols : Text) (high : Option Nat) (unit : Nat) : Lexical :=
  match high with
  | none => unpaired symbols unit
  | some high =>
    if 0xDC00 ≤ unit && unit < 0xE000 then
      .text (.char (Char.ofNat (0x10000 + (high - 0xD800) * 0x400 + (unit - 0xDC00))) :: symbols)
    else unpaired (.ofNat high :: symbols) unit

def codeStep (symbols : Text) (high : Option Nat) (value missing : Nat) (c : Char) : Lexical × List Token :=
  match Text.hexValue? c with
  | none => (.between, [.fault .malformed])
  | some digit =>
    let value := 16 * value + digit
    if missing = 1 then (finishCode symbols high value, [])
    else (.code symbols high value (missing - 1), [])

def wordStep (chars : List Char) (c : Char) : Lexical × List Token :=
  if isTokenBlank c || c = '"' || (punctuation? c).isSome then
    let (next, tokens) := betweenStep c
    (next, wordToken chars.reverse :: tokens)
  else (.word (c :: chars), [])

/-- One symbol: where the reader stands after it, and the tokens that it finishes. A half of a surrogate
pair may stand in strings only. -/
def Lexical.step : Lexical → Text.Symbol → Lexical × List Token
  | .text symbols, c => textStep symbols c
  | .pair symbols high, c =>
    if c = .char '\\' then (.pairEscape symbols high, []) else textStep (.ofNat high :: symbols) c
  | .between, .char c => betweenStep c
  | .word chars, .char c => wordStep chars c
  | .escape symbols, .char c => escapeStep symbols c
  | .code symbols high value missing, .char c => codeStep symbols high value missing c
  | .pairEscape symbols high, .char c =>
    if c = 'u' then (.code symbols (some high) 0 4, []) else escapeStep (.ofNat high :: symbols) c
  | .word chars, .half _ => (.between, [wordToken chars.reverse, .fault .malformed])
  | _, .half _ => (.between, [.fault .malformed])

/-- The tokens that the end of the text finishes. -/
def Lexical.finish : Lexical → List Token
  | .between => []
  | .word chars => [wordToken chars.reverse]
  | _ => [.fault .malformed]

/-- A container part way through, its contents last first. -/
inductive Frame where
  | array (items : List Json)
  /-- With the key whose value is to come, if one has been read. -/
  | object (members : List (Text × Json)) (key? : Option Text)

/-- What may come next. -/
inductive Expected where
  /-- A value. -/
  | value
  /-- A value or the end of the array just opened. -/
  | firstItem
  /-- A key or the end of the object just opened. -/
  | firstKey
  /-- A key. -/
  | key
  /-- The colon after a key. -/
  | colon
  /-- A comma or the end of the container. -/
  | separator
  /-- Nothing: the value is complete. -/
  | done (value : Json)
  | failed (fault : ReadFault)

/-- A reader between tokens. -/
structure Progress where
  stack : List Frame
  expected : Expected

def Progress.fail (fault : ReadFault) : Progress := ⟨[], .failed fault⟩

/-- A finished value goes into the innermost container. -/
def Progress.complete (stack : List Frame) (value : Json) : Progress :=
  match stack with
  | [] => ⟨[], .done value⟩
  | .array items :: rest => ⟨.array (value :: items) :: rest, .separator⟩
  | .object members (some key) :: rest => ⟨.object ((key, value) :: members) none :: rest, .separator⟩
  | .object _ none :: _ => Progress.fail .malformed

def Progress.begin (stack : List Frame) : Token → Progress
  | .openArray => ⟨.array [] :: stack, .firstItem⟩
  | .openObject => ⟨.object [] none :: stack, .firstKey⟩
  | .text text => Progress.complete stack (.str text)
  | .scalar value => Progress.complete stack value
  | .fault fault => Progress.fail fault
  | _ => Progress.fail .malformed

def Progress.close : List Frame → Token → Progress
  | .array items :: rest, .closeArray => Progress.complete rest (.arr items.reverse)
  | .object members none :: rest, .closeObject =>
    Progress.complete rest (.obj (OrderedMap.ofList members.reverse))
  | _, _ => Progress.fail .malformed

def Progress.beginKey : List Frame → Token → Progress
  | .object members none :: rest, .text key => ⟨.object members (some key) :: rest, .colon⟩
  | _, _ => Progress.fail .malformed

def Progress.step (progress : Progress) (token : Token) : Progress :=
  match progress.expected, token with
  | .failed fault, _ => Progress.fail fault
  | .value, token => Progress.begin progress.stack token
  | .firstItem, .closeArray => Progress.close progress.stack .closeArray
  | .firstItem, token => Progress.begin progress.stack token
  | .firstKey, .closeObject => Progress.close progress.stack .closeObject
  | .firstKey, token => Progress.beginKey progress.stack token
  | .key, token => Progress.beginKey progress.stack token
  | .colon, .colon => ⟨progress.stack, .value⟩
  | .separator, .comma => match progress.stack with
    | .array _ :: _ => ⟨progress.stack, .value⟩
    | _ => ⟨progress.stack, .key⟩
  | .separator, token => Progress.close progress.stack token
  | _, _ => Progress.fail .malformed

/-- A reader between symbols. -/
structure ReadState where
  lexical : Lexical
  progress : Progress

def ReadState.start : ReadState := ⟨.between, ⟨[], .value⟩⟩

def ReadState.step (state : ReadState) (c : Text.Symbol) : ReadState :=
  let (lexical, tokens) := state.lexical.step c
  ⟨lexical, tokens.foldl Progress.step state.progress⟩

/-- The value that has been read when the text ends. -/
def ReadState.finish (state : ReadState) : Except ReadFault Json :=
  match (state.lexical.finish.foldl Progress.step state.progress).expected with
  | .done value => .ok value
  | .failed fault => .error fault
  | _ => .error .malformed

def read (t : Text) : Except ReadFault Json := (t.foldl ReadState.step ReadState.start).finish

end AbiRecovery.Json
