import AbiRecovery.Abi.Entry
import AbiRecovery.Address
import AbiRecovery.Text.UpperCase

/-!
# The table of results

One flat table with text keys holds two kinds of results. The entries of a piece of code stand under
its hash, so contracts with the same code share them; the hash of a contract's code stands under its
chain and address. The first part of a key tells the kinds apart. Rows stand in the order of their
latest write.
-/
namespace AbiRecovery.Store

inductive Value where
  | entries (entries : List Abi.Entry)
  | hash (hash : Text)
  /-- What has been found in a file. -/
  | found (value : Json)
  deriving DecidableEq, Repr

namespace Value

/-- A value of a row as a structured value. -/
def toJson : Value → Json
  | .entries saved => Abi.entriesJson saved
  | .hash text => .str text
  | .found value => value

def draft : Value → Recipe.Draft
  | .entries saved => .list (saved.map Abi.Entry.draft)
  | .hash text => .text .own text
  | .found value => .ofJson value

end Value

structure NoItems where
  kind : Json.Kind
  deriving DecidableEq, Repr

def NoItems.message (fault : NoItems) : Text := "'" ++ fault.kind.name ++ "' object is not iterable"

/-- The items of a value, if it is there: those of a list, the symbols of a text, the keys of an object. -/
def itemsOf : Json → Except NoItems (Option (List Json))
  | .null => .ok none
  | .arr items => .ok (some items)
  | .str t => .ok (some (t.map fun symbol => .str [symbol]))
  | .obj members => .ok (some ((OrderedMap.keys members).map .str))
  | value => .error ⟨value.kind⟩

abbrev Table : Type := List (Text × Value)

/-- What the key of a piece of code begins with. -/
def codeMark : Text := "abis:"

def contractMark : Text := "addresses:"

def codeKey (hash : Text) : Text := codeMark ++ hash

/-- The key of a contract: neither the case of the chain's name nor the spelling of the address
matters. -/
def contractKey (chain : Text) (address : Address) : Text :=
  contractMark ++ Text.upper chain ++ ":" ++ address.checksum

namespace Table

/-- Writes a row; an old row with the same key goes. -/
def put (t : Table) (key : Text) (value : Value) : Table :=
  t.filter (fun row => row.1 ≠ key) ++ [(key, value)]

/-- The value of the row with a key. -/
def find? (t : Table) (key : Text) : Option Value := OrderedMap.get? t key

def entriesOf? (t : Table) (hash : Text) : Except NoItems (Option (List Json)) :=
  match t.find? (codeKey hash) with
  | some value => itemsOf value.toJson
  | none => .ok none

def isSaved (t : Table) (hash : Text) : Bool := (t.find? (codeKey hash)).isSome

def hashOf? (t : Table) (chain : Text) (address : Address) : Option Json :=
  (t.find? (contractKey chain address)).map Value.toJson

/-- The hash and the entries in a row, if it is the row of a piece of code. -/
def savedRow? (row : Text × Value) : Option (Text × Json) :=
  if codeMark.isPrefixOf row.1 then some (row.1.drop codeMark.length, row.2.toJson) else none

/-- All saved entries with their hashes, in the order of the latest write. -/
def saved (t : Table) : List (Text × Json) := t.filterMap savedRow?

end Table

end AbiRecovery.Store
