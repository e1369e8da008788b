import AbiRecovery.Database.Bytes

/-!
# The layout of database files

A database file consists of pages of one size, counted from one. The first hundred bytes describe the
file. The pages of a tree hold cells: the leaves of a table tree hold rows, each with a number and a
payload, and its inner pages hold numbers that divide the rows; the cells of an index tree hold payloads
only. An inner cell begins with the number of the page that comes before it in order; one more page comes
after the last cell. What does not fit of a payload goes on in pages of its own.
-/
namespace AbiRecovery.Database

/-- The text that a database file begins with, with its closing zero. -/
def magic : List UInt8 := "SQLite format 3".toUTF8.toList ++ [0]

/-- The size of the description at the beginning of the first page. -/
def descriptionSize : Nat := 100

/-- The size of a page unless a file says otherwise. -/
def defaultPageSize : Nat := 4096

namespace Place

/-! Places in the description. -/

def pageSize : Nat := 16
def writeVersion : Nat := 18
def readVersion : Nat := 19
/-- Bytes at the end of each page that are not used. -/
def reserved : Nat := 20
/-- Three bytes that are the same in all files. -/
def fractions : Nat := 21
def changes : Nat := 24
def pageCount : Nat := 28
/-- The first page of the list of free pages. -/
def firstFree : Nat := 32
def freeCount : Nat := 36
/-- How often what the file holds has been declared anew. -/
def declarations : Nat := 40
def format : Nat := 44
def encoding : Nat := 56
/-- The number of changes when the number of pages was written. -/
def changesKnown : Nat := 92
def writer : Nat := 96

end Place

inductive Kind where
  | innerIndex | innerTable | leafIndex | leafTable
  deriving DecidableEq, Repr

namespace Kind

/-- The byte that a page of a kind begins with. -/
def byte : Kind → UInt8
  | innerIndex => 2
  | innerTable => 5
  | leafIndex => 10
  | leafTable => 13

def ofByte? : (byte : Nat) → Option Kind
  | 2 => some innerIndex
  | 5 => some innerTable
  | 10 => some leafIndex
  | 13 => some leafTable
  | _ => none

def isLeaf : Kind → Bool
  | leafIndex | leafTable => true
  | innerIndex | innerTable => false

/-- Whether the cells hold rows or what divides them. -/
def isTable : Kind → Bool
  | innerTable | leafTable => true
  | innerIndex | leafIndex => false

def inner (kind : Kind) : Kind := if kind.isTable then innerTable else innerIndex

/-- The size of what stands before the places of the cells. -/
def headSize (kind : Kind) : Nat := if kind.isLeaf then 8 else 12

/-- How much of a payload stays in its cell at most. -/
def mostLocal (kind : Kind) (usable : Nat) : Nat :=
  if kind.isTable then usable - 35 else (usable - 12) * 64 / 255 - 23

end Kind

/-- How much of a payload stays in its cell at least. -/
def leastLocal (usable : Nat) : Nat := (usable - 12) * 32 / 255 - 23

/-- How much of a payload stays in its cell. -/
def localSize (kind : Kind) (usable payload : Nat) : Nat :=
  let most := kind.mostLocal usable
  if payload ≤ most then payload
  else
    let least := leastLocal usable
    let size := least + (payload - least) % (usable - 4)
    if size ≤ most then size else least

structure Cell where
  /-- The page before it, for an inner cell. -/
  before : Nat
  /-- The number of a row, or the one that divides rows. -/
  row : Nat
  /-- The size of the whole payload. -/
  payload : Nat
  /-- Where the payload begins, counted from the beginning of the cell. -/
  start : Nat
  /-- How much of the payload stands in the cell. -/
  kept : Nat
  /-- The size of the cell. -/
  size : Nat

def cellAt (kind : Kind) (usable : Nat) (bytes : ByteArray) (place : Nat) : Cell :=
  let skip := if kind.isLeaf then 0 else 4
  let before := if kind.isLeaf then 0 else numberAt 4 bytes place
  if kind = .innerTable then
    let (row, width) := variableAt bytes (place + skip)
    ⟨before, row, 0, skip + width, 0, skip + width⟩
  else
    let (payload, width) := variableAt bytes (place + skip)
    let (row, rowWidth) := if kind.isTable then variableAt bytes (place + skip + width) else (0, 0)
    let start := skip + width + rowWidth
    let kept := localSize kind usable payload
    ⟨before, row, payload, start, kept, max 4 (start + kept + (if kept < payload then 4 else 0))⟩

/-- Where on a page its tree begins. -/
def treeStart (number : Nat) : Nat := if number = 1 then descriptionSize else 0

end AbiRecovery.Database
