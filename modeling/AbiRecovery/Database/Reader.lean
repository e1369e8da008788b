import AbiRecovery.Database.Layout

/-!
# Reading database files

A file is read page by page. What it declares is a table of its own in the tree that begins on the first
page; each declaration has a kind, a name and the page on which its tree begins. The rows of a table come
in the order of their numbers.
-/
namespace AbiRecovery.Database

inductive Fault where
  /-- It does not begin like a database file. -/
  | otherFormat
  /-- It begins like one, and goes on otherwise. -/
  | broken
  /-- It is of a later format. -/
  | laterFormat
  deriving DecidableEq, Repr

def Fault.message : Fault → String
  | .otherFormat => "file is not a database"
  | .broken => "database disk image is malformed"
  | .laterFormat => "unsupported file format"

/-- The pages of a file. -/
structure Image where
  /-- The pages; the first page is number one. -/
  pages : Array ByteArray
  /-- How many bytes of each page are used. -/
  usable : Nat

namespace Image

def page (i : Image) (number : Nat) : ByteArray := if number = 0 then ⟨#[]⟩ else i.pages.getD (number - 1) ⟨#[]⟩

def pageSize (i : Image) : Nat := (i.page 1).size

end Image

/-- A file cut into pages; the last page is filled up with zeros. -/
def cut (pageSize : Nat) (bytes : ByteArray) : Array ByteArray :=
  (Array.range ((bytes.size + pageSize - 1) / pageSize)).map fun i =>
    let page := part bytes (i * pageSize) pageSize
    page ++ zeros (pageSize - page.size)

/-- The size of pages that a file tells: a power of two from 512 to 65536, where 1 stands for the last. -/
def toldPageSize? (bytes : ByteArray) : Option Nat :=
  let told := byteAt bytes Place.pageSize * 256 + byteAt bytes (Place.pageSize + 1) * 65536
  if [512, 1024, 2048, 4096, 8192, 16384, 32768, 65536].contains told then some told else none

/-- The number of pages that a file tells, if what it tells is up to date. -/
def toldPages? (bytes : ByteArray) : Option Nat :=
  let told := numberAt 4 bytes Place.pageCount
  if told ≠ 0 && numberAt 4 bytes Place.changes = numberAt 4 bytes Place.changesKnown then some told else none

def Image.ofFile (file : Bytes) : Except Fault Image :=
  let bytes : ByteArray := ⟨file.toArray⟩
  let usual := (magic.zipIdx.all fun (byte, i) => byteAt bytes i = byte.toNat) &&
    byteAt bytes Place.readVersion ≤ 2 && numberAt 3 bytes Place.fractions = 0x402020
  match (if usual then toldPageSize? bytes else none) with
  | none => .error .otherFormat
  | some pageSize =>
    let pages := cut pageSize bytes
    let usable := pageSize - byteAt bytes Place.reserved
    if (toldPages? bytes).any (pages.size < ·) then .error .broken
    else if usable < 480 then .error .otherFormat
    else if byteAt bytes (Place.format + 3) > 4 then .error .laterFormat
    else .ok ⟨pages.extract 0 ((toldPages? bytes).getD pages.size), usable⟩

/-- Whether writes may stand beside a file before they go into it. -/
def writesAhead (file : Bytes) : Bool := magic.isPrefixOf file && file[Place.readVersion]? = some 2

/-- Whether a file may only be written by those who know a later format. -/
def isWriteBarred (file : Bytes) : Bool := file.getD Place.writeVersion 0 > 2

namespace Image

/-- What goes on from a page on, at most `count` bytes; each page begins with the number of the next. -/
def continuation (i : Image) : (fuel number count : Nat) → ByteArray
  | 0, _, _ => ⟨#[]⟩
  | fuel + 1, number, count =>
    if number = 0 || count = 0 then ⟨#[]⟩
    else
      let here := part (i.page number) 4 (min count (i.usable - 4))
      here ++ i.continuation fuel (numberAt 4 (i.page number) 0) (count - here.size)

/-- The payload of a cell at a place of a page. -/
def payload (i : Image) (bytes : ByteArray) (place : Nat) (cell : Cell) : ByteArray :=
  let here := part bytes (place + cell.start) cell.kept
  if cell.kept < cell.payload then
    here ++ i.continuation (i.pages.size + 1) (numberAt 4 bytes (place + cell.start + cell.kept))
      (cell.payload - cell.kept)
  else here

def cellPlaces (kind : Kind) (start : Nat) (bytes : ByteArray) : List Nat :=
  (List.range (numberAt 2 bytes (start + 3))).map fun i => numberAt 2 bytes (start + kind.headSize + 2 * i)

/-- How many pages may stand above each other. -/
def maxHeight : Nat := 20

/-- The rows of a table with their numbers, from the tree that begins on a page. -/
def rowsFrom (i : Image) : (height number : Nat) → Except Fault (List (Nat × ByteArray))
  | 0, _ => .error .broken
  | height + 1, number =>
    let bytes := i.page number
    let start := treeStart number
    match Kind.ofByte? (byteAt bytes start) with
    | some .leafTable =>
      .ok ((cellPlaces .leafTable start bytes).map fun place =>
        let cell := cellAt .leafTable i.usable bytes place
        (cell.row, i.payload bytes place cell))
    | some .innerTable => do
      let below ← (cellPlaces .innerTable start bytes).mapM fun place =>
        i.rowsFrom height (numberAt 4 bytes place)
      let last ← i.rowsFrom height (numberAt 4 bytes (start + 8))
      return below.flatten ++ last
    | _ => .error .broken

def rows (i : Image) (root : Nat) : Except Fault (List (Nat × ByteArray)) := i.rowsFrom maxHeight root

end Image

inductive Field where
  | null
  | int (n : Int)
  | text (bytes : ByteArray)
  | blob (bytes : ByteArray)
  /-- A number that is not whole, by its eight bytes. -/
  | real (bytes : ByteArray)

/-- The size of a value of a type, and what makes the value of its bytes. -/
def fieldOf (type : Nat) : Nat × (ByteArray → Field) :=
  let signed (width : Nat) (bytes : ByteArray) : Field := .int (Int.bmod (numberAt width bytes 0) (Nat.pow 256 width))
  match type with
  | 0 => (0, fun _ => .null)
  | 1 => (1, signed 1)
  | 2 => (2, signed 2)
  | 3 => (3, signed 3)
  | 4 => (4, signed 4)
  | 5 => (6, signed 6)
  | 6 => (8, signed 8)
  | 7 => (8, .real)
  | 8 => (0, fun _ => .int 0)
  | 9 => (0, fun _ => .int 1)
  | n => if n % 2 = 0 then ((n - 12) / 2, .blob) else ((n - 13) / 2, .text)

/-- The types at the beginning of a payload, between two places. -/
def fieldTypes (bytes : ByteArray) : (fuel place stop : Nat) → List Nat
  | 0, _, _ => []
  | fuel + 1, place, stop =>
    if stop ≤ place then []
    else
      let (type, width) := variableAt bytes place
      type :: fieldTypes bytes fuel (place + width) stop

def fields (payload : ByteArray) : List Field :=
  let (head, width) := variableAt payload 0
  ((fieldTypes payload head width head).foldl (fun (place, found) type =>
    let (size, make) := fieldOf type
    (place + size, make (part payload place size) :: found)) (head, [])).2.reverse

structure Declaration where
  kind : ByteArray
  name : ByteArray
  /-- The page on which its tree begins. -/
  root : Nat

def Image.declarations (i : Image) : Except Fault (List Declaration) := do
  let rows ← i.rows 1
  return rows.filterMap fun (_, payload) => match fields payload with
    | .text kind :: .text name :: _ :: .int root :: _ => some ⟨kind, name, root.toNat⟩
    | _ => none

/-- The page on which the tree of a table begins, if there is the table. -/
def Image.tableRoot? (i : Image) (name : String) : Except Fault (Option Nat) := do
  let declared ← i.declarations
  return (declared.find? fun d => d.kind.toList = "table".toUTF8.toList && d.name.toList = name.toUTF8.toList).map
    Declaration.root

end AbiRecovery.Database
