import AbiRecovery.Database.Tree

/-!
# Tables with keys

A table whose rows are texts with bytes, and the index that finds rows by their texts. Each row that is
written gets a new number after all others; an older row with the same text is removed before. Every change
of a file is counted in its description.
-/
namespace AbiRecovery.Database

namespace Edit

def textField (s : String) : Field := .text s.toUTF8

/-- The row that stands for a declaration until it is known. -/
def placeholder : List Field := List.replicate 5 .null

def tableDeclaration (name : String) (root : Nat) : List Field :=
  [textField "table", textField name, textField name, .int root,
    textField ("CREATE TABLE \"" ++ name ++ "\" (key TEXT PRIMARY KEY, value BLOB)")]

def indexName (name : String) : String := "sqlite_autoindex_" ++ name ++ "_1"

def indexDeclaration (name : String) (root : Nat) : List Field :=
  [textField "index", textField (indexName name), textField name, .int root, .null]

def writerVersion : Nat := 3040001

def countChange : Edit Unit := do
  let changes ← numberOn 1 Place.changes
  writeNumber 1 Place.changes (changes + 1)
  writeNumber 1 Place.changesKnown (changes + 1)
  writeNumber 1 Place.writer writerVersion
  writeNumber 1 Place.pageCount (← get).image.pages.size

def replaceRow (root row : Nat) (values : List Field) : Edit Unit := do
  let (way, _) ← seek (.row row) Image.maxHeight root []
  match way with
  | [] => return
  | turn :: _ =>
    let payload := payloadOf values
    let cell ← makeCell .leafTable (variableNumber payload.size ++ variableNumber row) payload
    let p ← page turn.number
    freeCell p turn.index
    if cell.size = (p.cell turn.index).size then setPage turn.number (p.write (p.place turn.index) cell)
    else
      dropCell turn.number turn.index
      insertAt way cell

def declare (name : String) : Edit Unit := do
  if (← numberOn 1 Place.format) = 0 then
    writeNumber 1 Place.format 4
    writeNumber 1 Place.encoding 1
  let table ← newTree .leafTable
  let row := (← lastRow 1) + 1
  insertRow 1 row placeholder
  let index ← newTree .leafIndex
  insertRow 1 (row + 1) (indexDeclaration name index)
  replaceRow 1 row (tableDeclaration name table)
  writeNumber 1 Place.declarations ((← numberOn 1 Place.declarations) + 1)
  countChange

/-- Writes a row of the table and of the index that begin on the given pages. -/
def putRow (table index : Nat) (key value : ByteArray) : Edit Unit := do
  let row := (← lastRow table) + 1
  let (way, found) ← seek (.text key.toList) Image.maxHeight index []
  if found then
    match way with
    | [] => pure ()
    | turn :: _ =>
      let old ← fieldsOf (← page turn.number) turn.index
      match old with
      | _ :: .int number :: _ =>
        let (rowWay, foundRow) ← seek (.row number.toNat) Image.maxHeight table []
        if foundRow then removeAt rowWay
      | _ => pure ()
      removeAt way
  insertEntry index key row
  insertRow table row [.text key, .blob value]
  countChange

/-- Notes that writes go straight into the file. -/
def settle : Edit Unit := do
  setBytes 1 (putNumber 1 (putNumber 1 (← bytesOf 1) Place.writeVersion 1) Place.readVersion 1)
  countChange

end Edit

namespace Image

/-- Whether the file says that writes go straight into it. -/
def isSettled (i : Image) : Bool :=
  byteAt (i.page 1) Place.writeVersion = 1 && byteAt (i.page 1) Place.readVersion = 1

/-- A file without pages becomes one with an empty first page. -/
def begun : Image :=
  let head := overwrite (zeros defaultPageSize) 0 ⟨magic.toArray⟩
  let head := putNumber 2 head Place.pageSize defaultPageSize
  let head := putNumber 1 (putNumber 1 head Place.writeVersion 1) Place.readVersion 1
  let head := putNumber 4 (putNumber 3 head Place.fractions 0x402020) Place.pageCount 1
  ⟨#[(Page.clean .leafTable descriptionSize defaultPageSize head).bytes], defaultPageSize⟩

/-- The number of the page on which the tree of something declared begins. -/
def rootOf? (i : Image) (kind name : String) : Option Nat :=
  (i.declarations.toOption.getD []).findSome? fun d =>
    if d.kind.toList = kind.toUTF8.toList && d.name.toList = name.toUTF8.toList then some d.root else none

def edited (i : Image) (edit : Edit Unit) : Image := (edit.run ⟨i, []⟩).2.image

/-- The file with a table with keys, which is declared unless it is there. -/
def withTable (i : Image) (name : String) : Image :=
  if (i.rootOf? "table" name).isSome then i else i.edited (Edit.declare name)

/-- The file after rows of a table with keys have been written. -/
def withRows (i : Image) (name : String) (rows : List (ByteArray × ByteArray)) : Image :=
  match i.rootOf? "table" name, i.rootOf? "index" (Edit.indexName name) with
  | some table, some index => rows.foldl (fun i (key, value) => i.edited (Edit.putRow table index key value)) i
  | _, _ => i

/-- The file after it has been noted that writes go straight into it. -/
def settled (i : Image) : Image := i.edited Edit.settle

def bytes (i : Image) : Bytes := i.pages.toList.flatMap ByteArray.toList

end Image

end AbiRecovery.Database
