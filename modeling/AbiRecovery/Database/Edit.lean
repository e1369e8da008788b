import AbiRecovery.Database.Page
import AbiRecovery.Database.Reader

/-!
# Editing files

The pages of a file while they are edited. Pages that are free again form a list: the first of them names
further ones, and the list is used up before the file grows. A page that becomes free is filled with zeros.

A cell may wait for room on its page until the page has been balanced with its neighbours.
-/
namespace AbiRecovery.Database

/-- A cell that waits for room, and its place among the cells of its page. -/
structure Waiting where
  place : Nat
  cell : ByteArray

/-- A file while it is edited. -/
structure Draft where
  image : Image
  /-- The cells that wait, by the numbers of their pages. -/
  waiting : List (Nat × List Waiting)

abbrev Edit (α : Type) : Type := StateM Draft α

namespace Edit

def bytesOf (number : Nat) : Edit ByteArray := do return (← get).image.page number

def setBytes (number : Nat) (bytes : ByteArray) : Edit Unit :=
  modify fun d => { d with image := { d.image with pages := d.image.pages.setIfInBounds (number - 1) bytes } }

/-- Writes a number of four bytes on a page. -/
def writeNumber (number place value : Nat) : Edit Unit := do
  setBytes number (putNumber 4 (← bytesOf number) place value)

def numberOn (number place : Nat) : Edit Nat := do return numberAt 4 (← bytesOf number) place

def usable : Edit Nat := do return (← get).image.usable

def page (number : Nat) : Edit Page := do return ⟨← bytesOf number, treeStart number, ← usable⟩

def setPage (number : Nat) (p : Page) : Edit Unit := setBytes number p.bytes

def waitingOn (number : Nat) : Edit (List Waiting) := do return ((← get).waiting.lookup number).getD []

def setWaiting (number : Nat) (cells : List Waiting) : Edit Unit :=
  modify fun d => { d with waiting := (number, cells) :: d.waiting.filter fun entry => entry.1 ≠ number }

/-- Where the numbers of further free pages stand on a free page, after their count. -/
def freeList : Nat := 8

/-- The place of the number that is nearest to `wanted`, the first one of several. -/
def nearest (wanted : Nat) (numbers : List Nat) : Nat :=
  let distance (n : Nat) : Nat := (n - wanted) + (wanted - n)
  (numbers.zipIdx.foldl (fun (best : Option (Nat × Nat)) (n, i) => match best with
    | none => some (distance n, i)
    | some (least, j) => if distance n < least then some (distance n, i) else some (least, j)) none).elim 0 Prod.snd

/-- Takes a page for use, if possible near `wanted`, and tells its number. -/
def takePage (wanted : Nat) : Edit Nat := do
  let free ← numberOn 1 Place.freeCount
  if free = 0 then
    let d ← get
    let number := d.image.pages.size + 1
    set { d with image := { d.image with pages := d.image.pages.push (zeros d.image.pageSize) } }
    writeNumber 1 Place.pageCount number
    return number
  else
    writeNumber 1 Place.freeCount (free - 1)
    let first ← numberOn 1 Place.firstFree
    let bytes ← bytesOf first
    let count := numberAt 4 bytes 4
    if count = 0 then
      writeNumber 1 Place.firstFree (numberAt 4 bytes 0)
      return first
    else
      let numbers := (List.range count).map fun i => numberAt 4 bytes (freeList + 4 * i)
      let i := if wanted = 0 then 0 else nearest wanted numbers
      let last := numbers.getD (count - 1) 0
      let bytes := if i < count - 1 then putNumber 4 bytes (freeList + 4 * i) last else bytes
      setBytes first (putNumber 4 bytes 4 (count - 1))
      return numbers.getD i 0

def freePage (number : Nat) : Edit Unit := do
  let free ← numberOn 1 Place.freeCount
  writeNumber 1 Place.freeCount (free + 1)
  setBytes number (zeros (← get).image.pageSize)
  let first ← numberOn 1 Place.firstFree
  let count ← numberOn first 4
  if free ≠ 0 && count < (← usable) / 4 - 8 then
    setBytes first (putNumber 4 (putNumber 4 (← bytesOf first) 4 (count + 1)) (freeList + 4 * count) number)
  else
    writeNumber number 0 (if free = 0 then 0 else first)
    writeNumber 1 Place.firstFree number

/-- Writes what is left of a payload to pages of its own, the first one near `wanted`, and tells the number
of the first. -/
def writeRest (payload : ByteArray) : (fuel wanted : Nat) → Edit Nat
  | 0, _ => return 0
  | fuel + 1, wanted => do
    let number ← takePage wanted
    let here := part payload 0 ((← usable) - 4)
    setBytes number (overwrite (putNumber 4 (← bytesOf number) 0 0) 4 here)
    if here.size < payload.size then
      let next ← writeRest (payload.extract here.size payload.size) fuel number
      writeNumber number 0 next
    return number

/-- Makes a cell for a page of a kind from its head and its payload. -/
def makeCell (kind : Kind) (head payload : ByteArray) : Edit ByteArray := do
  let kept := localSize kind (← usable) payload.size
  if kept = payload.size then
    let cell := head ++ payload
    return cell ++ zeros (4 - cell.size)
  else
    let rest := payload.extract kept payload.size
    let first ← writeRest rest (rest.size + 1) 0
    return head ++ part payload 0 kept ++ fixed 4 first

/-- Frees the pages on which a payload goes on. -/
def freeRest : (fuel number count : Nat) → Edit Unit
  | 0, _, _ => return
  | fuel + 1, number, count => do
    if count ≠ 0 then
      let next ← numberOn number 0
      freePage number
      freeRest fuel next (count - ((← usable) - 4))

/-- Frees the pages on which the payload of a cell goes on. -/
def freeCell (p : Page) (i : Nat) : Edit Unit := do
  let cell := p.cellParts i
  let rest := cell.payload - cell.kept
  freeRest (rest + 1) (numberAt 4 p.bytes (p.place i + cell.start + cell.kept)) rest

/-- Inserts a cell, which waits if it has no room or if others wait already. -/
def insertCell (number i : Nat) (cell : ByteArray) : Edit Unit := do
  let p ← page number
  let waiting ← waitingOn number
  if waiting.isEmpty && p.fits cell then setPage number (p.insert i cell)
  else setWaiting number (waiting ++ [⟨i, cell⟩])

def dropCell (number i : Nat) : Edit Unit := do setPage number ((← page number).drop i)

end Edit

end AbiRecovery.Database
