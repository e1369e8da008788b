import AbiRecovery.Database.Layout

/-!
# Pages of trees

A page of a tree has a head, the places of its cells in their order, and the cells, which are stacked from
the end of the page towards its middle. Space that is freed between cells forms a chain of blocks in the
order of their places; up to three bytes, too few for a block, are lost until the page is packed again.
Freed space is filled with zeros.
-/
namespace AbiRecovery.Database

structure Page where
  bytes : ByteArray
  /-- Where the head begins. -/
  start : Nat
  /-- Where the part that is used ends. -/
  usable : Nat

namespace Page

/-- A number of two bytes at a place. -/
def numberAt (p : Page) (place : Nat) : Nat := Database.numberAt 2 p.bytes place

def write (p : Page) (place : Nat) (bytes : ByteArray) : Page := { p with bytes := overwrite p.bytes place bytes }

/-- Writes a number of `width` bytes at a place. -/
def writeNumber (p : Page) (width place number : Nat) : Page := p.write place (fixed width number)

/-- Moves bytes to another place, over what stands there. -/
def move (p : Page) (source target size : Nat) : Page := p.write target (part p.bytes source size)

def kind (p : Page) : Kind := (Kind.ofByte? (byteAt p.bytes p.start)).getD .leafTable

def count (p : Page) : Nat := p.numberAt (p.start + 3)

def setCount (p : Page) (count : Nat) : Page := p.writeNumber 2 (p.start + 3) count

/-- Where the number stands that is the place of a cell. -/
def pointer (p : Page) (i : Nat) : Nat := p.start + p.kind.headSize + 2 * i

def place (p : Page) (i : Nat) : Nat := p.numberAt (p.pointer i)

def cellParts (p : Page) (i : Nat) : Cell := cellAt p.kind p.usable p.bytes (p.place i)

def cell (p : Page) (i : Nat) : ByteArray := part p.bytes (p.place i) (p.cellParts i).size

/-- Where the cells begin. -/
def top (p : Page) : Nat :=
  let told := p.numberAt (p.start + 5)
  if told = 0 then 65536 else told

def setTop (p : Page) (top : Nat) : Page := p.writeNumber 2 (p.start + 5) top

/-- Where the number stands that is the place of the first free block. -/
def chainStart (p : Page) : Nat := p.start + 1

def hasBlocks (p : Page) : Bool := p.numberAt p.chainStart ≠ 0

/-- How many bytes are lost between cells. -/
def lost (p : Page) : Nat := byteAt p.bytes (p.start + 7)

/-- Writes how many bytes are lost between cells. -/
def setLost (p : Page) (lost : Nat) : Page := p.writeNumber 1 (p.start + 7) lost

/-- Where the number of the page after the last cell stands. -/
def lastPlace (p : Page) : Nat := p.start + 8

/-- The page below that comes before a cell, or after the last one. -/
def child (p : Page) (i : Nat) : Nat :=
  Database.numberAt 4 p.bytes (if i < p.count then p.place i else p.lastPlace)

def blockSizes (p : Page) : (fuel place : Nat) → List Nat
  | 0, _ => []
  | fuel + 1, place => if place = 0 then [] else p.numberAt (place + 2) :: blockSizes p fuel (p.numberAt place)

/-- How many bytes are free, wherever they are. -/
def room (p : Page) : Nat :=
  p.lost + p.top + (p.blockSizes p.usable (p.numberAt p.chainStart)).foldl (· + ·) 0 - p.pointer p.count

def clean (kind : Kind) (start usable : Nat) (bytes : ByteArray) : Page :=
  let p : Page := ⟨overwrite bytes start (zeros (usable - start)), start, usable⟩
  (p.writeNumber 1 start kind.byte.toNat).setTop usable

/-- Takes a free block, or the end of one, for `size` bytes, and tells its place; `link` is where the place
of the next block stands. -/
def takeBlock? (p : Page) (size : Nat) : (fuel link : Nat) → Option (Page × Nat)
  | 0, _ => none
  | fuel + 1, link =>
    let here := p.numberAt link
    let found := p.numberAt (here + 2)
    if here = 0 || p.usable < here + size then none
    else if found < size then p.takeBlock? size fuel here
    else if found - size < 4 then
      if p.lost > 57 then none
      else some ((p.move here link 2).setLost (p.lost + (found - size)), here)
    else some (p.writeNumber 2 (here + 2) (found - size), here + (found - size))

/-- Takes a free block for `size` bytes, and tells its place. -/
def block? (p : Page) (size : Nat) : Option (Page × Nat) := p.takeBlock? size p.usable p.chainStart

/-- Moves the cells with one or two free blocks among them together, where the blocks have the places and
the sizes given. -/
def closeBlocks (p : Page) (first size second size' : Nat) : Page :=
  let top := p.top
  let p := if second = 0 then p else p.move (first + size) (first + size + size') (second - (first + size))
  let p := p.move top (top + size + size') (first - top)
  let p := (List.range p.count).foldl (fun p i =>
    let place := p.place i
    if place < first then p.writeNumber 2 (p.pointer i) (place + size + size')
    else if place < second then p.writeNumber 2 (p.pointer i) (place + size')
    else p) p
  p.setTop (top + size + size')

def stackCells (p : Page) : Page :=
  let (p, top) := (List.range p.count).foldl (fun (packed, top) i =>
    let cell := p.cell i
    let top := top - cell.size
    ((packed.writeNumber 2 (p.pointer i) top).write top cell, top)) (p, p.usable)
  (p.setLost 0).setTop top

/-- Packs the cells so that all free space is in one piece. If at most `mostLost` bytes are lost and there
are one or two free blocks, the cells keep their order on the page. -/
def pack (p : Page) (mostLost : Option Nat) : Page :=
  let first := p.numberAt p.chainStart
  let second := if first = 0 then 0 else p.numberAt first
  let few := first ≠ 0 && (second = 0 || p.numberAt second = 0)
  let p :=
    if mostLost.any (p.lost ≤ ·) && few then
      p.closeBlocks first (p.numberAt (first + 2)) second (if second = 0 then 0 else p.numberAt (second + 2))
    else p.stackCells
  let p := p.writeNumber 2 p.chainStart 0
  p.write (p.pointer p.count) (zeros (p.top - p.pointer p.count))

/-- Takes `size` bytes for a new cell, whose pointer also needs room, and tells their place. -/
def take (p : Page) (size : Nat) : Page × Nat :=
  let stop := p.pointer p.count + 2
  match (if p.hasBlocks && stop ≤ p.top then p.block? size else none) with
  | some found => found
  | none =>
    let p := if p.top < stop + size then p.pack (some (min 4 (p.room - (2 + size)))) else p
    (p.setTop (p.top - size), p.top - size)

/-- Where the place of the first free block after `place` stands, and that place. -/
def linkBefore (p : Page) (place : Nat) : (fuel link : Nat) → Nat × Nat
  | 0, link => (link, 0)
  | fuel + 1, link =>
    let next := p.numberAt link
    if next = 0 || place ≤ next then (link, next) else p.linkBefore place fuel next

/-- Frees `size` bytes at a place. They are joined with the free blocks at their sides, and with the lost
bytes in between. If they are the first ones where the cells begin, the cells begin behind them, and they
are no block, although they are marked like one. -/
def free (p : Page) (place size : Nat) : Page :=
  let (link, next) := p.linkBefore place p.usable p.chainStart
  let stop := place + size
  let (stop, next, lost) :=
    if next ≠ 0 && next ≤ stop + 3 then (next + p.numberAt (next + 2), p.numberAt next, next - stop)
    else (stop, next, 0)
  let before := link + p.numberAt (link + 2)
  let (place, lost) :=
    if link ≠ p.chainStart && place ≤ before + 3 then (link, lost + (place - before)) else (place, lost)
  let p := p.setLost (p.lost - lost)
  let p := if place ≤ p.top then (p.writeNumber 2 p.chainStart next).setTop stop else p.writeNumber 2 link place
  ((p.write place (zeros (stop - place))).writeNumber 2 place next).writeNumber 2 (place + 2) (stop - place)

def drop (p : Page) (i : Nat) : Page :=
  let p := p.free (p.place i) (p.cellParts i).size
  let count := p.count - 1
  if count = 0 then (((p.write p.chainStart (zeros 4)).setLost 0).setTop p.usable)
  else (p.move (p.pointer (i + 1)) (p.pointer i) (2 * (count - i))).setCount count

def fits (p : Page) (cell : ByteArray) : Bool := cell.size + 2 ≤ p.room

def insert (p : Page) (i : Nat) (cell : ByteArray) : Page :=
  let (p, place) := p.take cell.size
  let p := p.write place cell
  let p := p.move (p.pointer i) (p.pointer (i + 1)) (2 * (p.count - i))
  (p.writeNumber 2 (p.pointer i) place).setCount (p.count + 1)

def copyTo (source target : Page) : Page :=
  let top := source.top
  let target := target.write top (part source.bytes top (source.usable - top))
  target.write target.start (part source.bytes source.start (source.pointer source.count))

end Page

end AbiRecovery.Database
