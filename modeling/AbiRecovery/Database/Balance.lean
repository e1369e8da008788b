import AbiRecovery.Database.Edit
import AbiRecovery.Database.Move
import AbiRecovery.Database.Packing

/-!
# Balancing trees

After a cell has been inserted or removed, the pages on the way to it are balanced from below: a page on
which cells wait, or of which more than two thirds are free, is shared out anew with its neighbours. A
root on which cells wait gets a page below it; a root whose only page below fits on it takes its cells.
-/
namespace AbiRecovery.Database

/-- A page on the way from the root of a tree, and the place of the cell, or of the page below, to which the
way goes on. -/
structure Turn where
  number : Nat
  index : Nat

namespace Edit

/-- The number of a page with the cells that wait on it, in their order, by their bytes. -/
def cellsOn (number self : Nat) : Edit (List Mover) := do
  let p ← page number
  let waiting ← waitingOn number
  let placed (i : Nat) : Mover := ⟨p.cell i, some (self, p.place i)⟩
  let first := match waiting with
    | [] => p.count
    | w :: _ => w.place
  let before := (List.range first).map placed
  let after := (List.range (p.count - first)).map fun i => placed (first + i)
  return before ++ waiting.map (fun w => ⟨w.cell, none⟩) ++ after

/-- The cell on a page that divides two pages below it, counted with the cells that wait. It is removed. -/
def takeDivider (number i : Nat) : Edit ByteArray := do
  let p ← page number
  match ← waitingOn number with
  | w :: _ =>
    if w.place = i then
      setWaiting number []
      return w.cell
    else
      let i := if w.place < i then i - 1 else i
      dropCell number i
      return p.cell i
  | [] =>
    dropCell number i
    return p.cell i

/-- The number of a page below another one, counted with the cells that wait. -/
def childOn (number i : Nat) : Edit Nat := do
  let p ← page number
  match ← waitingOn number with
  | w :: _ =>
    if w.place = i then return numberAt 4 w.cell 0
    else return p.child (if w.place < i then i - 1 else i)
  | [] => return p.child i

/-- Takes the dividers between the pages below another one from `first` on, `count` of them, from right to
left. -/
def takeDividers (number first : Nat) : (count : Nat) → Edit (List ByteArray)
  | 0 => return []
  | count + 1 => do
    let last ← takeDivider number (first + count)
    return (← takeDividers number first count) ++ [last]

/-- The cell that a divider becomes among the cells of the pages that it divided, where `last` is the page
after the cells of the page before it. -/
def loweredDivider (leaf : Bool) (divider : ByteArray) (last : Nat) : ByteArray :=
  if leaf then
    let cell := divider.extract 4 divider.size
    cell ++ zeros (4 - cell.size)
  else putNumber 4 divider 0 last

/-- All cells of neighbouring pages and of the dividers between them, and for each page the number of cells
before its end. -/
def gather (lifts : Bool) (self : Nat) (ends : List Nat) (cells : Array Mover) :
    List Nat → List ByteArray → Edit (Array Mover × List Nat)
  | [], _ => return (cells, ends.reverse)
  | number :: numbers, dividers => do
    let p ← page number
    let cells := cells ++ (← cellsOn number self).toArray
    let ends := cells.size :: ends
    match dividers with
    | [] => gather lifts (self + 1) ends cells numbers []
    | divider :: dividers =>
      let cells :=
        if lifts then cells.push ⟨loweredDivider p.kind.isLeaf divider (numberAt 4 p.bytes p.lastPlace), none⟩
        else cells
      gather lifts (self + 1) ends cells numbers dividers

/-- The bytes on a page of cells and their pointers, with those that wait. -/
def loadOf (space number : Nat) : Edit Int := do
  let p ← page number
  let waiting ← waitingOn number
  let needed : Nat := (waiting.map fun w => 2 + w.cell.size).foldl (· + ·) 0
  return (space : Int) - (p.room : Int) + (needed : Int)

/-- The cell that divides a page from the next one, for a tree whose cells hold rows: the number of the page
and that of its last row. -/
def rowDivider (usable number : Nat) (lastCell : ByteArray) : ByteArray :=
  fixed 4 number ++ variableNumber (cellAt .leafTable usable lastCell 0).row

/-- Takes so many pages, each near the one before. -/
def takePages (wanted : Nat) : (count : Nat) → Edit (List Nat)
  | 0 => return []
  | count + 1 => do
    let number ← takePage wanted
    return number :: (← takePages number count)

/-- Shares the cells of a page out anew with its neighbours, of which there are at most two; the way to it
goes through the page `parent` above it, at `index`. -/
def shareOut (parent index : Nat) (isRoot : Bool) : Edit Unit := do
  let usable ← usable
  let total := (← page parent).count + (← waitingOn parent).length
  let first := if total < 2 || index = 0 then 0 else if index = total then total - 2 else index - 1
  let between := min total 2
  let oldNumbers ← (List.range (between + 1)).mapM fun i => childOn parent (first + i)
  let dividers ← takeDividers parent first between
  let above ← page parent
  let lastPlace := if first < above.count then above.place first else above.lastPlace
  let oldPages ← oldNumbers.mapM page
  let kind := (oldPages.headD above).kind
  let lifts := kind ≠ .leafTable
  let space := usable - (if kind.isLeaf then 8 else 12)
  let (cells, oldEnds) ← gather lifts 0 [] #[] oldNumbers dividers
  let loads ← oldNumbers.mapM (loadOf space)
  let packing := Packing.run ⟨cells.map fun cell => cell.bytes.size, space, lifts, oldEnds.toArray, loads.toArray⟩
  let newEnds := packing.ends.toList
  let added ← takePages (oldNumbers.headD 0) (newEnds.length - oldNumbers.length)
  let numbers := (oldNumbers ++ added).take newEnds.length
  let gone := oldNumbers.drop newEnds.length
  let waiting ← oldNumbers.mapM waitingOn
  oldNumbers.forM fun number => setWaiting number []
  let newPages ← added.mapM fun number => do return Page.clean kind 0 usable (← bytesOf number)
  let pages := (oldPages ++ newPages).take newEnds.length
  let sorted := numbers.mergeSort (· ≤ ·)
  writeNumber parent lastPlace (sorted.getLastD 0)
  let cellBytes (i : Nat) : ByteArray := ((cells[i]?).map Mover.bytes).getD ⟨#[]⟩
  let lastChild := ((oldPages.getLast?).map fun p => numberAt 4 p.bytes p.lastPlace).getD 0
  let withChild (p : Page) (i : Nat) : Page :=
    if kind.isLeaf then p
    else p.writeNumber 4 p.lastPlace
      (if i + 1 = newEnds.length then lastChild else numberAt 4 (cellBytes (newEnds.getD i 0)) 0)
  let pages := pages.zipIdx.map fun (p, i) => withChild p i
  (sorted.zip newEnds).dropLast.zipIdx.forM fun ((number, stop), i) =>
    insertCell parent (first + i) <|
      if !lifts then rowDivider usable number (cellBytes (stop - 1))
      else if kind.isLeaf then fixed 4 number ++ cellBytes stop
      else putNumber 4 (cellBytes stop) 0 number
  let skip := if lifts then 1 else 0
  let startOf (ends : List Nat) (i : Nat) : Nat := if i = 0 then 0 else ends.getD (i - 1) 0 + skip
  (sorted.zip pages).zipIdx.forM fun ((number, p), i) =>
    let old := if i < oldNumbers.length then startOf oldEnds i else cells.size
    let start := startOf newEnds i
    setPage number
      (p.refill i cells old ((waiting.getD i []).map Waiting.place) start (newEnds.getD i 0 - start))
  let above ← page parent
  let only ← page (sorted.headD 0)
  if isRoot && above.count = 0 && above.start ≤ only.room then
    setPage parent ((only.pack none).copyTo above)
    freePage (sorted.headD 0)
  gone.forM freePage

/-- Moves the cells of a root, and those that wait on it, to a page below it, and tells its number. -/
def deepen (root : Nat) : Edit Nat := do
  let p ← page root
  let number ← takePage root
  let below : Page := ⟨← bytesOf number, 0, p.usable⟩
  setPage number (p.copyTo below)
  setWaiting number (← waitingOn root)
  setWaiting root []
  let emptied := Page.clean p.kind.inner p.start p.usable (← bytesOf root)
  setPage root (emptied.writeNumber 4 emptied.lastPlace number)
  return number

/-- Puts a row that waits after all others of its page on a new page after it. -/
def extend (parent number : Nat) (cell : ByteArray) : Edit Unit := do
  let p ← page number
  let added ← takePage 0
  setPage added ((Page.clean .leafTable 0 p.usable (← bytesOf added)).restack [⟨cell, none⟩])
  setWaiting number []
  let above ← page parent
  insertCell parent above.count (rowDivider p.usable number (p.cell (p.count - 1)))
  writeNumber parent above.lastPlace added

/-- Balances the pages on the way to a page, which is given from that page upwards, and tells what is left of
the way where nothing was to do any more. -/
def balance : (fuel : Nat) → List Turn → Edit (List Turn)
  | 0, way => return way
  | _, [] => return []
  | fuel + 1, turn :: above => do
    let p ← page turn.number
    let waiting ← waitingOn turn.number
    if waiting.isEmpty && 3 * p.room ≤ 2 * p.usable then return turn :: above
    else match above with
      | [] =>
        if waiting.isEmpty then return [turn]
        else
          let number ← deepen turn.number
          balance fuel [⟨number, 0⟩, ⟨turn.number, 0⟩]
      | parent :: further =>
        let atEnd := (← page parent.number).count = parent.index
        match waiting with
        | [w] =>
          if p.kind = .leafTable && w.place = p.count && parent.number ≠ 1 && atEnd then
            extend parent.number turn.number w.cell
          else shareOut parent.number parent.index further.isEmpty
        | _ => shareOut parent.number parent.index further.isEmpty
        balance fuel above

end Edit

end AbiRecovery.Database
