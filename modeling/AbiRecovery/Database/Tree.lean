import AbiRecovery.Database.Balance
import AbiRecovery.Database.Record

/-!
# Trees

Rows are looked for in table trees by their numbers and in index trees by the texts that their payloads
begin with. A cell that is removed from an inner page is replaced by the last one before it.
-/
namespace AbiRecovery.Database

inductive Target where
  /-- The row with a number. -/
  | row (number : Nat)
  /-- The entry that begins with a text. -/
  | text (bytes : List UInt8)

def bytesBefore : List UInt8 → List UInt8 → Bool
  | [], [] => false
  | [], _ :: _ => true
  | _ :: _, [] => false
  | a :: as, b :: bs => if a = b then bytesBefore as bs else a < b

namespace Edit

def fieldsOf (p : Page) (i : Nat) : Edit (List Field) := do
  return fields ((← get).image.payload p.bytes (p.place i) (p.cellParts i))

def compareCell (p : Page) (i : Nat) : Target → Edit Ordering
  | .row number => return compare (p.cellParts i).row number
  | .text bytes => do
    match ← fieldsOf p i with
    | .text here :: _ =>
      return if here.toList = bytes then .eq else if bytesBefore here.toList bytes then .lt else .gt
    | _ => return .lt

/-- The first cell from `i` on, among the next `count`, that does not come before what is looked for, and
whether it is just that. The cells are in order, so half of them are ruled out at a time. -/
def seekCell (p : Page) (target : Target) (i count : Nat) : Edit (Nat × Bool) := do
  if count = 0 then return (i, false)
  else
    let half := count / 2
    match ← compareCell p (i + half) target with
    | .lt => seekCell p target (i + half + 1) (count - half - 1)
    | .eq => return (i + half, true)
    | .gt => seekCell p target i half
termination_by count

/-- The way to what is looked for, or to where it belongs, from below upwards, and whether it is there. The
numbers on the inner pages of a table tree are no rows. -/
def seek (target : Target) : (height number : Nat) → List Turn → Edit (List Turn × Bool)
  | 0, _, above => return (above, false)
  | height + 1, number, above => do
    let p ← page number
    let (i, found) ← seekCell p target 0 p.count
    let way := ⟨number, i⟩ :: above
    if p.kind.isLeaf then return (way, found)
    else if found && !p.kind.isTable then return (way, true)
    else seek target height (p.child i) way

/-- The way to the last cell of a tree, from below upwards. -/
def seekLast : (height number : Nat) → List Turn → Edit (List Turn)
  | 0, _, above => return above
  | height + 1, number, above => do
    let p ← page number
    if p.kind.isLeaf then return ⟨number, p.count - 1⟩ :: above
    else seekLast height (p.child p.count) (⟨number, p.count⟩ :: above)

/-- How often balancing is tried at most on a way. -/
def balanceFuel (way : List Turn) : Nat := 2 * way.length + 2

/-- Inserts a cell at the end of a way. -/
def insertAt (way : List Turn) (cell : ByteArray) : Edit Unit := do
  match way with
  | [] => return
  | turn :: _ =>
    insertCell turn.number turn.index cell
    if !(← waitingOn turn.number).isEmpty then
      let _ ← balance (balanceFuel way) way

/-- Balances the pages on a way if the page at its end has much room, and tells what is left of the way. -/
def balanceRoomy (way : List Turn) : Edit (List Turn) := do
  match way with
  | [] => return []
  | turn :: _ =>
    let p ← page turn.number
    if 3 * p.room ≤ 2 * p.usable then return way else balance (balanceFuel way) way

/-- Removes the cell at the end of a way. -/
def removeAt (way : List Turn) : Edit Unit := do
  match way with
  | [] => return
  | turn :: above =>
    let p ← page turn.number
    freeCell p turn.index
    dropCell turn.number turn.index
    if p.kind.isLeaf then
      let _ ← balanceRoomy way
    else
      let below := p.child turn.index
      let longWay ← seekLast Image.maxHeight below way
      match longWay with
      | [] => return
      | leaf :: _ =>
        let cell := (← page leaf.number).cell leaf.index
        insertCell turn.number turn.index (fixed 4 below ++ cell)
        dropCell leaf.number leaf.index
        let left ← balanceRoomy longWay
        if way.length < left.length then
          let _ ← balance (balanceFuel way) (turn :: above)

/-- The number of the last row of a table. -/
def lastRow (root : Nat) : Edit Nat := do
  match ← seekLast Image.maxHeight root [] with
  | [] => return 0
  | turn :: _ =>
    let p ← page turn.number
    return if p.count = 0 then 0 else (p.cellParts turn.index).row

/-- Inserts a row with a new number after all others. -/
def insertRow (root row : Nat) (values : List Field) : Edit Unit := do
  let (way, _) ← seek (.row row) Image.maxHeight root []
  let payload := payloadOf values
  insertAt way (← makeCell .leafTable (variableNumber payload.size ++ variableNumber row) payload)

/-- Inserts an entry of an index, whose payload begins with a text. -/
def insertEntry (root : Nat) (text : ByteArray) (row : Nat) : Edit Unit := do
  let (way, _) ← seek (.text text.toList) Image.maxHeight root []
  let payload := payloadOf [.text text, .int row]
  insertAt way (← makeCell .leafIndex (variableNumber payload.size) payload)

/-- Begins a tree and tells the number of its root. -/
def newTree (kind : Kind) : Edit Nat := do
  let number ← takePage 1
  setPage number (.clean kind 0 (← usable) (← bytesOf number))
  return number

end Edit

end AbiRecovery.Database
