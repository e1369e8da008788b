import AbiRecovery.FileTree.Change

/-!
# What stands beside a store

A write that was interrupted may have left a journal beside the file of a store, and a file of writes to come
with its index. What they hold is never taken over: they are removed as far as they can be, and where they
cannot, they may be in the way.
-/
namespace AbiRecovery.FileTree

/-- What the name of a journal ends in: what a write may have to take back. -/
def journalEnding : Text := "-journal"

/-- What the name of a file of writes to come ends in. -/
def aheadEnding : Text := "-wal"

/-- What the name of the index of writes to come ends in. -/
def indexEnding : Text := "-shm"

def beside (here : Location) (ending : Text) : Location := here.dropLast ++ [here.getLastD "" ++ ending]

/-- Takes back what a journal beside a file says was not finished: it is removed, unless it begins with a
zero byte. What stands beside an empty file is removed if it can be. -/
def clearJournal (path here : Location) (name : Store.Name) (isEmpty : Bool) : Change Unit := do
  let journal := beside here journalEnding
  let readOnly := name.access = .readOnly
  match ← item? journal with
  | none => pure ()
  | some .directory => if isEmpty then pure () else fail path .inTheWay
  | some item => match item.bytes?.getD [] with
    | [] => pure ()
    | first :: _ =>
      if isEmpty then if readOnly && name.guard ≠ .none then pure () else clear journal
      else if first = 0 then pure ()
      else if readOnly then fail path .readOnly
      else clear journal

/-- The index of writes to come when there are none: its version, the mark that it is ready and a check sum,
all twice, and then the places where reading may begin, of which all but the first are unused. -/
def emptyIndex : Bytes :=
  let head := [0x18, 0xE2, 0x2D] ++ List.replicate 9 0 ++ [1] ++ List.replicate 27 0 ++
    [0x38, 0x07, 0x18, 0x06, 0x35, 0x93, 0xDB, 0x09]
  let places := List.replicate 8 0 ++ List.replicate 16 0xFF
  head ++ head ++ places ++ List.replicate (32768 - 120) 0

/-- Begins with the writes to come beside a file: they are indexed, and their file is made if it is missing.
Only marks on the file allow that. -/
def indexAhead (path here : Location) (name : Store.Name) : Change Unit := do
  if name.guard ≠ .marks then fail path .unopenable
  else
    let ahead := beside here aheadEnding
    if (← item? ahead).isNone then modify fun t => t.place ahead (.file [])
    let index := beside here indexEnding
    if name.isIndexFiled && (← item? index) ≠ some .directory then
      modify fun t => t.place index (.file emptyIndex)

/-- Begins with the writes to come if there is a file of them, and tells whether there is. Beside an empty
file it is removed. -/
def beginAhead (path here : Location) (name : Store.Name) (isEmpty : Bool) : Change Bool := do
  let ahead := beside here aheadEnding
  match ← item? ahead with
  | none => return false
  | some .directory => fail path (if isEmpty then .inTheWay else .unopenable)
  | some item =>
    if item.bytes?.getD [] = [] then return false
    else if isEmpty then
      clear ahead
      return false
    else
      indexAhead path here name
      return true

/-- Ends with the writes to come, which are none: their file and its index are removed if they can be. Tells
the cause if they cannot. -/
def endAhead (here : Location) (name : Store.Name) : Change (Option FileFault.Cause) := do
  let index := beside here indexEnding
  if name.access = .readOnly then return some .inTheWay
  else if name.isIndexFiled && (← item? index) = some .directory then return some .readOnly
  else
    clear (beside here aheadEnding)
    if name.isIndexFiled then clear index
    return none

end AbiRecovery.FileTree
