import AbiRecovery.FileTree.Companion

/-!
# Stores in files

A store is opened by its name. The path in it is followed on paper: a `..` takes the last name away,
whatever stands there. A missing file is made unless the name forbids it. What an interrupted write may
have left beside the file is cleared away first, as far as it can be; then the content is read. The table
is made if it is missing.

A store that is in no file is empty whenever it is opened, and forgets at once what is written.
-/
namespace AbiRecovery

structure OpenStore where
  name : Store.Name
  /-- Where the file is, if the store is in one. -/
  place? : Option Location
  file : Store.File
  deriving DecidableEq, Repr

namespace FileTree

/-- How many bytes a location has in its path from the root. -/
def pathSize (t : FileTree) (here : Location) : Nat :=
  let ups := (here.takeWhile (· = Location.up)).length
  let names := (here.drop ups).filter fun part => !Location.roots.contains part
  let base := if (here.head?.any Location.roots.contains) then 0 else t.baseSizes.getD ups 0
  base + (names.map fun name => name.byteCount + 1).foldl (· + ·) 0

/-- How many bytes the path from the root of a store may have. -/
def maxStorePath : Nat := 504

/-- How many bytes a path from the root may have while it is followed. -/
def maxFollowedPath : Nat := 510

/-- Where a part of the path of a store leads from a location, unless it cannot be followed. -/
def storeStep? (t : FileTree) (here : Location) (part : Text) : Option Location :=
  if part = Location.up then some here.above
  else
    let isFile := match t.itemAt? here with
      | some .directory | none => false
      | some (.file _) | some (.store _) => true
    if isFile || part.byteCount > maxName || t.pathSize here + part.byteCount + 1 > maxFollowedPath then none
    else some (here ++ [part])

/-- The location that the path of a store leads to. -/
def storeLocation? (t : FileTree) (path : Text) : Option Location :=
  let (start, parts) : Location × List Text := match Location.ofText path with
    | first :: rest => if Location.roots.contains first then ([Location.root], rest) else ([], first :: rest)
    | [] => ([], [])
  (parts.foldlM t.storeStep? start).filter fun here => t.pathSize here ≤ maxStorePath

/-- Makes sure that there is a file at a location. -/
def makeStoreFile (path here : Location) (access : Store.Access) : Change FileItem := do
  match ← item? here with
  | some .directory => fail path (if access = .readOnly then .inTheWay else .unopenable)
  | some item => return item
  | none =>
    if (← item? here.above) = some .directory && access = .creating then
      modify fun t => t.place here (.file [])
      return .file []
    else fail path .unopenable

/-- The content of the file of a store as far as it counts: a single byte is as good as none. -/
def counted (content : Bytes) : Bytes := if content.length ≤ 1 then [] else content

/-- Whether a file has no content that counts. -/
def isBlank : FileItem → Bool
  | .file content => (counted content).isEmpty
  | .directory | .store _ => false

/-- What a file holds: a store, or the bytes that one will be made of. -/
abbrev Held : Type := Except Bytes Store.File

def Held.ofBytes (content : Bytes) : Except Database.Fault Held := do
  if (counted content).isEmpty then return .error []
  else match ← Store.File.rowsIn (← Database.Image.ofFile content) with
    | some rows => return .ok ⟨content, [], rows⟩
    | none => return .error content

def Held.ofItem (path : Location) : FileItem → Except FileFault Held
  | .store file => .ok (.ok file)
  | .directory => .ok (.error [])
  | .file content => (ofBytes content).mapError fun fault => ⟨.content fault, path⟩

/-- The bytes of a file that say that writes go straight into it. -/
def settledBytes (content : Bytes) : Bytes :=
  match Database.Image.ofFile content with
  | .ok image => if image.isSettled then content else image.settled.bytes
  | .error _ => content

/-- An item that says that writes go straight into the file. -/
def settledItem : FileItem → FileItem
  | .file content => .file (settledBytes content)
  | .store file => .store { file with base := settledBytes file.base }
  | .directory => .directory

/-- The bytes that say how the file of an item is written: the bytes of the file before its first write. -/
def declaringBytes : FileItem → Bytes
  | .file content => content
  | .store file => file.base
  | .directory => []

/-- Lets writes go straight into a file again. That is a write to the file itself if it says otherwise. -/
def settle (path here : Location) (item : FileItem) : Change FileItem := do
  let journal := beside here journalEnding
  let isBarred := Database.isWriteBarred (declaringBytes item)
  let settled := if isBarred then item else settledItem item
  if settled ≠ item || (← item? journal) ≠ some (.file []) then clear journal
  if isBarred then fail path .readOnly
  else
    modify fun t => t.place here settled
    return settled

/-- Reads what an item holds, after what an interrupted write may have left beside it. -/
def readHeld (path here : Location) (name : Store.Name) (item : FileItem) : Change Held := do
  if name.fixed then Held.ofItem path item
  else
    let isEmpty := isBlank item
    -- Where a file keeps others off, a journal is taken for one that another user needs.
    if name.guard ≠ .file then clearJournal path here name isEmpty
    let isBegun ← beginAhead path here name isEmpty
    let isDeclared := Database.writesAhead (declaringBytes item)
    if isDeclared && !isBegun then indexAhead path here name
    if isBegun || isDeclared then
      let refusal? ← endAhead here name
      let held ← Held.ofItem path item
      match refusal? with
      | some cause => fail path cause
      | none =>
        let settled ← settle path here item
        if settled = item then return held else Held.ofItem path settled
    else Held.ofItem path item

def storeName (path : Location) : Change Store.Name := do
  match Text.fileName path.text with
  | .error fault => fail path (.noBytes fault)
  | .ok bytes =>
    if bytes.contains 0 then fail path .nullCharacter
    else match Store.Name.ofText path.text bytes with
      | .error fault => fail path (.name fault)
      | .ok name => return name

/-- Looks for the store with a name: its place, unless it is in no file, and what is held there. -/
def findStore (path : Location) (name : Store.Name) : Change (Option Location × Held) := do
  if name.isUnfiled then return (none, .error [])
  else match (← get).storeLocation? name.path with
    | none => fail path .unopenable
    | some here =>
      let item ← makeStoreFile path here name.access
      return (some here, ← readHeld path here name item)

/-- Checks that a store can be written: its file must not forbid it, and a journal must have room beside it.
Of what stands there only a directory is in the way; the journal itself is gone after the write. -/
def prepareWrite (path : Location) (name : Store.Name) (place? : Option Location) (base : Bytes) : Change Unit := do
  if !name.isWritable || Database.isWriteBarred base then fail path .readOnly
  else match place? with
    | none => pure ()
    | some here =>
      let journal := beside here journalEnding
      if (journal.getLastD "").byteCount > maxName || (← item? journal) = some .directory then
        fail path .unopenable
      else clear journal

def keepStore (place? : Option Location) (file : Store.File) : Change Unit :=
  match place? with
  | some here => modify fun t => t.place here (.store file)
  | none => pure ()

/-- Opens the store at a path, and makes its table if it is missing. -/
def openStore (path : Location) : Change OpenStore := do
  let name ← storeName path
  match ← findStore path name with
  | (place?, .ok file) =>
    keepStore place? file
    return ⟨name, place?, file⟩
  | (place?, .error base) =>
    prepareWrite path name place? base
    let file : Store.File := ⟨base, [], []⟩
    keepStore place? file
    return ⟨name, place?, file⟩

/-- Writes a row of a store that is open. -/
def writeStore (path : Location) (opened : OpenStore) (key : Text) (value : Store.Value) : Change Unit := do
  prepareWrite path opened.name opened.place? opened.file.base
  keepStore opened.place? (opened.file.put key value)

/-- The rows of the store at a path, if something stands there. -/
def shownRows (path : Location) : Change (Option Store.Table) := do
  let t ← get
  if ← t.isPresent path then
    match ← t.find? path with
    | (_, some .directory) => fail path .noFile
    | _ =>
      let name ← storeName path
      match ← findStore path name with
      | (_, .ok file) => return some file.rows
      | (_, .error _) => fail path .blank
  else return none

end FileTree

end AbiRecovery
