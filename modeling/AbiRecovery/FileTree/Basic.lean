import AbiRecovery.FileTree.Fault
import AbiRecovery.Store.File

/-!
# Files

The files that a run sees, by their locations under the working directory. Every directory but the
working directory and those above it is listed like a file. A path is followed part by part, so each
part but the last must be a directory even where a later `..` leaves it again, and no name may be too
long for the directory in which it is looked up.
-/
namespace AbiRecovery

inductive FileItem where
  | directory
  | file (content : Bytes)
  /-- A file that holds a store. -/
  | store (file : Store.File)
  deriving DecidableEq, Repr

/-- The bytes of an item, unless it is a directory. -/
def FileItem.bytes? : FileItem → Option Bytes
  | .directory => none
  | .file content => some content
  | .store kept => some kept.bytes

/-- An item with bytes added at its end. What comes behind the pages of a store is not read as rows. -/
def FileItem.extended (added : Bytes) : FileItem → FileItem
  | .directory => .directory
  | .file content => .file (content ++ added)
  | .store kept => .store ⟨kept.bytes ++ added, [], kept.rows⟩

structure FileTree where
  items : OrderedMap Location FileItem
  /-- How many bytes the working directory and the directories above it have in their paths; those further
  above have none. -/
  baseSizes : List Nat
  deriving DecidableEq, Repr

namespace FileTree

def empty (baseSizes : List Nat := [16, 4]) : FileTree := ⟨[], baseSizes⟩

/-- What stands at a location that has no `..` to follow. -/
def itemAt? (t : FileTree) (here : Location) : Option FileItem :=
  if here.isBase then some .directory else OrderedMap.get? t.items here

def maxName : Nat := 255

def maxPath : Nat := 4095

/-- Follows parts from a location. The last part need not be there. -/
def follow (t : FileTree) (here : Location) : List Text → Except FileFault.Cause Location
  | [] => .ok here
  | part :: rest =>
    match t.itemAt? here with
    | some .directory =>
      if part = ".." then t.follow here.above rest
      else if part.byteCount > maxName then .error .tooLong
      else t.follow (here ++ [part]) rest
    | some _ => .error .notDirectory
    | none => .error .missing

def resolve (t : FileTree) (path : Location) : Except FileFault Location :=
  let reached : Except FileFault.Cause Location :=
    if let .error fault := Text.fileName path.text then .error (.noBytes fault)
    else if path.any fun part => part.contains (.char '\x00') then .error .nullCharacter
    else if path.text.byteCount > maxPath then .error .tooLong
    else match path with
      | [] => .ok []
      | first :: rest => if Location.roots.contains first then t.follow [first] rest else t.follow [] path
  reached.mapError fun cause => ⟨cause, path⟩

/-- What a path leads to, and where that is. -/
def find? (t : FileTree) (path : Location) : Except FileFault (Location × Option FileItem) :=
  (fun here => (here, t.itemAt? here)) <$> t.resolve path

/-- Whether a path leads to anything. That a part of it is missing or no directory is no fault. -/
def isPresent (t : FileTree) (path : Location) : Except FileFault Bool :=
  match t.find? path with
  | .ok (_, item) => .ok item.isSome
  | .error fault => if fault.cause = .tooLong then .error fault else .ok false

/-- The tree with an item at a resolved location. -/
def place (t : FileTree) (here : Location) (item : FileItem) : FileTree :=
  { t with items := OrderedMap.insert t.items here item }

def read (t : FileTree) (path : Location) : Except FileFault Bytes :=
  match t.find? path with
  | .error fault => .error fault
  | .ok (_, some item) => match item.bytes? with
    | some content => .ok content
    | none => .error ⟨.isDirectory, path⟩
  | .ok (_, none) => .error ⟨.missing, path⟩

/-- Makes a directory unless there is one. The directory above it must be there. -/
def makeDirectory (t : FileTree) (path : Location) : Except FileFault FileTree :=
  match t.find? path with
  | .error fault => .error fault
  | .ok (_, some .directory) => .ok t
  | .ok (_, some _) => .error ⟨.occupied, path⟩
  | .ok (here, none) => .ok (t.place here .directory)

/-- The tree after an attempt, and the fault if it failed; a failed attempt changes nothing. -/
def attempt (t : FileTree) : Except FileFault FileTree → FileTree × Option FileFault
  | .ok t => (t, none)
  | .error fault => (t, some fault)

/-- Makes a directory, given by its parts from the last to the first, and the missing ones above. Those
that have been made stay if a later one cannot be made. -/
def makeDirectoriesUp (t : FileTree) : List Text → FileTree × Option FileFault
  | [] => (t, none)
  | part :: above =>
    match t.makeDirectory (part :: above).reverse with
    | .ok t => (t, none)
    | .error fault =>
      if fault.cause = .missing then
        match t.makeDirectoriesUp above with
        | (t, none) => t.attempt (t.makeDirectory (part :: above).reverse)
        | (t, some fault) => (t, some fault)
      else (t, some fault)

def makeDirectories (t : FileTree) (path : Location) : FileTree × Option FileFault :=
  t.makeDirectoriesUp path.reverse

/-- Adds an item, with all directories above it, whatever stood there. -/
def add (t : FileTree) (path : Location) (item : FileItem) : FileTree :=
  let ancestors : List Location := (List.range path.length).map path.take
  (ancestors.foldl (fun t above => if Location.isBase above then t else t.place above .directory) t).place path item

/-- Makes an empty file unless there is a file. -/
def touch (t : FileTree) (path : Location) : Except FileFault FileTree :=
  match t.find? path with
  | .error fault => .error fault
  | .ok (_, some .directory) => .error ⟨.isDirectory, path⟩
  | .ok (_, some _) => .ok t
  | .ok (here, none) => .ok (t.place here (.file []))

/-- Adds bytes at the end of a file, if there is a file. -/
def append (t : FileTree) (path : Location) (bytes : Bytes) : FileTree :=
  match t.find? path with
  | .ok (_, some .directory) => t
  | .ok (here, some item) => t.place here (item.extended bytes)
  | _ => t

/-- The tree without the item at a resolved location. -/
def without (t : FileTree) (here : Location) : FileTree := { t with items := OrderedMap.erase t.items here }

/-- Removes a file if it is there. A path that leads nowhere is no fault. -/
def remove (t : FileTree) (path : Location) : Except FileFault FileTree := do
  if ← t.isPresent path then
    match ← t.find? path with
    | (_, some .directory) => .error ⟨.isDirectory, path⟩
    | (here, _) => .ok (t.without here)
  else return t

end FileTree

end AbiRecovery
