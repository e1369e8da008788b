import AbiRecovery.Hex
import AbiRecovery.OrderedMap
import AbiRecovery.Text.FileName
import AbiRecovery.Text.UpperCase

/-!
# Names of stores

A store is named by a path, or by a text that begins with `file:` and is read in parts: a path, options
after a question mark, and a comment after a number sign. Percent signs with two hexadecimal digits stand
for bytes there; a zero byte ends the part in which it stands. The options tell what may be done with the
file and may also keep the store out of files altogether. Options that say nothing about that are ignored.
-/
namespace AbiRecovery.Store

/-- What may be done with the file of a store. -/
inductive Access where
  | readOnly
  /-- Reading and writing, if the file is there. -/
  | existing
  /-- Reading and writing; the file is made if it is missing. -/
  | creating
  /-- Nothing: the store is in no file. -/
  | memory
  deriving DecidableEq, Repr

def Access.names : List (Text × Access) :=
  [("ro", readOnly), ("rw", existing), ("rwc", creating), ("memory", memory)]

/-- How much a way of access allows. -/
def Access.rank : Access → Nat
  | .readOnly => 1
  | .existing => 2
  | .creating => 6
  | .memory => 128

inductive NameFault where
  | unknownAccess (name : Text)
  /-- More access than an earlier option allows. -/
  | refusedAccess (name : Text)
  | unknownCache (name : Text)
  | unknownSystem (name : Text)
  deriving DecidableEq, Repr

def NameFault.message : NameFault → Text
  | .unknownAccess name => "no such access mode: " ++ name
  | .refusedAccess name => "access mode not allowed: " ++ name
  | .unknownCache name => "no such cache mode: " ++ name
  | .unknownSystem name => "no such vfs: " ++ name

structure Name where
  path : Text
  access : Access
  /-- Whether the file is taken to be one that never changes. -/
  fixed : Bool
  /-- Whether others are not kept off the file. -/
  unlocked : Bool
  /-- The file system that is asked for. -/
  system : Text
  deriving DecidableEq, Repr

/-- How others are kept off the file of a store while it is open. -/
inductive Guard where
  /-- By marks on the file. -/
  | marks
  /-- By a file beside it. -/
  | file
  | none
  deriving DecidableEq, Repr

namespace Name

/-- The file systems in which stores are files, and how others are kept off the files. -/
def fileSystems : List (Text × Guard) :=
  [("unix", .marks), ("unix-none", .none), ("unix-dotfile", .file), ("unix-excl", .marks)]

/-- The file system in which the file of a store is for one user at a time. -/
def exclusiveSystem : Text := "unix-excl"

/-- The file system in which stores are in no file. -/
def memorySystem : Text := "memdb"

def memoryPath : Text := ":memory:"

def ofPath (path : Text) : Name := ⟨path, .creating, false, false, "unix"⟩

def ascii (c : Char) : UInt8 := UInt8.ofNat c.toNat

/-- The value of a byte that is a hexadecimal digit. -/
def hexValue? (byte : UInt8) : Option Nat := Text.hexValue? (Char.ofNat byte.toNat)

/-- The byte that a percent sign stands for together with the two hexadecimal digits after it. -/
def escaped? (mark high low : UInt8) : Option UInt8 :=
  if mark = ascii '%' then
    match hexValue? high, hexValue? low with
    | some high, some low => some (UInt8.ofNat (16 * high + low))
    | _, _ => none
  else none

/-- A part with its percent signs read. -/
def decoded : Bytes → Bytes
  | first :: high :: low :: rest =>
    match escaped? first high low with
    | some byte => if byte = 0 then [] else byte :: decoded rest
    | none => first :: decoded (high :: low :: rest)
  | short => short

/-- What stands before the first of a byte, and what stands after it, if there is one. -/
def cutAt (c : Char) (bytes : Bytes) : Bytes × Option Bytes :=
  match bytes.span (· ≠ ascii c) with
  | (front, []) => (front, none)
  | (front, _ :: back) => (front, some back)

def pieces : Bytes → List Bytes
  | [] => [[]]
  | byte :: rest =>
    if byte = ascii '&' then [] :: pieces rest
    else match pieces rest with
      | [] => [[byte]]
      | piece :: more => (byte :: piece) :: more

def option (piece : Bytes) : Text × Text :=
  let (name, value?) := cutAt '=' piece
  (Text.ofFileName (decoded name), Text.ofFileName (decoded (value?.getD [])))

/-- The options in what stands after the question mark. Those without a name are left out. -/
def options (query : Bytes) : List (Text × Text) :=
  ((pieces query).map option).filter fun option => !option.1.isEmpty

def yesWords : List Text := ["on", "yes", "true"]

/-- The number that the digits in front of a text write in a base, and nothing if there are none. -/
def leadingNumber? (base : Nat) (t : Text) : Option Nat :=
  let value? (s : Text.Symbol) := (s.char?.bind Text.hexValue?).filter (· < base)
  let digits := (t.takeWhile fun s => (value? s).isSome).filterMap value?
  if digits.isEmpty then none else some (digits.foldl (fun n digit => base * n + digit) 0)

/-- The number in front of a text, in base sixteen after the mark for it. -/
def number? (t : Text) : Option Nat :=
  let hexadecimal? := if ("0x" : Text).isPrefixOf t.lowerAscii then leadingNumber? 16 (t.drop 2) else none
  hexadecimal? <|> leadingNumber? 10 t

/-- Whether the value of an option means yes: a word for it, or a number of 31 bits that does not end in a
zero byte. -/
def isYes (value : Text) : Bool :=
  match number? value with
  | some number => number < 0x80000000 && number % 256 ≠ 0
  | none => yesWords.contains value.lowerAscii

def withOption (name : Name) (option : Text × Text) : Except NameFault Name :=
  let (key, value) := option
  if key = "vfs" then .ok { name with system := value }
  else if key = "cache" then
    if value = "shared" || value = "private" then .ok name else .error (.unknownCache value)
  else if key = "mode" then
    match OrderedMap.get? Access.names value with
    | none => .error (.unknownAccess value)
    | some access =>
      if access ≠ .memory && name.access.rank < access.rank then .error (.refusedAccess value)
      else .ok { name with access }
  else .ok name

/-- The name that a text in parts says, after the mark in front of it. -/
def ofParts (parts : Bytes) : Except NameFault Name := do
  let (path, query?) := cutAt '?' (cutAt '#' parts).1
  let options := options (query?.getD [])
  let tells (key : Text) := ((OrderedMap.get? options key).map isYes).getD false
  let start := { ofPath (Text.ofFileName (decoded path)) with fixed := tells "immutable", unlocked := tells "nolock" }
  let name ← options.foldlM withOption start
  if (memorySystem :: fileSystems.map Prod.fst).contains name.system then return name
  else throw (.unknownSystem name.system)

def partsMark : Text := "file:"

/-- Reads the name of a store, given with its bytes. -/
def ofText (t : Text) (bytes : Bytes) : Except NameFault Name :=
  if partsMark.isPrefixOf t then ofParts (bytes.drop partsMark.length) else .ok (ofPath t)

def isUnfiled (name : Name) : Bool :=
  name.access = .memory || name.system = memorySystem || name.path.isEmpty || name.path = memoryPath

/-- Whether the store may be written. What is in no file can change even if its file never does. -/
def isWritable (name : Name) : Bool :=
  name.access ≠ .readOnly && !(name.fixed && (name.system = memorySystem || !name.isUnfiled))

/-- How others are kept off the file. -/
def guard (name : Name) : Guard :=
  if name.unlocked then .none else (OrderedMap.get? fileSystems name.system).getD .none

/-- Whether the index of writes to come is a file. One user at a time does without, unless it only reads. -/
def isIndexFiled (name : Name) : Bool := name.system ≠ exclusiveSystem || name.access = .readOnly

end Name

end AbiRecovery.Store
