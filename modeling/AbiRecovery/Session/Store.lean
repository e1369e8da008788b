import AbiRecovery.FileTree.Store
import AbiRecovery.Session.Basic

/-!
# The store of a session

The store is in the file that the settings name. Every access opens it, and opening makes the file and the
directories above it, also for a question and also if the access then fails. A store that is in no file
forgets at once what is saved. A key must be a text that has bytes.
-/
namespace AbiRecovery.Tool

/-- Carries out an operation on the files of the session. -/
def onFiles {α : Type} (change : FileTree.Change α) : Tool α := do
  let s ← get
  let (result, files) := change.run.run s.files
  set { s with files }
  ofExcept .file result

def storePath : Tool Location := do return Location.ofText (← get).settings.storePath

def openStore : Tool OpenStore := do
  let path ← storePath
  makeDirectories path.dropLast
  onFiles (FileTree.openStore path)

def checkedKey (key : Text) : Tool Text := do
  let _ ← ofExcept .key (Text.encodeUtf8 key)
  return key

def writeStore (opened : OpenStore) (key : Text) (value : Store.Value) : Tool Unit := do
  onFiles (FileTree.writeStore (← storePath) opened (← checkedKey key) value)

/-- Saves the entries of the code with a hash. -/
def saveEntries (hash : Text) (entries : List Abi.Entry) : Tool Unit := do
  let opened ← openStore
  writeStore opened (Store.codeKey hash) (.entries entries)

/-- The saved entries of the code with a hash. -/
def savedEntries (hash : Text) : Tool (Option (List Json)) := do
  let opened ← openStore
  let _ ← checkedKey (Store.codeKey hash)
  ofExcept .noItems (opened.file.rows.entriesOf? hash)

def isSaved (hash : Text) : Tool Bool := do
  let opened ← openStore
  let _ ← checkedKey (Store.codeKey hash)
  return opened.file.rows.isSaved hash

/-- All saved entries with their hashes, in the order of the latest write. -/
def allSaved : Tool (List (Text × Json)) := do
  let opened ← openStore
  return opened.file.rows.saved

/-- Links the contract at an address to the hash of its code. -/
def linkContract (chain address hash : Text) : Tool Unit := do
  let opened ← openStore
  let address ← ofExcept .address (Address.ofText address)
  writeStore opened (Store.contractKey chain address) (.hash hash)

/-- The hash that the contract at an address is linked to. -/
def linkedHash (chain address : Text) : Tool (Option Json) := do
  let opened ← openStore
  let address ← ofExcept .address (Address.ofText address)
  let _ ← checkedKey (Store.contractKey chain address)
  return opened.file.rows.hashOf? chain address

/-- The rows of the store as they are, if something stands at its path. No table is made. -/
def shownStore : Tool (Option Store.Table) := do onFiles (FileTree.shownRows (← storePath))

/-- Removes what stands at the path of the store. -/
def resetStore (confirmed : Bool) : Tool Unit := do
  if !confirmed then throw .unconfirmedReset
  let path ← storePath
  let s ← get
  let files ← ofExcept .file (s.files.remove path)
  set { s with files, book := if (files.itemAt? logFile).isNone then s.book.detached else s.book }

end AbiRecovery.Tool
