import AbiRecovery.Database.KeyedTable
import AbiRecovery.Recipe.Machine
import AbiRecovery.Store.Table

/-!
# The file of a store

A store is the one table of a database file whose rows are texts with recipes. The rows are at hand in the
order of their latest write, and every write is remembered, so that the bytes of the file can be told.
-/
namespace AbiRecovery.Store

structure File where
  /-- The bytes of the file before the first write. -/
  base : Bytes
  /-- The rows that have been written, in order. -/
  written : List (Text × Value)
  /-- The rows. -/
  rows : Table
  deriving DecidableEq, Repr

namespace File

def tableName : String := "unnamed"

def put (f : File) (key : Text) (value : Value) : File :=
  { f with written := f.written ++ [(key, value)], rows := f.rows.put key value }

def row? : List Database.Field → Option (Text × Value)
  | .text key :: .blob recipe :: _ => do
    let key ← (Text.decodeUtf8 key.toList).toOption
    let value ← Recipe.read? recipe.toList
    return (key, .found value)
  | _ => none

/-- The rows in the pages of a file, if it holds the table of a store. -/
def rowsIn (image : Database.Image) : Except Database.Fault (Option Table) := do
  match ← image.tableRoot? tableName with
  | none => return none
  | some root =>
    let rows ← image.rows root
    match rows.mapM fun (_, payload) => row? (Database.fields payload) with
    | some rows => return some rows
    | none => throw .broken

/-- The pages of the file before the first write. -/
def baseImage? (f : File) : Option Database.Image :=
  if f.base.isEmpty then some .begun else (Database.Image.ofFile f.base).toOption

/-- The bytes of a key and of the recipe for a value. -/
def rowBytes (row : Text × Value) : ByteArray × ByteArray :=
  (⟨((Text.encodeUtf8 row.1).toOption.getD []).toArray⟩, ⟨row.2.draft.bytes.toArray⟩)

def bytes (f : File) : Bytes :=
  match f.baseImage? with
  | none => f.base
  | some image =>
    if f.written.isEmpty && (image.rootOf? "table" tableName).isSome then f.base
    else ((image.withTable tableName).withRows tableName (f.written.map rowBytes)).bytes

end File

end AbiRecovery.Store
