import AbiRecovery.Database.Reader
import AbiRecovery.Location
import AbiRecovery.Store.Name

/-!
# Faults of files

What can go wrong with a file, by cause, and the messages for it. Most messages show the path; the ones
about stores do not.
-/
namespace AbiRecovery

/-- Why something cannot be done with a file. -/
inductive FileFault.Cause where
  | missing | occupied | notDirectory | isDirectory
  /-- A name or a path with more bytes than it may have. -/
  | tooLong
  /-- A path with half of a surrogate pair that stands for no byte. -/
  | noBytes (fault : Text.HalfFault)
  /-- A path with a character that no path may have. -/
  | nullCharacter
  /-- The name of a store that leads to none. -/
  | name (fault : Store.NameFault)
  /-- Something that cannot be opened where a store is expected. -/
  | unopenable
  /-- A file that holds something other than a store, or a store that is not read. -/
  | content (fault : Database.Fault)
  /-- A store that may not be written. -/
  | readOnly
  /-- Something beside a store that cannot be read or removed. -/
  | inTheWay
  /-- A directory where a store is to be shown. -/
  | noFile
  /-- A file without rows, not even of an empty table, where a store is to be shown. -/
  | blank
  deriving DecidableEq, Repr

structure FileFault where
  cause : FileFault.Cause
  location : Location
  deriving DecidableEq, Repr

/-- The message for a fault with a numbered cause. -/
def FileFault.numbered (number : Nat) (words : Text) (location : Location) : Text :=
  "[Errno " ++ toString number ++ "] " ++ words ++ ": " ++ Text.quoted location.text

def FileFault.message (fault : FileFault) : Text :=
  match fault.cause with
  | .missing => numbered 2 "No such file or directory" fault.location
  | .occupied => numbered 17 "File exists" fault.location
  | .notDirectory => numbered 20 "Not a directory" fault.location
  | .isDirectory => numbered 21 "Is a directory" fault.location
  | .tooLong => numbered 36 "File name too long" fault.location
  | .noBytes fault => fault.message
  | .nullCharacter => "embedded null byte"
  | .name fault => fault.message
  | .unopenable => "unable to open database file"
  | .content fault => fault.message
  | .readOnly => "attempt to write a readonly database"
  | .inTheWay => "disk I/O error"
  | .noFile => "file " ++ fault.location.text ++ " does not exist"
  | .blank => "Refusing to create a new table \"unnamed\" in read-only DB mode"

end AbiRecovery
