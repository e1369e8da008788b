import AbiRecovery.CodeInput
import AbiRecovery.CommandLine.MissingValue
import AbiRecovery.Cursor
import AbiRecovery.FileTree.Fault
import AbiRecovery.Store.Table
import AbiRecovery.Log.Record
import AbiRecovery.Environment
import AbiRecovery.Json.Reader

/-!
# Failures

Everything that can end an action before its result is there, by cause. A node that cannot be asked is
no failure: it is logged, and the result is that there is no code.
-/
namespace AbiRecovery

/-- Why an action has no result. -/
inductive Failure where
  | code (fault : CodeFault)
  | lookback (fault : LookbackFault)
  | address (fault : AddressFault)
  | file (fault : FileFault)
  | encoding (fault : Text.Utf8Fault)
  /-- A key of the store that has no bytes. -/
  | key (fault : Text.HalfFault)
  /-- A value of the store that should have items. -/
  | noItems (fault : Store.NoItems)
  | missingVariable (fault : MissingVariable)
  | takenName (fault : Log.TakenName)
  | time (fault : Log.TimeFault)
  | size (fault : SizeFault)
  | longInteger (fault : Json.LongInteger)
  | missingValue (what : CommandLine.MissingValue)
  /-- The store is not emptied without a confirmation. -/
  | unconfirmedReset
  deriving DecidableEq, Repr

def Failure.message : Failure → Text
  | .code fault => fault.message
  | .lookback fault => fault.message
  | .address fault => fault.message
  | .file fault => fault.message
  | .encoding fault => fault.message
  | .key fault => fault.message
  | .noItems fault => fault.message
  | .missingVariable fault => fault.message
  | .takenName fault => fault.message
  | .time fault => fault.message
  | .size fault => fault.message
  | .longInteger fault => fault.message
  | .missingValue what => what.message
  | .unconfirmedReset => "Refusing to reset store without confirm=True"

end AbiRecovery
