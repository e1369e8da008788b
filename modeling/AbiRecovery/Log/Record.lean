import AbiRecovery.Json.Dump
import AbiRecovery.Log.Level
import AbiRecovery.Log.Timestamp

/-!
# Log records

A record is written as one object on one line: when, how important, by whom and what, then the report of
an exception if there is one, then whatever else the writer gave, in its order. What the writer gives
may not have the name of an attribute that every record has; under the names of the first three members
it replaces them. Where a record is written, there are clocks and there is a stack, on which its line
depends.
-/
namespace AbiRecovery.Log

structure Exception where
  /-- The report of it, traceback included. -/
  report : Text
  deriving DecidableEq, Repr

/-- A value error with a message that has not been raised, so that there is no traceback. -/
def Exception.ofMessage (message : Text) : Exception :=
  ⟨if message = "" then "ValueError" else "ValueError: " ++ message⟩

/-- A message alone stands for a value error. -/
instance : Coe (Option Text) (Option Exception) := ⟨Option.map .ofMessage⟩

structure Host where
  zone : Zone
  /-- How many containers can be written inside each other within a record. -/
  nesting : Nat

/-- A host in UTC with the stack that is usual. -/
def Host.plain : Host := ⟨.utc, 1000⟩

structure Record where
  level : Level
  logger : Text
  message : Text
  /-- What the writer gave besides. -/
  extras : List (Text × Json)
  exception? : Option Exception
  /-- Seconds since the start of 1970. -/
  created : Int
  deriving Repr

def takenNames : List Text :=
  ["message", "asctime", "name", "msg", "args", "levelname", "levelno", "pathname", "filename", "module",
    "exc_info", "exc_text", "stack_info", "lineno", "funcName", "created", "msecs", "relativeCreated",
    "thread", "threadName", "processName", "process"]

/-- The names of extras that are not shown. -/
def hiddenNames : List Text := "taskName" :: takenNames

/-- An extra with a name that every record has. -/
structure TakenName where
  name : Text
  deriving DecidableEq, Repr

def TakenName.message (fault : TakenName) : Text :=
  Text.quoted ("Attempt to overwrite " ++ Text.quoted fault.name ++ " in LogRecord")

def takenName? (extras : List (Text × Json)) : Option TakenName :=
  (extras.find? fun extra => takenNames.contains extra.1).map fun extra => ⟨extra.1⟩

namespace Record

/-- The record, unless the writer gave an extra with a taken name. -/
def accepted (r : Record) : Except TakenName Record :=
  match takenName? r.extras with
  | some taken => .error taken
  | none => .ok r

/-- The members that come before the extras; `time` is when the record was made. -/
def head (r : Record) (time : Text) : List (Text × Json) :=
  ("ts", .str time) :: ("level", .str r.level.name) :: ("logger", .str r.logger) :: ("msg", .str r.message) ::
    (r.exception?.map fun exception => (Text.ofString "exc_info", Json.str exception.report)).toList

/-- The members of a record that was made at `time`. -/
def members (r : Record) (time : Text) : OrderedMap Text Json :=
  (r.extras.filter fun extra => !hiddenNames.contains extra.1).foldl
    (fun members extra => OrderedMap.insert members extra.1 extra.2) (r.head time)

/-- Everything on one line; characters outside ASCII stay as they are. -/
def style : Json.Style := ⟨false, none⟩

/-- What the line of a record says, if its time has a text. -/
def line (r : Record) (zone : Zone := .utc) : Except TimeFault Text :=
  (fun time => (Json.obj (r.members time)).render style) <$> timestamp zone r.created

/-- What is refused of a record if `room` containers can be written inside each other: its level, of whose number the
name is made, or a member. The time is a text, so it does not matter. -/
def writeFault? (r : Record) (room : Nat) : Option Json.WriteFault :=
  if Text.isLong r.level then some .longInteger else Json.membersFault? room (r.members "")

inductive LineFault where
  | time (fault : TimeFault)
  | value (fault : Json.WriteFault)
  deriving DecidableEq, Repr

/-- The line of a record on a host, unless its time or one of its values is refused. -/
def format (r : Record) (host : Host) : Except LineFault Text := do
  let line ← (r.line host.zone).mapError .time
  match r.writeFault? host.nesting with
  | some fault => throw (.value fault)
  | none => return line

end Record

end AbiRecovery.Log
