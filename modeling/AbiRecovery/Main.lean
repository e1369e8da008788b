import AbiRecovery.CommandLine.Run
import Std.Time.DateTime.Timestamp

/-!
# The program

Reads the environment and the files that a command line names, carries the command line out, and writes
what it has printed, logged and kept. Everything in between is a pure action on a session. The first
argument `batch` stands for the scan of a list of addresses.

No connection to a node can be made from here, so every node answers with a failure.
-/
namespace AbiRecovery.Main

open CommandLine

def usage : List String :=
  ["usage: abi-recovery abi (--code HEX | --file PATH | --address ADDRESS) [--chain NAME] [--save] [--indent N]",
    "       abi-recovery selectors (--code HEX | --file PATH | --address ADDRESS) [--chain NAME] [--indent N]",
    "       abi-recovery listing (--code HEX | --file PATH | --address ADDRESS) [--chain NAME]",
    "       abi-recovery batch --file PATH [--chain NAME] [--limit N] [--no-save]"]

def network : Network := ⟨fun _ _ => .failure "no connection to the node"⟩

def namedFile? (batch : Bool) (args : List Text) : Option Text :=
  if batch then (BatchRequest.ofArguments args).toOption.bind BatchRequest.file?
  else match Request.ofArguments args with
    | .ok { source := .file path?, .. } => path?
    | _ => none

def readVariables (names : List String) : IO Environment :=
  names.filterMapM fun name => do return (← IO.getEnv name).map fun value => (Text.ofString name, Text.ofString value)

def readEnvironment : IO Environment := do
  let fixed ← readVariables ["APP_ENV", "LOG_LEVEL", "LOG_TO_FILE", "MAX_CODE_BYTES", "SCAN_HISTORY_SIZE",
    "CHAINS", "RPC_TIMEOUT_SECONDS", "STORE_PATH"]
  let nodes ← readVariables ((Settings.ofEnvironment fixed).chains.map fun chain =>
    (Settings.nodeVariable chain).shown)
  return fixed ++ nodes

def readContent? (name : String) : IO (Option Bytes) :=
  try
    return some (← IO.FS.readBinFile name).toList
  catch _ => return none

/-- The files that a run needs: the log, the one that the command line names, and the store. -/
def readFiles (settings : Settings) (named : Option Text) : IO FileTree := do
  let mut files := FileTree.empty
  for name in Location.text Tool.logFile :: settings.storePath :: named.toList do
    if let some content ← readContent? name.shown then
      files := files.add (Location.ofText name) (.file content)
  return files

def writeStores (s : Session) : IO Unit := do
  for (location, item) in s.files.items do
    if let .store file := item then
      IO.FS.createDirAll (Location.text location.dropLast).shown
      IO.FS.writeBinFile (Location.text location).shown ⟨file.bytes.toArray⟩

def logContent (files : FileTree) : Bytes := (files.read Tool.logFile).toOption.getD []

/-- Writes the records of the run to the terminal, and what the log file has gained since `before`. -/
def writeLog (before : FileTree) (s : Session) : IO Unit := do
  let stderr ← IO.getStderr
  for record in s.book.stream do
    if let .ok line := record.format s.host then stderr.putStrLn line.shown
  let gained := (logContent s.files).drop (logContent before).length
  unless gained.isEmpty do
    IO.FS.createDirAll (Location.text Tool.logDirectory).shown
    let file ← IO.FS.Handle.mk (Location.text Tool.logFile).shown .append
    file.write ⟨gained.toArray⟩

/-- The status of a finished run, after telling why it did not finish. -/
def finish (result : Except Failure Ending) : IO UInt32 := do
  match result with
  | .ok (.finished status) => return UInt32.ofNat status
  | .ok (.refused status) =>
    let out ← if status = 0 then IO.getStdout else IO.getStderr
    for line in usage do out.putStrLn line
    return UInt32.ofNat status
  | .error failure =>
    (← IO.getStderr).putStrLn failure.message.shown
    return 1

def carryOut (args : List String) : IO UInt32 := do
  let (batch, args) := match args with
    | "batch" :: rest => (true, rest.map Text.ofString)
    | _ => (false, args.map Text.ofString)
  let settings := Settings.ofEnvironment (← readEnvironment)
  let files ← readFiles settings (namedFile? batch args)
  let clock := (← Std.Time.Timestamp.now).toSecondsSinceUnixEpoch.val
  let action := do
    Tool.setUpLog
    if batch then runBatch args else run args
  let (result, s) := (action : Tool Ending).run.run (.start settings files network clock)
  writeLog files s
  writeStores s
  IO.print (Console.text s.console.out).shown
  IO.eprint (Console.text s.console.err).shown
  finish result

end AbiRecovery.Main

def main (args : List String) : IO UInt32 := AbiRecovery.Main.carryOut args
