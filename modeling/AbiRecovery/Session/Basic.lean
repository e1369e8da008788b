import AbiRecovery.Chain
import AbiRecovery.Failure
import AbiRecovery.FileTree.Basic
import AbiRecovery.Log.Book
import AbiRecovery.Network

/-!
# Sessions

The state that the actions of a run share: the settings, the files with the store among them, the nodes
with the connections made to them so far, the log, and what has been printed. An action that fails keeps
what it has done before.

Two things are left out: a log file that has grown large makes way for a new one, and a terminal may refuse
a text that has no bytes.
-/
namespace AbiRecovery

/-- What has been printed, line by line. -/
structure Console where
  out : List Text
  err : List Text
  deriving DecidableEq, Repr

def Console.text (lines : List Text) : Text := Text.unlines lines

/-- The state of a run. -/
structure Session where
  settings : Settings
  files : FileTree
  network : Network
  /-- The connections by the names of their chains. -/
  clients : OrderedMap Text Client
  /-- The questions that have been asked, in order. -/
  calls : List Call
  book : Log.Book
  console : Console
  /-- The time of the run, in seconds since the start of 1970. -/
  clock : Int
  host : Log.Host

/-- The state before the first action. -/
def Session.start (settings : Settings) (files : FileTree) (network : Network) (clock : Int)
    (host : Log.Host := .plain) : Session :=
  ⟨settings, files, network, [], [], .empty, ⟨[], []⟩, clock, host⟩

/-- An action of a run. -/
abbrev Tool (α : Type) : Type := ExceptT Failure (StateM Session) α

namespace Tool

/-- The value of a computation; its fault becomes a failure of the action. -/
def ofExcept {ε α : Type} (failure : ε → Failure) : Except ε α → Tool α
  | .ok value => pure value
  | .error fault => throw (failure fault)

def print (lines : List Text) : Tool Unit :=
  modify fun s => { s with console := { s.console with out := s.console.out ++ lines } }

/-- Prints a line for the person at the terminal, apart from results. -/
def printError (line : Text) : Tool Unit :=
  modify fun s => { s with console := { s.console with err := s.console.err ++ [line] } }

/-- The record that a logger makes of what it is given. -/
def record (logger : Text) (level : Log.Level) (message : Text) (extras : List (Text × Json)) :
    Tool Log.Record := do
  return ⟨level, Log.Book.shownName logger, message, extras, none, (← get).clock⟩

def makeDirectories (path : Location) : Tool Unit := do
  let s ← get
  let (files, fault?) := s.files.makeDirectories path
  set { s with files }
  match fault? with
  | some fault => throw (.file fault)
  | none => pure ()

def logDirectory : Location := ["logs"]

def logFile : Location := ["logs", "app.log"]

/-- Writes a record, whose line is given, to a sink. A line without bytes is not written to the file. -/
def writeTo (r : Log.Record) (line : Text) : Log.Sink → Tool Unit
  | .file => match Text.encodeUtf8 (Text.unlines [line]) with
    | .ok bytes => modify fun s => { s with files := s.files.append logFile bytes }
    | .error _ => pure ()
  | .stream => modify fun s => { s with book := { s.book with stream := s.book.stream ++ [r] } }
  | .removed => pure ()

/-- Writes a record of a logger. One that has no line is dropped. -/
def write (logger : Text) (r : Log.Record) : Tool Unit := do
  let s ← get
  match r.format s.host with
  | .ok line => (s.book.sinks (Log.Book.key logger) r.level).forM (writeTo r line)
  | .error _ => pure ()

def log (logger : Text) (level : Log.Level) (message : Text) (extras : List (Text × Json)) : Tool Unit := do
  write logger (← record logger level message extras)

/-- Logs a message with extras that come from outside, whose names may be taken. A record below the
level of its logger is not made, so its extras are not looked at. -/
def logGiven (logger : Text) (level : Log.Level) (message : Text) (extras : List (Text × Json)) :
    Tool Unit := do
  if (← get).book.takes (Log.Book.key logger) level then
    let r ← record logger level message extras
    write logger (← ofExcept .takenName r.accepted)

/-- Sets a logger up as the settings say, unless it has been set up before. -/
def setUpLogger (name : Text) : Tool Unit := do
  let s ← get
  let key := Log.Book.key name
  let level := Log.Level.ofSetting s.settings.logLevel
  if (s.book.logger key).configured then return
  modify fun s => { s with book := (s.book.make key).setLevel key level }
  if s.settings.logToFile then
    makeDirectories logDirectory
    let files ← ofExcept .file ((← get).files.touch logFile)
    modify fun s => { s with files }
  modify fun s => { s with book := s.book.setUp key s.settings.logToFile level }

def programLoggers : List Text := ["abiscan.disasm", "abiscan.discovery", "abiscan.run"]

def setUpLog : Tool Unit := programLoggers.forM setUpLogger

end Tool

end AbiRecovery
