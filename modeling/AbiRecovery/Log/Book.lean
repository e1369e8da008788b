import AbiRecovery.Log.Record
import AbiRecovery.OrderedMap

/-!
# Loggers

A logger has a level and handlers. Its name places it below others: `a.b` is below `a`, and all are
below the root. A name may come into use before one above it; the logger that is made later then takes
its place between the two. Level zero means the level of the next logger above that has another one. A
record that reaches the level of its logger goes to the handlers of the logger, and each handler has a
threshold of its own.
-/
namespace AbiRecovery.Log

inductive Sink where
  | file | stream
  /-- A file that has been removed since the handler opened it. -/
  | removed
  deriving DecidableEq, Repr

structure Handler where
  sink : Sink
  threshold : Level
  deriving DecidableEq, Repr

def Handler.kind (handler : Handler) : String :=
  match handler.sink with
  | .file | .removed => "RotatingFileHandler"
  | .stream => "StreamHandler"

structure Logger where
  level : Level
  handlers : List Handler
  /-- Whether it has been set up. -/
  configured : Bool
  /-- The key of the logger above it. -/
  above : Text
  deriving DecidableEq, Repr

/-- All loggers, and what has been written to the stream, first record first. -/
structure Book where
  loggers : OrderedMap Text Logger
  /-- Names without a logger, with the loggers for which each has been passed over. -/
  passedOver : OrderedMap Text (List Text)
  stream : List Record
  deriving Repr

namespace Book

/-- The root logger passes warnings; nothing has been set up or written. -/
def empty : Book := ⟨[("", ⟨.warning, [], false, ""⟩)], [], []⟩

/-- The name under which a logger is kept; the root logger has two names. -/
def key (name : Text) : Text := if name = "root" then "" else name

def shownName (name : Text) : Text := if key name = "" then "root" else name

def logger (book : Book) (key : Text) : Logger :=
  (OrderedMap.get? book.loggers key).getD ⟨.notset, [], false, ""⟩

def setLogger (book : Book) (key : Text) (logger : Logger) : Book :=
  { book with loggers := OrderedMap.insert book.loggers key logger }

/-- The names above one, nearest first, from the symbols of its name in reverse. Each dot cuts a
name; the symbol before a dot is kept in any case, so of two dots in a row only the second cuts. -/
def ancestors : Text → List Text
  | .char '.' :: c :: rest => (c :: rest).reverse :: ancestors rest
  | _ :: rest => ancestors rest
  | [] => []

/-- Puts a new logger above one that passed it over, unless another with its name in front stands
there. -/
def adopt (book : Book) (key child : Text) : Book :=
  let logger := book.logger child
  if key.isPrefixOf (shownName logger.above) then book
  else book.setLogger child { logger with above := key }

/-- Puts a new logger below the nearest one above it; the names between are passed over. -/
def attach (book : Book) (key : Text) : Book :=
  let (missing, found) :=
    (ancestors key.reverse).span fun name => !OrderedMap.contains book.loggers name
  let passedOver := missing.foldl
    (fun names name => OrderedMap.insert names name ((OrderedMap.get? names name).getD [] ++ [key]))
    (OrderedMap.erase book.passedOver key)
  { book.setLogger key { book.logger key with above := found.headD "" } with passedOver }

/-- Makes the logger with a key unless there is one. -/
def make (book : Book) (key : Text) : Book :=
  if OrderedMap.contains book.loggers key then book
  else
    let children := (OrderedMap.get? book.passedOver key).getD []
    (children.foldl (fun book child => book.adopt key child) book).attach key

/-- A logger and those above it, by their keys, the root last. -/
def lineage (book : Book) (key : Text) : List Text :=
  let above := (book.logger key).above
  if above.length < key.length then key :: book.lineage above else [key]
termination_by key.length

/-- The level that counts for a logger. -/
def level (book : Book) (key : Text) : Level :=
  (((book.lineage key).map fun name => (book.logger name).level).find? fun level => level ≠ .notset).getD
    .notset

/-- Whether a logger takes records of a level. Level zero and those below it are never taken. -/
def takes (book : Book) (key : Text) (level : Level) : Bool := .notset < level && book.level key ≤ level

/-- Where a record of the logger with a key is written, handler by handler. -/
def sinks (book : Book) (key : Text) (level : Level) : List Sink :=
  if book.takes key level then
    ((book.logger key).handlers.filter fun handler => handler.threshold ≤ level).map Handler.sink
  else []

def setLevel (book : Book) (key : Text) (level : Level) : Book :=
  book.setLogger key { book.logger key with level := level }

/-- Gives a logger its handlers, after those it has: the file, if it is asked for, before the stream. -/
def setUp (book : Book) (key : Text) (toFile : Bool) (level : Level) : Book :=
  let logger := book.logger key
  let files : List Handler := if toFile then [⟨.file, level⟩] else []
  book.setLogger key
    { logger with level, handlers := logger.handlers ++ files ++ [⟨.stream, level⟩], configured := true }

/-- The book after the log file has been removed: who has opened it goes on with a file that nobody finds. -/
def detached (book : Book) : Book :=
  let detach (handler : Handler) : Handler := if handler.sink = .file then { handler with sink := .removed } else handler
  { book with loggers := book.loggers.map fun (key, logger) => (key, { logger with handlers := logger.handlers.map detach }) }

end Book

end AbiRecovery.Log
