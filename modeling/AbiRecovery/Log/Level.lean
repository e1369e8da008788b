import AbiRecovery.Text.UpperCase

/-!
# Log levels

A level is a number; the usual ones have names. A name in the settings may be in any case; one
that is not known means the level of plain information.
-/
namespace AbiRecovery.Log

/-- How much a record matters. -/
abbrev Level : Type := Int

namespace Level

def notset : Level := 0
def debug : Level := 10
def info : Level := 20
def warning : Level := 30
def error : Level := 40
def critical : Level := 50

def names : List (String × Level) :=
  [("CRITICAL", critical), ("FATAL", critical), ("ERROR", error), ("WARN", warning), ("WARNING", warning),
    ("INFO", info), ("DEBUG", debug), ("NOTSET", notset)]

def ofSetting (name : Text) : Level :=
  (names.find? fun known => Text.upper name = Text.ofString known.1).elim info Prod.snd

def name (level : Level) : String :=
  if level = critical then "CRITICAL"
  else if level = error then "ERROR"
  else if level = warning then "WARNING"
  else if level = info then "INFO"
  else if level = debug then "DEBUG"
  else if level = notset then "NOTSET"
  else "Level " ++ toString level

end Level

end AbiRecovery.Log
