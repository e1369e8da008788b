import AbiRecovery.OrderedMap
import AbiRecovery.Text.Integer
import AbiRecovery.Text.Split
import AbiRecovery.Text.UpperCase

/-!
# Environment variables

Variables are texts. They are read as texts, switches, integers and comma-separated lists, each with a
value for the case that the variable is not set. A text that is no integer counts as not set; a
text that is no known word for yes means no.
-/
namespace AbiRecovery

abbrev Environment : Type := OrderedMap Text Text

/-- A variable that must be set and is not. -/
structure MissingVariable where
  name : Text
  deriving DecidableEq, Repr

/-- The message for a variable that must be set. -/
def MissingVariable.message (fault : MissingVariable) : Text :=
  "Missing required env key: " ++ fault.name

namespace Environment

/-- The value of a variable, else the given one. -/
def value? (env : Environment) (name : Text) (fallback : Option Text) : Option Text :=
  (OrderedMap.get? env name).or fallback

/-- A text. A variable without any value reads as the empty text. -/
def text (env : Environment) (name : Text) (fallback : Option Text) : Text :=
  (env.value? name fallback).getD ""

def requiredText (env : Environment) (name : Text) (fallback : Option Text) :
    Except MissingVariable Text :=
  let value := env.text name fallback
  if (Text.trim value).isEmpty then .error ⟨name⟩ else .ok value

/-- The words for yes. No character outside ASCII has a lower-case form that occurs in them. -/
def yesWords : List Text := ["1", "true", "yes", "y", "on"]

def flag (env : Environment) (name : Text) (fallback : Bool) : Bool :=
  match OrderedMap.get? env name with
  | some value => yesWords.contains (Text.lowerAscii (Text.trim value))
  | none => fallback

def integer (env : Environment) (name : Text) (fallback : Int) : Int :=
  ((OrderedMap.get? env name).bind Text.integer?).getD fallback

/-- The items of a comma-separated list, without the blanks around them, in upper case; blank items are
left out. -/
def items (list : Text) : List Text :=
  (((Text.splitAt ',' list).map Text.trim).filter (!·.isEmpty)).map Text.upper

def list (env : Environment) (name : Text) (fallback : Text) : List Text :=
  items (env.text name (some fallback))

end Environment

end AbiRecovery
