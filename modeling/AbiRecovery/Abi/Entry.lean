import AbiRecovery.Recipe.Draft

/-!
# Entries of an interface description

A function is known by its selector alone and an event by its topic alone; what a function takes and
returns cannot be recovered, so one value of a general type stands for all of it.
-/
namespace AbiRecovery.Abi

/-- What a function may do to the state. -/
inductive Mutability where
  | payable | nonpayable | view
  /-- By a name that comes from outside, whatever it says. -/
  | given (name : Text)
  deriving DecidableEq, Repr

def Mutability.name : Mutability → Text
  | .payable => "payable"
  | .nonpayable => "nonpayable"
  | .view => "view"
  | .given name => name

inductive Parameter where
  /-- Stands for any arguments or results. -/
  | generic
  /-- With attributes that come from outside. -/
  | given (attributes : OrderedMap Text Json)
  deriving DecidableEq, Repr

def Parameter.typeName : Text := "type"

/-- The type of a parameter that stands for any arguments or results. -/
def Parameter.genericType : Text := "bytes"

structure Function where
  selector : Text
  payable : Bool
  mutability : Mutability
  /-- Its arguments, if it seems to read any. -/
  inputs? : Option (List Parameter)
  /-- Its results, if it seems to return any. -/
  outputs? : Option (List Parameter)
  deriving DecidableEq, Repr

/-- An entry of an interface description. -/
inductive Entry where
  | function (function : Function)
  | event (topic : Text)
  deriving DecidableEq, Repr

def Entry.isFunction : Entry → Bool
  | .function _ => true
  | .event _ => false

def functionMark : Text := "function"

def eventMark : Text := "event"

/-- The draft of a text of the program itself. -/
def word (t : Text) : Recipe.Draft := .text .program t

/-- A member with a name of the program itself. -/
def member (name : Text) (value : Recipe.Draft) : (Recipe.Origin × Text) × Recipe.Draft := ((.program, name), value)

def Mutability.draft (m : Mutability) : Recipe.Draft :=
  match m with
  | .payable | .nonpayable | .view => word m.name
  | .given name => .text .own name

def Parameter.draft : Parameter → Recipe.Draft
  | .generic => .object [member typeName (word genericType)]
  | .given attributes => .ofJson (.obj attributes)

/-- The draft of a function; missing arguments and results have no member. -/
def Function.draft (f : Function) : Recipe.Draft :=
  let optional (name : Text) (parameters? : Option (List Parameter)) :=
    parameters?.toList.map fun parameters => member name (.list (parameters.map Parameter.draft))
  .object ([member "type" (word functionMark), member "selector" (.text .own f.selector),
      member "payable" (.bool f.payable), member "stateMutability" f.mutability.draft] ++
    optional "outputs" f.outputs? ++ optional "inputs" f.inputs?)

def Entry.draft : Entry → Recipe.Draft
  | .function f => f.draft
  | .event topic => .object [member "type" (word eventMark), member "hash" (.text .own topic)]

def Entry.toJson (entry : Entry) : Json := entry.draft.toJson

def entriesJson (entries : List Entry) : Json := .arr (entries.map Entry.toJson)

end AbiRecovery.Abi
