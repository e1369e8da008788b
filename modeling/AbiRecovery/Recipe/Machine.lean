import AbiRecovery.Json.Basic
import AbiRecovery.Recipe.Step

/-!
# The machine of recipes

Carrying out a recipe: its steps move values on a stack, and the value that is left is the one that the
recipe is for. Only texts are recalled; the containers that are kept aside keep their place in the count.
-/
namespace AbiRecovery.Recipe

inductive Item where
  | mark
  | value (value : Json)

structure Machine where
  /-- The top of the stack comes first. -/
  stack : List Item
  /-- What has been kept aside, where it is a text. -/
  kept : Array (Option Text)

namespace Machine

/-- The state before the first step. -/
def start : Machine := ⟨[], #[]⟩

/-- The machine with one more value on the stack. -/
def push (m : Machine) (value : Json) : Machine := { m with stack := .value value :: m.stack }

/-- The values since the mark, in order and in front of `above`, and the stack below the mark. -/
def sinceMark (above : List Json) : List Item → Option (List Json × List Item)
  | [] => none
  | .mark :: below => some (above, below)
  | .value value :: below => sinceMark (value :: above) below

/-- Adds values to the list on top of a stack. -/
def appendTo (values : List Json) : List Item → Option (List Item)
  | .value (.arr items) :: below => some (.value (.arr (items ++ values)) :: below)
  | _ => none

/-- Adds keys and values, in turn, to the members of an object. -/
def putMembers (members : List (Text × Json)) : List Json → Option (List (Text × Json))
  | [] => some members
  | .str key :: value :: rest => putMembers (OrderedMap.insert members key value) rest
  | _ => none

/-- Adds keys and values, in turn, to the object on top of a stack. -/
def putTo (values : List Json) : List Item → Option (List Item)
  | .value (.obj members) :: below => (putMembers members values).map fun members => .value (.obj members) :: below
  | _ => none

def topText? (m : Machine) : Option Text :=
  match m.stack with
  | .value (.str t) :: _ => some t
  | _ => none

def withStack (m : Machine) (stack? : Option (List Item)) : Option Machine :=
  stack?.map fun stack => { m with stack }

def step (m : Machine) : Step → Option Machine
  | .version _ | .frame _ | .stop => some m
  | .null => some (m.push .null)
  | .bool value => some (m.push (.bool value))
  | .int value => some (m.push (.int value))
  | .float value => some (m.push (.float value))
  | .text value => some (m.push (.str value))
  | .keep => some { m with kept := m.kept.push m.topText? }
  | .again place => (m.kept[place]?.join).map fun t => m.push (.str t)
  | .list => some (m.push (.arr []))
  | .object => some (m.push (.obj []))
  | .mark => some { m with stack := .mark :: m.stack }
  | .append => m.withStack <| match m.stack with
    | .value value :: below => appendTo [value] below
    | _ => none
  | .appendAll => m.withStack ((sinceMark [] m.stack).bind fun (values, below) => appendTo values below)
  | .put => m.withStack <| match m.stack with
    | .value value :: .value key :: below => putTo [key, value] below
    | _ => none
  | .putAll => m.withStack ((sinceMark [] m.stack).bind fun (values, below) => putTo values below)

/-- Carries out a recipe with at most `fuel` steps. -/
def run (m : Machine) (fuel : Nat) (bytes : Bytes) : Option Json :=
  match fuel with
  | 0 => none
  | fuel + 1 => do
    let (step, bytes) ← Step.read? bytes
    match step, m.stack with
    | .stop, [.value value] => return value
    | .stop, _ => none
    | step, _ => run (← m.step step) fuel bytes

end Machine

def read? (bytes : Bytes) : Option Json := Machine.start.run bytes.length bytes

end AbiRecovery.Recipe
