import AbiRecovery.Text.Integer
import AbiRecovery.OrderedMap

/-!
# Options on a command line

Options begin with two dashes and may be abbreviated while only one name fits. A value follows its
option as the next argument or, after an equals sign, in the same one; the next argument is no value if
it looks like an option, but a negative number does not. Every argument is looked at before the first
option is taken, so a name that fits several options is refused first of all. Of an option that is given
twice the last value counts. Two dashes after an equals sign are no value.
-/
namespace AbiRecovery.CommandLine

inductive Takes where
  | nothing | text | integer
  deriving DecidableEq, Repr

/-- An option, by its name with the dashes. -/
structure Switch where
  name : Text
  takes : Takes
  deriving DecidableEq, Repr

structure Grammar where
  switches : List Switch
  /-- Exactly one of these must be given, if there are any. -/
  alternatives : List Text
  /-- Each of these must be given. -/
  required : List Text
  deriving DecidableEq, Repr

inductive Value where
  /-- No value, either because it takes none or because two dashes stand in its place. -/
  | nothing
  | text (s : Text)
  | integer (n : Int)
  deriving DecidableEq, Repr

inductive Refusal where
  /-- Help is asked for. -/
  | help
  /-- It breaks the grammar. -/
  | misuse
  deriving DecidableEq, Repr

inductive Item where
  /-- A value, or an argument of its own. -/
  | operand (text : Text)
  /-- Two dashes: everything after them is an operand. -/
  | separator
  | switch (switch : Switch) (attached : Option Text)
  /-- A request for help, and whether it is well formed. -/
  | help (wellFormed : Bool)
  /-- An option that there is none of. -/
  | unknown
  deriving DecidableEq, Repr

def helpName : Text := "--help"

/-- What stands before the first equals sign, and what stands after it, if there is one. -/
def cutAtEquals (arg : Text) : Text × Option Text :=
  match arg.span (· ≠ .char '=') with
  | (stem, []) => (stem, none)
  | (stem, _ :: attached) => (stem, some attached)

/-- Whether an argument is a negative number: whole, or with a point and digits after it. One line end
may follow. -/
def isNegativeNumber : Text → Bool
  | .char '-' :: rest =>
    let number := if rest.getLast? = some (.char '\n') then rest.dropLast else rest
    let isDigit : Text.Symbol → Bool := Text.Symbol.isIn fun c => (Text.digitValue? c).isSome
    match number.span isDigit with
    | (digits, []) => !digits.isEmpty
    | (_, .char '.' :: part) => !part.isEmpty && part.all isDigit
    | _ => false
  | _ => false

/-- Whether letters that are joined to the short request for help only repeat it. -/
def repeatsHelp (letters : Text) : Bool := letters.all (· = .char 'h')

/-- An argument with dashes in front that fits no option. -/
def noSwitch (arg : Text) : Item :=
  if isNegativeNumber arg || arg.contains (.char ' ') then .operand arg else .unknown

/-- The item for an option that is given by its full name. -/
def exactItem? (switches : List Switch) (stem : Text) (attached : Option Text) : Option Item :=
  if stem = helpName then some (.help attached.isNone)
  else if stem = "-h" then
    some (.help (attached.all fun letters => !letters.isEmpty && repeatsHelp letters))
  else (switches.find? fun switch => switch.name = stem).map fun switch => .switch switch attached

/-- The item for an option whose name is cut short. -/
def abbreviatedItem (switches : List Switch) (arg : Text) : Except Refusal Item :=
  let (stem, attached) := cutAtEquals arg
  let fitting := switches.filter fun switch => stem.isPrefixOf switch.name
  match stem.isPrefixOf helpName, fitting with
  | true, [] => .ok (.help attached.isNone)
  | false, [switch] => .ok (.switch switch attached)
  | false, [] => .ok (noSwitch arg)
  | _, _ => .error .misuse

def classify (switches : List Switch) (arg : Text) : Except Refusal Item :=
  match arg with
  | .char '-' :: second :: rest =>
    match exactItem? switches arg none with
    | some item => .ok item
    | none =>
      let (stem, attached) := cutAtEquals arg
      match attached, exactItem? switches stem attached with
      | some _, some item => .ok item
      | _, _ =>
        if arg = "--" then .ok .separator
        else if second = .char '-' then abbreviatedItem switches arg
        else if second = .char 'h' then .ok (.help (repeatsHelp rest))
        else .ok (noSwitch arg)
  | _ => .ok (.operand arg)

def classifyAll (switches : List Switch) : List Text → Except Refusal (List Item)
  | [] => .ok []
  | arg :: rest => do
    let item ← classify switches arg
    if item = .separator then return item :: rest.map .operand
    let items ← classifyAll switches rest
    return item :: items

/-- The value that a text is for an option; an option that takes nothing is misused. -/
def Takes.value (takes : Takes) (text : Text) : Except Refusal Value :=
  match takes with
  | .nothing => .error .misuse
  | .text => .ok (if text = "--" then .nothing else .text text)
  | .integer =>
    if text = "--" then .ok .nothing
    else match Text.integer? text with
      | some n => .ok (.integer n)
      | none => .error .misuse

/-- Whether an option excludes another: both are alternatives, and they differ. -/
def Grammar.excludes (g : Grammar) (name other : Text) : Bool :=
  g.alternatives.contains name && g.alternatives.contains other && name ≠ other

/-- Takes an option, after those in `given`. -/
def Grammar.take (g : Grammar) (given : List (Text × Value)) (name : Text) (value : Value) :
    Except Refusal (List (Text × Value)) :=
  if given.any fun earlier => g.excludes name earlier.1 then .error .misuse else .ok (given ++ [(name, value)])

def Grammar.isComplete (g : Grammar) (given : List (Text × Value)) : Bool :=
  let isGiven (name : Text) : Bool := given.any fun entry => entry.1 = name
  (g.alternatives.isEmpty || g.alternatives.any isGiven) && g.required.all isGiven

/-- Takes the options among the items, after those in `given`; `left` says whether something has been
left over. -/
def Grammar.takeAll (g : Grammar) (given : List (Text × Value)) (left : Bool) :
    List Item → Except Refusal (OrderedMap Text Value)
  | [] => if !left && g.isComplete given then .ok (.ofList given) else .error .misuse
  | .operand _ :: items => g.takeAll given true items
  | .separator :: items => g.takeAll given true items
  | .unknown :: items => g.takeAll given true items
  | .help wellFormed :: _ => .error (if wellFormed then .help else .misuse)
  | .switch switch (some text) :: items =>
    match switch.takes.value text with
    | .error refusal => .error refusal
    | .ok value => do
      let given ← g.take given switch.name value
      g.takeAll given left items
  | .switch switch none :: .operand text :: items =>
    match switch.takes with
    | .nothing => do
      let given ← g.take given switch.name .nothing
      g.takeAll given true items
    | takes => do
      let value ← takes.value text
      let given ← g.take given switch.name value
      g.takeAll given left items
  | .switch switch none :: items =>
    match switch.takes with
    | .nothing => do
      let given ← g.take given switch.name .nothing
      g.takeAll given left items
    | _ => .error .misuse

def Grammar.read (g : Grammar) (args : List Text) : Except Refusal (OrderedMap Text Value) := do
  let items ← classifyAll g.switches args
  g.takeAll [] false items

def isGiven (given : OrderedMap Text Value) (name : Text) : Bool := given.contains name

def Value.text? : Value → Option Text
  | .text s => some s
  | _ => none

def Value.integer? : Value → Option Int
  | .integer n => some n
  | _ => none

end AbiRecovery.CommandLine
