import AbiRecovery.CommandLine.Options

/-!
# Requests

A command line names a command and one source of code. Options before the command are unknown, help
apart; everything after it belongs to it. What an option without a value was to tell stays open here.
-/
namespace AbiRecovery.CommandLine

inductive Command where
  | abi | selectors | listing
  deriving DecidableEq, Repr

def Command.name : Command → Text
  | .abi => "abi"
  | .selectors => "selectors"
  | .listing => "listing"

def Command.ofName? (name : Text) : Option Command :=
  [Command.abi, .selectors, .listing].find? fun command => command.name = name

inductive Source where
  | code (text? : Option Text)
  | file (path? : Option Text)
  | address (address? : Option Text)
  deriving DecidableEq, Repr

inductive Layout where
  | oneLine
  | indented (width? : Option Int)
  deriving DecidableEq, Repr

structure Request where
  command : Command
  source : Source
  /-- The chain of an address. -/
  chain? : Option Text
  /-- Whether the result is kept in the store. -/
  save : Bool
  layout : Layout
  deriving DecidableEq, Repr

def sourceSwitches : List Switch :=
  [⟨"--code", .text⟩, ⟨"--file", .text⟩, ⟨"--address", .text⟩, ⟨"--chain", .text⟩]

def Command.grammar (command : Command) : Grammar :=
  let more : List Switch := match command with
    | .abi => [⟨"--save", .nothing⟩, ⟨"--indent", .integer⟩]
    | .selectors => [⟨"--indent", .integer⟩]
    | .listing => []
  ⟨sourceSwitches ++ more, ["--code", "--file", "--address"], []⟩

def sourceOf? (given : OrderedMap Text Value) : Option Source :=
  let value? (name : Text) : Option (Option Text) := (OrderedMap.get? given name).map Value.text?
  ((value? "--code").map .code).or (((value? "--file").map .file).or ((value? "--address").map .address))

/-- The name of the command and the arguments after it, and whether unknown options stand before it. -/
def cutCommand (unknown : Bool) : List Text → Except Refusal (Bool × Text × List Text)
  | [] => .error .misuse
  | arg :: rest => do
    match ← classify [] arg with
    | .operand name => return (unknown, name, rest)
    | .help wellFormed => throw (if wellFormed then .help else .misuse)
    | .unknown => cutCommand true rest
    | _ => throw .misuse

def Request.ofArguments (args : List Text) : Except Refusal Request := do
  let (unknown, name, rest) ← cutCommand false args
  match Command.ofName? name with
  | none => throw .misuse
  | some command =>
    let given ← command.grammar.read rest
    match sourceOf? given with
    | some source =>
      if unknown then throw .misuse
      return {
        command, source
        chain? := ((OrderedMap.get? given "--chain").getD (.text "ETH")).text?
        save := isGiven given "--save"
        layout := match OrderedMap.get? given "--indent" with
          | some value => .indented value.integer?
          | none => .oneLine }
    | none => throw .misuse

/-- A request to scan the contracts in a file. -/
structure BatchRequest where
  /-- The chain to scan on; without it all enabled chains. -/
  chain? : Option Text
  file? : Option Text
  /-- How many addresses are taken from the front; a negative number leaves out as many at the end. -/
  limit? : Option Int
  save : Bool
  deriving DecidableEq, Repr

def BatchRequest.grammar : Grammar :=
  ⟨[⟨"--chain", .text⟩, ⟨"--file", .text⟩, ⟨"--limit", .integer⟩, ⟨"--no-save", .nothing⟩], [], ["--file"]⟩

def BatchRequest.ofArguments (args : List Text) : Except Refusal BatchRequest := do
  let given ← grammar.read args
  return {
    chain? := (OrderedMap.get? given "--chain").bind Value.text?
    file? := (OrderedMap.get? given "--file").bind Value.text?
    limit? := ((OrderedMap.get? given "--limit").getD (.integer 20)).integer?
    save := !isGiven given "--no-save" }

end AbiRecovery.CommandLine
