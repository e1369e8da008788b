import AbiRecovery.Abi.Entry
import AbiRecovery.Reachable
import AbiRecovery.Scan

/-!
# Recovering an interface description

Functions come first, in the order in which their selectors were found, then one event for every
logged topic. A function takes value unless a guard stands at its label; one that does not is a view
unless a store can be reached. These are hints: jumps to computed targets are not followed.
-/
namespace AbiRecovery.Abi

/-- The opcodes that read the arguments of a call. -/
def argumentReads : List Opcode := [.calldataload, .calldatasize, .calldatacopy]

/-- The mutability of a function, from whether it takes value and from the opcodes in its reach. -/
def mutabilityOf (payable : Bool) (tags : NumberSet) : Mutability :=
  if payable then .payable
  else if tags.contains Opcode.sstore.byte.toNat then .nonpayable
  else .view

/-- The entry of a selector whose target is a label in `region`. -/
def functionAt {p : Program} (index : p.Index) (selector : Text) (target : Nat) (region : Region) :
    Function :=
  let tags := index.reachableTags region
  let payable := !index.isGuarded target
  let mutability := mutabilityOf payable tags
  let returns := tags.contains Opcode.return_.byte.toNat || mutability = .view
  let reads := argumentReads.any fun op => tags.contains op.byte.toNat
  { selector, payable, mutability,
    inputs? := if reads then some [.generic] else none
    outputs? := if returns then some [.generic] else none }

/-- The entries of a program. Selectors whose target is no label have none. -/
def ofProgram (p : Program) : List Entry :=
  let index := p.index
  (p.selectors.filterMap fun (selector, target) =>
    (index.regionAt? target).map fun region => .function (functionAt index selector target region)) ++
  p.topics.map .event

/-- The selectors whose target is no label, with their targets. -/
def unresolved (p : Program) : List (Text × Nat) :=
  let index := p.index
  p.selectors.filter fun entry => (index.regionAt? entry.2).isNone

def ofCode (code : Bytes) : Except LookbackFault (List Entry) :=
  ofProgram <$> Program.ofCode code

/-- Every selector that is compared in the dispatch table of code, resolved or not. -/
def selectorsOf (code : Bytes) : Except LookbackFault (List Text) :=
  (fun p => OrderedMap.keys p.selectors) <$> Program.ofCode code

end AbiRecovery.Abi
