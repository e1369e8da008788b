import AbiRecovery.Settings

/-!
# Chains

A chain can be asked for code if the settings name a node for it. Looking a chain up raises its name
to upper case; the list of enabled chains takes the names as they stand.
-/
namespace AbiRecovery

/-- A chain with the address of its node. -/
structure Chain where
  name : Text
  uri : Text
  deriving DecidableEq, Repr

namespace Settings

def exactChain? (s : Settings) (name : Text) : Option Chain :=
  ((OrderedMap.get? s.nodes name).filter (!·.isEmpty)).map fun uri => ⟨name, uri⟩

/-- A chain by its name in any case. -/
def chain? (s : Settings) (name : Text) : Option Chain := s.exactChain? (Text.upper name)

/-- The chains of the list that have a node. -/
def enabledChains (s : Settings) : List Chain := s.chains.filterMap s.exactChain?

/-- The names of the chains to visit: the one that is asked for, else all enabled ones. -/
def targetChains (s : Settings) (asked : Option Text) : List Text :=
  match asked.filter (!·.isEmpty) with
  | some name => [Text.upper name]
  | none => s.enabledChains.map Chain.name

end Settings

end AbiRecovery
