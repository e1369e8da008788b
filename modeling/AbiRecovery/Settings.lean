import AbiRecovery.Environment

/-!
# Settings

What can be set from the environment. The addresses of the nodes are kept apart from the list of
chains: a chain whose variable is missing or empty stays in the list and has no node.
-/
namespace AbiRecovery

structure Settings where
  /-- The name of the environment, shown in logs. -/
  appEnv : Text
  /-- The name of the least level that is logged. -/
  logLevel : Text
  logToFile : Bool
  /-- The most bytes that code may have; below one, code may have any size. -/
  maxCodeBytes : Int
  /-- How many instructions a cursor remembers unless it is told otherwise. -/
  historySize : Int
  /-- The chains in the order in which they are visited. -/
  chains : List Text
  /-- The address of the node of each chain that has one. -/
  nodes : OrderedMap Text Text
  /-- How many seconds a node may take. -/
  nodeTimeout : Int
  storePath : Text
  deriving DecidableEq, Repr

namespace Settings

/-- The variable that holds the address of a chain's node. -/
def nodeVariable (chain : Text) : Text := "RPC_URI_" ++ Text.upper chain

/-- The address of a chain's node, if its variable is set. -/
def nodeUri? (env : Environment) (chain : Text) : Option Text :=
  OrderedMap.get? env (nodeVariable chain)

/-- The node of each chain of a list that has one. -/
def nodesFor (env : Environment) (chains : List Text) : OrderedMap Text Text :=
  .ofList (chains.filterMap fun chain =>
    ((nodeUri? env chain).filter (!·.isEmpty)).map fun uri => (chain, uri))

/-- Reads the addresses of the nodes again; the list of chains stays. -/
def reloadNodes (s : Settings) (env : Environment) : Settings :=
  { s with nodes := nodesFor env s.chains }

def ofEnvironment (env : Environment) : Settings :=
  let chains := env.list "CHAINS" "ETH"
  { appEnv := env.text "APP_ENV" (some "prod")
    logLevel := env.text "LOG_LEVEL" (some "INFO")
    logToFile := env.flag "LOG_TO_FILE" true
    maxCodeBytes := env.integer "MAX_CODE_BYTES" 49152
    historySize := env.integer "SCAN_HISTORY_SIZE" 1
    chains
    nodes := nodesFor env chains
    nodeTimeout := env.integer "RPC_TIMEOUT_SECONDS" 10
    storePath := env.text "STORE_PATH" (some "data/abiscan_state.sqlite") }

end Settings

end AbiRecovery
