import AbiRecovery.Abi.Recovery
import AbiRecovery.Session.Store

/-!
# Contracts

The code of a contract is fetched from the node of its chain, over one connection for each chain that
is made when it is first needed and kept. A chain without a node, an address that is none and a node
that fails leave no code, with a note in the log; code above the limit is a failure.
-/
namespace AbiRecovery.Tool

def intakeLogger : Text := "abiscan.discovery"

def scanLogger : Text := "abiscan.disasm"

def codeHash (code : Bytes) : Text := Hex.encodeMarked (Keccak.hash code)

def clientFor (chain : Chain) : Tool Client := do
  let s ← get
  match OrderedMap.get? s.clients chain.name with
  | some client => return client
  | none =>
    let client : Client := ⟨chain.uri, s.settings.nodeTimeout⟩
    set { s with clients := OrderedMap.insert s.clients chain.name client }
    return client

/-- Why a node is not asked or gives no answer, as the log tells it. -/
structure FetchFault where
  kind : Text
  message : Text

def FetchFault.text (fault : FetchFault) : Text := fault.kind ++ "(" ++ Text.quoted fault.message ++ ")"

/-- Fetches the code of a contract on a chain. `shown` is what the log tells of its address. -/
def fetchCodeOf (chain : Text) (shown : Json) (contract : Except FetchFault Address) :
    Tool (Option Bytes) := do
  let failed (fault : FetchFault) : Tool (Option Bytes) := do
    log intakeLogger .warning "code_fetch_failed"
      [("chain", .str chain), ("address", shown), ("error", .str fault.text)]
    return none
  let s ← get
  match s.settings.chain? chain with
  | none =>
    log intakeLogger .info "chain_not_configured" [("chain", .str chain)]
    return none
  | some found =>
    let client ← clientFor found
    match contract with
    | .error fault => failed fault
    | .ok contract =>
      modify fun s => { s with calls := s.calls ++ [⟨client, contract⟩] }
      match s.network.reply client.uri contract with
      | .failure text => failed ⟨"ConnectionError", text⟩
      | .code code => some <$> ofExcept .code (CodeInput.withinLimit s.settings.maxCodeBytes code)

/-- Fetches the code at an address of a chain. -/
def fetchCode (chain address : Text) : Tool (Option Bytes) :=
  fetchCodeOf chain (.str address)
    ((Address.ofText address).mapError fun fault => ⟨"ValueError", fault.message⟩)

/-- The entries of code. Selectors without a label are noted in the log, and so are the numbers of what
was found. -/
def recoverEntries (code : Bytes) : Tool (List Abi.Entry) := do
  let program ← ofExcept .lookback (Program.ofCode code)
  (Abi.unresolved program).forM fun (selector, target) =>
    log scanLogger .debug "selector_dest_missing" [("selector", .str selector), ("dest", .int target)]
  let entries := Abi.ofProgram program
  log scanLogger .debug "disasm_done"
    [("regions", .int program.regions.length), ("dests", .int program.labels.length),
      ("selectors", .int program.selectors.length), ("events", .int program.topics.length),
      ("entries", .int entries.length)]
  return entries

/-- Fetches the code at an address and recovers its entries, and saves them with a link from the
address if that is asked for. -/
def scanAddress (chain address : Text) (save : Bool) : Tool (Option (List Abi.Entry)) := do
  match ← fetchCode chain address with
  | none => return none
  | some code =>
    let entries ← recoverEntries code
    if save then
      saveEntries (codeHash code) entries
      linkContract chain address (codeHash code)
    log intakeLogger .info "address_scanned"
      [("chain", .str (Text.upper chain)), ("address", .str address), ("entries", .int entries.length),
        ("code_bytes", .int code.length)]
    return some entries

/-- Recovers the entries of code that is given and saves them under its hash. -/
def saveScan (input : CodeInput) : Tool Unit := do
  let code ← ofExcept .code input.code
  let entries ← recoverEntries code
  saveEntries (codeHash code) entries

def codeFromFile (path : Text) : Tool Bytes := do
  let s ← get
  let content ← ofExcept .file (s.files.read (Location.ofText path))
  ofExcept .code ((CodeInput.ofFile content).load s.settings.maxCodeBytes)

end AbiRecovery.Tool
