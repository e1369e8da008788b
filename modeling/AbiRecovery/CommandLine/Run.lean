import AbiRecovery.CommandLine.Request
import AbiRecovery.Listing
import AbiRecovery.Session.AddressList
import AbiRecovery.Session.Contract

/-!
# Carrying out requests

A request reads its code, prints one result and ends with a number: zero if the result was printed, one
if there was no code to be had, two if the code could not be read. A batch scans every contract in a
list on every chain, prints a line for each and a summary.
-/
namespace AbiRecovery.CommandLine

inductive Ending where
  /-- It was carried out, with this result. -/
  | finished (result : Nat)
  /-- It was not carried out. -/
  | refused (status : Nat)
  deriving DecidableEq, Repr

def runLogger : Text := "abiscan.run"

def need {α : Type} (what : MissingValue) (value? : Option α) : Tool α :=
  Tool.ofExcept .missingValue (what.unless value?)

/-- The value of an option that is handed in as code. -/
def codeInput (text? : Option Text) : CodeInput := text?.elim (.other .arr) .text

/-- The value of an option as the log shows it. -/
def shown (text? : Option Text) : Json := text?.elim (.arr []) .str

def Request.readCode (r : Request) : Tool (Option Bytes) := do
  match r.source with
  | .code text? =>
    let s ← get
    some <$> Tool.ofExcept .code ((codeInput text?).load s.settings.maxCodeBytes)
  | .file path? => some <$> (need .path path? >>= Tool.codeFromFile)
  | .address address? =>
    let chain ← Text.upper <$> need .chain r.chain?
    match address? with
    | some address => Tool.fetchCode chain address
    | none => Tool.fetchCodeOf chain (shown none) (.error ⟨"TypeError", MissingValue.address.message⟩)

/-- Prints a value with only ASCII characters and the indent that is asked for. -/
def Request.printJson (r : Request) (value : Json) : Tool Unit := do
  let indent ← match r.layout with
    | .oneLine => pure none
    | .indented width? => some <$> need .indent width?
  let style ← Tool.ofExcept .size (Json.Style.ofIndent true indent)
  Tool.print [value.render style]

/-- The chain and the address of a request, if its code comes from an address. -/
def Request.contract? (r : Request) : Option (Text × Text) :=
  match r.source, r.chain? with
  | .address (some address), some chain => if address = "" then none else some (chain, address)
  | _, _ => none

/-- Recovers entries, keeps them if that is asked for, and prints them. -/
def Request.runAbi (r : Request) (code : Bytes) : Tool Unit := do
  let entries ← Tool.recoverEntries code
  if r.save then
    let hash := Tool.codeHash code
    Tool.saveEntries hash entries
    match r.contract? with
    | some (chain, address) => Tool.linkContract chain address hash
    | none => pure ()
    Tool.log runLogger .info "abi_saved" [("code_hash", .str hash), ("entries", .int entries.length)]
  r.printJson (Abi.entriesJson entries)

def Request.runSelectors (r : Request) (code : Bytes) : Tool Unit := do
  let selectors ← Tool.ofExcept .lookback (Abi.selectorsOf code)
  r.printJson (.arr (selectors.map .str))

def Request.runListing (code : Bytes) : Tool Unit := do
  let s ← get
  let capacity ← Tool.ofExcept .size (Cursor.capacityFor s.settings.historySize)
  let lines ← Tool.ofExcept .lookback (listing capacity code)
  Tool.print lines

/-- Carries out a request for code that has been read. -/
def Request.runOn (r : Request) (code : Bytes) : Tool Unit :=
  match r.command with
  | .abi => r.runAbi code
  | .selectors => r.runSelectors code
  | .listing => Request.runListing code

/-- Whether a failure to read code is reported as a result. -/
def isReadFailure : Failure → Bool
  | .code _ | .address _ | .file _ | .encoding _ => true
  | .key _ | .noItems _ | .lookback _ | .missingVariable _ | .takenName _ | .time _ | .size _
  | .longInteger _ | .missingValue _ | .unconfirmedReset => false

def Request.tryReadCode (r : Request) : Tool (Except Failure (Option Bytes)) := do
  try
    return .ok (← r.readCode)
  catch failure =>
    if isReadFailure failure then return .error failure else throw failure

def Request.run (r : Request) : Tool Nat := do
  let s ← get
  Tool.log runLogger .info "abiscan_cli_start" [("env", .str s.settings.appEnv), ("cmd", .str r.command.name)]
  match ← r.tryReadCode with
  | .error failure =>
    Tool.log runLogger .error "code_load_failed" [("error", .str failure.message)]
    return 2
  | .ok none =>
    let address := match r.source with
      | .address address? => shown address?
      | _ => .null
    Tool.log runLogger .error "no_code" [("chain", shown r.chain?), ("address", address)]
    return 1
  | .ok (some code) =>
    r.runOn code
    Tool.log runLogger .info "abiscan_cli_done" [("cmd", .str r.command.name), ("code_bytes", .int code.length)]
    return 0

/-- The items before a limit; a negative limit is counted from the end. -/
def takeLimit {α : Type} (limit : Int) (items : List α) : List α :=
  items.take (if limit < 0 then limit + items.length else limit).toNat

def pairLine (chain address : Text) : Option (List Abi.Entry) → Text
  | none => chain ++ ":" ++ address ++ ": fetch failed"
  | some entries =>
    let functions := entries.countP Abi.Entry.isFunction
    chain ++ ":" ++ address ++ ": functions=" ++ toString functions ++
      " events=" ++ toString (entries.length - functions)

/-- Scans contracts one after another and prints a line for each; counts those whose code was fetched. -/
def scanPairs (save : Bool) (scanned : Nat) : List (Text × Text) → Tool Nat
  | [] => return scanned
  | (chain, address) :: rest => do
    let entries? ← Tool.scanAddress chain address save
    Tool.print [pairLine chain address entries?]
    scanPairs save (if entries?.isSome then scanned + 1 else scanned) rest

def BatchRequest.run (r : BatchRequest) : Tool Nat := do
  let listed ← Tool.loadAddresses (← need .path r.file?)
  let addresses := takeLimit (← need .limit r.limit?) listed
  if addresses.isEmpty then
    Tool.print ["No addresses loaded."]
    return 1
  let s ← get
  let chains := s.settings.targetChains r.chain?
  if chains.isEmpty then
    Tool.print ["No chains with an RPC configured."]
    return 1
  let pairs := chains.flatMap fun chain => addresses.map fun address => (chain, address)
  let scanned ← scanPairs r.save 0 pairs
  Tool.print ["scanned=" ++ toString scanned ++ "/" ++ toString pairs.length]
  return 0

/-- The end of a command line that is not carried out. -/
def refuse : Refusal → Tool Ending
  | .help => return .refused 0
  | .misuse => return .refused 2

def run (args : List Text) : Tool Ending :=
  match Request.ofArguments args with
  | .ok request => .finished <$> request.run
  | .error refusal => refuse refusal

def runBatch (args : List Text) : Tool Ending :=
  match BatchRequest.ofArguments args with
  | .ok request => .finished <$> request.run
  | .error refusal => refuse refusal

end AbiRecovery.CommandLine
