import AbiRecovery.Proofs.BatchScan
import AbiRecovery.Proofs.Logging
import AbiRecovery.Proofs.SilentActions

/-!
# The traffic with nodes

What a session has to do with nodes is told by the fetches that are attempted in it (`Fetch`), one after another
(`Traffic.fetch`). Logging, printing and what is done with files leave the traffic and the settings as they are. So every
action of the program amounts to a list of fetches (`Session.Fetched`), whether it fails or not: a scan to one, a request to at most
one, and a batch to one for each pair that it comes to.
-/
namespace AbiRecovery

open Tool

/-- The connections to nodes, by the names of their chains, and the questions that have been asked. -/
structure Traffic where
  clients : OrderedMap Text Client
  calls : List Call

/-- An attempt to fetch the code of a contract, under the settings of the moment. There is no contract if what is given is
no address. -/
structure Fetch where
  settings : Settings
  chain : Text
  contract? : Option Address

/-- The chain that is asked for, if there is a node for it. -/
def Fetch.found? (f : Fetch) : Option Chain := f.settings.chain? f.chain

/-- The connection that the settings of the moment tell to make to the node of a chain. -/
def Fetch.newClient (f : Fetch) (found : Chain) : Client := ⟨found.uri, f.settings.nodeTimeout⟩

/-- The traffic after a fetch. Without a node for the chain nothing is done; a connection that is there is used. -/
def Traffic.fetch (t : Traffic) (f : Fetch) : Traffic :=
  match f.found? with
  | none => t
  | some found =>
    match OrderedMap.get? t.clients found.name with
    | some client => { t with calls := t.calls ++ f.contract?.toList.map (⟨client, ·⟩) }
    | none =>
      { clients := OrderedMap.insert t.clients found.name (f.newClient found)
        calls := t.calls ++ f.contract?.toList.map (⟨f.newClient found, ·⟩) }

/-- The connection to the node of a chain with a name, if the fetch is the one to make it. -/
def Fetch.clientFor? (f : Fetch) (name : Text) : Option Client :=
  if Text.upper f.chain = name then f.found?.map f.newClient else none

theorem Fetch.name_of_found {f : Fetch} {found : Chain} (known : f.found? = some found) : found.name = Text.upper f.chain := by
  unfold found? Settings.chain? Settings.exactChain? at known
  obtain ⟨uri, -, rfl⟩ := Option.map_eq_some_iff.mp known
  rfl

/-- A connection that is there stays, and a fetch makes the one that it needs. -/
theorem Traffic.get?_fetch (t : Traffic) (f : Fetch) (name : Text) :
    OrderedMap.get? (t.fetch f).clients name = (OrderedMap.get? t.clients name).or (f.clientFor? name) := by
  unfold fetch Fetch.clientFor?
  cases known : f.found? with
  | none => simp
  | some found =>
    rw [← Fetch.name_of_found known]
    dsimp only
    cases kept : OrderedMap.get? t.clients found.name with
    | some client =>
      by_cases same : found.name = name
      · subst same
        simp [kept]
      · simp [same]
    | none =>
      rw [OrderedMap.get?_insert]
      by_cases same : found.name = name
      · subst same
        simp [kept]
      · simp [same]

namespace Session

/-- The traffic of a session. -/
def traffic (s : Session) : Traffic := ⟨s.clients, s.calls⟩

/-- Between the two sessions there have been these fetches, in their order, and the settings have stayed. -/
structure Fetched (s : Session) (fetches : List Fetch) (t : Session) : Prop where
  settings : t.settings = s.settings
  traffic : t.traffic = fetches.foldl Traffic.fetch s.traffic

variable {s t u : Session} {fetches more : List Fetch}

theorem Fetched.refl (s : Session) : Fetched s [] s := ⟨rfl, rfl⟩

theorem Fetched.trans (first : Fetched s fetches t) (second : Fetched t more u) : Fetched s (fetches ++ more) u where
  settings := second.settings.trans first.settings
  traffic := by rw [second.traffic, first.traffic, List.foldl_append]

theorem Fetched.of_same (fetched : Fetched s fetches t) (settings : u.settings = t.settings)
    (traffic : u.traffic = t.traffic) : Fetched s fetches u :=
  ⟨settings.trans fetched.settings, traffic.trans fetched.traffic⟩

/-- Asking for the code of a contract is a fetch. -/
theorem fetched_asked (s : Session) (chain : Text) (contract? : Option Address) :
    Fetched s [⟨s.settings, chain, contract?⟩] (s.asked chain contract?) := by
  constructor
  case settings =>
    obtain ⟨_, _, same⟩ := s.asked_eq chain contract?
    rw [same]
  case traffic =>
    unfold asked connected client
    rw [List.foldl_cons, List.foldl_nil]
    unfold Traffic.fetch Fetch.found? Fetch.newClient traffic
    dsimp only
    cases s.settings.chain? chain with
    | none => rfl
    | some found =>
      cases known : OrderedMap.get? s.clients found.name with
      | some client => cases contract? <;> simp [known]
      | none => cases contract? <;> simp [known]

end Session

namespace Tool

open Session

variable {s : Session} {earlier : List Fetch}

/-! ## What is done without nodes -/

theorem fetched_modify {f : Session → Session} (settings : ∀ t, (f t).settings = t.settings)
    (traffic : ∀ t, (f t).traffic = t.traffic) : Keeps (Fetched s earlier) (modify f : Tool PUnit) :=
  fun t fetched => fetched.of_same (settings t) (traffic t)

theorem fetched_print (lines : List Text) : Keeps (Fetched s earlier) (print lines) :=
  fetched_modify (fun _ => rfl) fun _ => rfl

theorem fetched_printError (line : Text) : Keeps (Fetched s earlier) (printError line) :=
  fetched_modify (fun _ => rfl) fun _ => rfl

theorem fetched_onlyFiles {α : Type} {x : Tool α} (only : OnlyFiles x) : Keeps (Fetched s earlier) x := by
  intro t fetched
  obtain ⟨files, changed⟩ := only t
  rw [changed]
  exact fetched.of_same rfl rfl

theorem keptByLog_fetched : KeptByLog (Fetched s earlier) :=
  ⟨fun _ _ fetched => fetched.of_same rfl rfl, fun _ _ _ fetched => fetched.of_same rfl rfl⟩

/-! ## Fetching and scanning -/

/-- Fetching is one fetch, whatever comes of it. -/
theorem fetched_fetchCodeOf (chain : Text) (shown : Json) (contract : Except FetchFault Address) (s : Session) :
    Fetched s [⟨s.settings, chain, contract.toOption⟩] (perform (fetchCodeOf chain shown contract) s).2 := by
  have asked := s.fetched_asked chain contract.toOption
  have failed (fault : FetchFault) : Keeps (Fetched s [⟨s.settings, chain, contract.toOption⟩]) (do
      log intakeLogger .warning "code_fetch_failed" [("chain", .str chain), ("address", shown), ("error", .str fault.text)]
      return (none : Option Bytes)) :=
    (keptByLog_fetched.keeps_log _ _ _ _).bind fun _ => Keeps.pure _
  unfold fetchCodeOf
  rw [perform_bind_ok (perform_get s)]
  unfold Session.asked at asked
  dsimp only
  cases known : s.settings.chain? chain with
  | none =>
    rw [known] at asked
    exact ((keptByLog_fetched.keeps_log _ _ _ _).bind fun _ => Keeps.pure _) _ asked
  | some found =>
    dsimp only
    rw [perform_bind_ok (perform_clientFor found s)]
    rw [known] at asked
    cases contract with
    | error fault => exact failed fault _ asked
    | ok contract =>
      obtain ⟨clients, same⟩ := s.connected_eq found
      simp only [Except.toOption, same] at asked failed ⊢
      rw [perform_bind_ok (perform_modify _ _)]
      cases s.network.reply (s.client found).uri contract with
      | failure text => exact failed _ _ asked
      | code code => exact ((keeps_ofExcept _ _).map some) _ asked

theorem ensures_fetchCodeOf (chain : Text) (shown : Json) (contract : Except FetchFault Address) :
    Ensures (Fetched s earlier) (fetchCodeOf chain shown contract)
      (fun _ => Fetched s (earlier ++ [⟨s.settings, chain, contract.toOption⟩]))
      (Fetched s (earlier ++ [⟨s.settings, chain, contract.toOption⟩])) := by
  refine Ensures.iff_ends.mpr fun t fetched => ?_
  rw [← fetched.settings]
  exact fetched.trans (fetched_fetchCodeOf chain shown contract t)

theorem ensures_fetchCode (chain address : Text) :
    Ensures (Fetched s earlier) (fetchCode chain address)
      (fun _ => Fetched s (earlier ++ [⟨s.settings, chain, contract? address⟩]))
      (Fetched s (earlier ++ [⟨s.settings, chain, contract? address⟩])) := by
  rw [← toOption_ofText]
  exact ensures_fetchCodeOf chain _ _

/-- A scan makes one fetch; all the rest is done without nodes. -/
theorem ensures_scanAddress (chain address : Text) (save : Bool) :
    Ensures (Fetched s earlier) (scanAddress chain address save)
      (fun _ => Fetched s (earlier ++ [⟨s.settings, chain, contract? address⟩]))
      (Fetched s (earlier ++ [⟨s.settings, chain, contract? address⟩])) := by
  refine (ensures_fetchCode chain address).bind fun code? => Keeps.ensures ?_
  cases code? with
  | none => exact Keeps.pure none
  | some code =>
    refine (keptByLog_fetched.keeps_recoverEntries code).bind fun entries => ?_
    have told (extras : List (Text × Json)) : Keeps (Fetched s (earlier ++ [⟨s.settings, chain, contract? address⟩]))
        (do log intakeLogger .info "address_scanned" extras; return some entries) :=
      (keptByLog_fetched.keeps_log _ _ _ _).bind fun _ => Keeps.pure _
    cases save with
    | false => exact told _
    | true =>
      exact (fetched_onlyFiles (onlyFiles_saveEntries _ _)).bind fun _ =>
        (fetched_onlyFiles (onlyFiles_linkContract _ _ _)).bind fun _ => told _

end Tool

namespace CommandLine

open Session

variable {s : Session} {earlier : List Fetch}

/-! ## Requests -/

theorem fetched_runAbi (r : Request) (code : Bytes) : Keeps (Fetched s earlier) (r.runAbi code) := by
  refine (keptByLog_fetched.keeps_recoverEntries code).bind fun entries => ?_
  have told (extras : List (Text × Json)) : Keeps (Fetched s earlier)
      (do log runLogger .info "abi_saved" extras; r.printJson (Abi.entriesJson entries)) :=
    (keptByLog_fetched.keeps_log _ _ _ _).bind fun _ => keeps_printJson fetched_print r _
  cases r.save with
  | false => exact keeps_printJson fetched_print r _
  | true =>
    refine (fetched_onlyFiles (onlyFiles_saveEntries _ _)).bind fun _ => ?_
    cases r.contract? with
    | some contract => exact (fetched_onlyFiles (onlyFiles_linkContract _ _ _)).bind fun _ => told _
    | none => exact told _

/-- The fetches of a request: one if its source is an address and it has a chain. -/
def Request.fetches (r : Request) (settings : Settings) : List Fetch :=
  match r.source, r.chain? with
  | .address address?, some chain => [⟨settings, Text.upper chain, address?.bind Session.contract?⟩]
  | _, _ => []

theorem ensures_readCode (r : Request) :
    Ensures (Fetched s earlier) r.readCode (fun _ => Fetched s (earlier ++ r.fetches s.settings))
      (Fetched s (earlier ++ r.fetches s.settings)) := by
  unfold Request.readCode Request.fetches
  cases r.source with
  | code text? =>
    rw [List.append_nil]
    exact (Keeps.get.bind fun _ => (keeps_ofExcept _ _).map some).ensures
  | file path? =>
    rw [List.append_nil]
    exact (((keeps_ofExcept _ _).bind fun file => keeps_codeFromFile file).map some).ensures
  | address address? =>
    cases r.chain? with
    | none =>
      rw [List.append_nil]
      exact Ensures.throw fun _ => id
    | some chain =>
      cases address? with
      | some address => exact ensures_fetchCode (Text.upper chain) address
      | none =>
        exact ensures_fetchCodeOf (Text.upper chain) (shown none) (.error ⟨"TypeError", MissingValue.address.message⟩)

theorem ensures_tryReadCode (r : Request) :
    Ensures (Fetched s earlier) r.tryReadCode (fun _ => Fetched s (earlier ++ r.fetches s.settings))
      (Fetched s (earlier ++ r.fetches s.settings)) := by
  refine Ensures.iff_ends.mpr fun t fetched => ?_
  rw [session_tryReadCode]
  exact Ensures.iff_ends.mp (ensures_readCode r) t fetched

/-- A request makes its fetches before anything else but logging. -/
theorem ensures_run (r : Request) :
    Ensures (Fetched s earlier) r.run (fun _ => Fetched s (earlier ++ r.fetches s.settings))
      (Fetched s (earlier ++ r.fetches s.settings)) := by
  refine Ensures.get_bind fun t fetched => ?_
  have begun (extras : List (Text × Json)) : Ensures (· = t) (log runLogger .info "abiscan_cli_start" extras)
      (fun _ => Fetched s earlier) (Fetched s (earlier ++ r.fetches s.settings)) :=
    (keptByLog_fetched.ensures_log _ _ _ _).weaken (by rintro _ rfl; exact fetched) (fun _ _ => id) fun _ => False.elim
  refine (begun _).bind fun _ => (ensures_tryReadCode r).bind fun read => Keeps.ensures ?_
  match read with
  | .error failure => exact (keptByLog_fetched.keeps_log _ _ _ _).bind fun _ => Keeps.pure _
  | .ok none => exact (keptByLog_fetched.keeps_log _ _ _ _).bind fun _ => Keeps.pure _
  | .ok (some code) => exact (keeps_runOn fetched_print (fetched_runAbi r code)).bind fun _ => (keptByLog_fetched.keeps_log _ _ _ _).bind fun _ => Keeps.pure _

/-! ## Batches -/

/-- The pairs that are come to when they are scanned one after another: all up to the first whose scan fails. -/
def reachedPairs (save : Bool) (s : Session) : List (Text × Text) → List (Text × Text)
  | [] => []
  | (chain, address) :: rest =>
    (chain, address) :: match perform (scanAddress chain address save) s with
      | (.ok entries?, t) => reachedPairs save (t.printing [pairLine chain address entries?]) rest
      | (.error _, _) => []

/-- The fetch for a pair of a chain and an address. -/
def pairFetch (settings : Settings) (pair : Text × Text) : Fetch := ⟨settings, pair.1, contract? pair.2⟩

theorem fetched_scanPairs (save : Bool) (scanned : Nat) (pairs : List (Text × Text)) (s : Session) :
    Fetched s ((reachedPairs save s pairs).map (pairFetch s.settings)) (perform (scanPairs save scanned pairs) s).2 := by
  induction pairs generalizing scanned s with
  | nil => exact .refl s
  | cons pair rest ih =>
    obtain ⟨chain, address⟩ := pair
    have scan := Ensures.iff_ends.mp (ensures_scanAddress chain address save) s (.refl s)
    rw [scanPairs, reachedPairs]
    cases ran : perform (scanAddress chain address save) s with
    | mk result t =>
      rw [ran] at scan
      cases result with
      | error failure =>
        rw [perform_bind_error ran]
        exact scan
      | ok entries? =>
        have printed : Fetched s [pairFetch s.settings (chain, address)] (t.printing [pairLine chain address entries?]) :=
          scan.of_same rfl rfl
        have rest := printed.trans (ih (if entries?.isSome then scanned + 1 else scanned) _)
        rw [printed.settings] at rest
        rw [perform_bind_ok ran]
        exact rest

/-- The fetches of a batch: one for each pair that it comes to, if the list can be read. -/
def BatchRequest.fetches (r : BatchRequest) (s : Session) : List Fetch :=
  match perform r.listed s with
  | (.ok addresses, t) =>
    (reachedPairs r.save t (batchPairs s.settings r.chain? addresses)).map (pairFetch s.settings)
  | (.error _, _) => []

theorem fetched_scanListed (r : BatchRequest) (addresses : List Text) (s : Session) :
    Fetched s ((reachedPairs r.save s (batchPairs s.settings r.chain? addresses)).map (pairFetch s.settings))
      (perform (r.scanListed addresses) s).2 := by
  by_cases empty : (batchPairs s.settings r.chain? addresses).isEmpty
  · obtain ⟨lines, told⟩ := perform_scanListed_of_isEmpty empty
    rw [told, List.isEmpty_iff.mp empty]
    exact fetched_print lines s (.refl s)
  · rw [perform_scanListed empty]
    exact Keeps.bind_ends (fetched_scanPairs r.save 0 _ s) fun n => (fetched_print _).bind fun _ => Keeps.pure 0

theorem fetched_runBatchRequest (r : BatchRequest) (s : Session) : Fetched s (r.fetches s) (perform r.run s).2 := by
  have listed := keeps_listed fetched_printError r s (.refl s)
  unfold BatchRequest.fetches
  rw [BatchRequest.run_eq]
  cases ran : perform r.listed s with
  | mk result t =>
    rw [ran] at listed
    cases result with
    | error failure =>
      rw [perform_bind_error ran]
      exact listed
    | ok addresses =>
      have scanned := listed.trans (fetched_scanListed r addresses t)
      rw [listed.settings] at scanned
      rw [perform_bind_ok ran]
      exact scanned

end CommandLine

end AbiRecovery
