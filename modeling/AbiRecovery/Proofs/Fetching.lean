import AbiRecovery.CommandLine.Run
import AbiRecovery.Proofs.ControlFlow
import AbiRecovery.Proofs.SessionStore
import AbiRecovery.Proofs.UpperCase

/-!
# Fetching and recovering

What fetching comes to is told by the settings, the connections and the nodes alone. It makes at most one
connection and asks at most one question. Recovering the entries of code always goes through.
-/
namespace AbiRecovery

open FileTree

namespace Session

/-- The connection to the node of a chain, the kept one or a new one. -/
def client (s : Session) (chain : Chain) : Client :=
  (OrderedMap.get? s.clients chain.name).getD ⟨chain.uri, s.settings.nodeTimeout⟩

/-- The session with a connection to the node of a chain. -/
def connected (s : Session) (chain : Chain) : Session :=
  match OrderedMap.get? s.clients chain.name with
  | some _ => s
  | none => { s with clients := OrderedMap.insert s.clients chain.name ⟨chain.uri, s.settings.nodeTimeout⟩ }

/-- What fetching the code at an address of a chain comes to. -/
def answer? (s : Session) (chain : Text) (contract? : Option Address) : Except CodeFault (Option Bytes) :=
  match s.settings.chain? chain, contract? with
  | some found, some contract =>
    match s.network.reply (s.client found).uri contract with
    | .failure _ => .ok none
    | .code code => some <$> CodeInput.withinLimit s.settings.maxCodeBytes code
  | _, _ => .ok none

/-- The session after the code at an address of a chain has been asked for. -/
def asked (s : Session) (chain : Text) (contract? : Option Address) : Session :=
  match s.settings.chain? chain, contract? with
  | none, _ => s
  | some found, none => s.connected found
  | some found, some contract => { s.connected found with calls := s.calls ++ [⟨s.client found, contract⟩] }

/-- The contract that a text is the address of. -/
def contract? (address : Text) : Option Address := (Address.ofText address).toOption

theorem contract?_eq_some_iff {address : Text} {contract : Address} :
    contract? address = some contract ↔ Address.ofText address = .ok contract := by
  unfold contract?
  cases Address.ofText address <;> simp [Except.toOption]

theorem connected_eq (s : Session) (chain : Chain) :
    ∃ clients, s.connected chain = { s with clients } := by
  unfold connected
  split
  · exact ⟨s.clients, rfl⟩
  · exact ⟨_, rfl⟩

/-- Asking changes nothing but connections and questions. -/
theorem asked_eq (s : Session) (chain : Text) (contract? : Option Address) :
    ∃ clients calls, s.asked chain contract? = { s with clients, calls } := by
  unfold asked
  split
  · exact ⟨s.clients, s.calls, rfl⟩
  next found _ =>
    obtain ⟨clients, same⟩ := s.connected_eq found
    exact ⟨clients, s.calls, by rw [same]⟩
  next found contract _ =>
    obtain ⟨clients, same⟩ := s.connected_eq found
    exact ⟨clients, _, by rw [same]⟩

namespace SameButOutput

variable {s t : Session}

theorem answer?_eq (same : SameButOutput s t) {chain chain' : Text} (names : Text.upper chain = Text.upper chain')
    (contract? : Option Address) : s.answer? chain contract? = t.answer? chain' contract? := by
  unfold answer? client Settings.chain?
  rw [same.settings, same.network, same.clients, names]

theorem asked (same : SameButOutput s t) {chain chain' : Text} (names : Text.upper chain = Text.upper chain')
    (contract? : Option Address) : SameButOutput (s.asked chain contract?) (t.asked chain' contract?) := by
  have chains : s.settings.chain? chain = t.settings.chain? chain' := by
    unfold Settings.chain?
    rw [same.settings, names]
  have client (found : Chain) : s.client found = t.client found := by
    unfold Session.client
    rw [same.settings, same.clients]
  have connected (found : Chain) : SameButOutput (s.connected found) (t.connected found) := by
    unfold Session.connected
    rw [same.clients]
    split
    · exact same
    · have timeout : s.settings.nodeTimeout = t.settings.nodeTimeout := congrArg Settings.nodeTimeout same.settings
      rw [timeout]
      exact { same with clients := rfl }
  unfold Session.asked
  rw [chains]
  split
  · exact same
  · exact connected _
  · exact { connected _ with calls := by rw [same.calls, client] }

end SameButOutput

theorem Logged.asked {s t : Session} (logged : Logged s t) {chain chain' : Text}
    (names : Text.upper chain = Text.upper chain') (contract? : Option Address) :
    Logged (s.asked chain contract?) (t.asked chain' contract?) := by
  refine ⟨logged.toSameButOutput.asked names contract?, ?_⟩
  obtain ⟨clients, calls, before⟩ := s.asked_eq chain contract?
  obtain ⟨clients', calls', after⟩ := t.asked_eq chain' contract?
  rw [before, after]
  exact logged.console

end Session

namespace Tool

open Session

theorem perform_clientFor (chain : Chain) (s : Session) :
    perform (clientFor chain) s = (.ok (s.client chain), s.connected chain) := by
  unfold clientFor Session.client Session.connected
  rw [perform_bind, perform_get]
  dsimp only
  cases OrderedMap.get? s.clients chain.name with
  | some client => rfl
  | none => rfl

theorem logApart_asked {s : Session} (apart : s.LogApart) (chain : Text) (contract? : Option Address) :
    (s.asked chain contract?).LogApart := by
  obtain ⟨clients, calls, same⟩ := s.asked_eq chain contract?
  rw [same]
  exact apart

/-- Fetching comes to what it is told to, and leaves the session as if the code had been asked for. -/
theorem perform_fetchCodeOf (chain : Text) (shown : Json) (contract : Except FetchFault Address) (s : Session)
    (apart : s.LogApart) :
    ∃ s', perform (fetchCodeOf chain shown contract) s =
        ((s.answer? chain contract.toOption).mapError .code, s') ∧
      Logged (s.asked chain contract.toOption) s' := by
  have apart' := logApart_asked apart chain contract.toOption
  unfold fetchCodeOf
  rw [perform_bind, perform_get]
  dsimp only
  unfold answer? asked at *
  cases found? : s.settings.chain? chain with
  | none =>
    exact (onlyLogs_log _ _ _ _).return none s apart
  | some found =>
    dsimp only
    rw [perform_bind_ok (perform_clientFor found s)]
    rw [found?] at apart'
    cases contract with
    | error fault => exact (onlyLogs_log _ _ _ _).return none _ apart'
    | ok contract =>
      obtain ⟨clients, same⟩ := s.connected_eq found
      simp only [Except.toOption, same] at apart' ⊢
      rw [perform_bind_ok (perform_modify _ _)]
      cases s.network.reply (s.client found).uri contract with
      | failure text => exact (onlyLogs_log _ _ _ _).return none _ apart'
      | code code =>
        dsimp only
        rw [perform_map, perform_ofExcept]
        refine ⟨_, ?_, .refl apart'⟩
        cases CodeInput.withinLimit s.settings.maxCodeBytes code with
        | error fault => rfl
        | ok code => rfl

theorem toOption_ofText (address : Text) :
    ((Address.ofText address).mapError fun fault => (⟨"ValueError", fault.message⟩ : FetchFault)).toOption =
      Session.contract? address := by
  unfold Session.contract?
  cases Address.ofText address <;> rfl

/-- Fetching by the text of an address. -/
theorem perform_fetchCode (chain address : Text) (s : Session) (apart : s.LogApart) :
    ∃ s', perform (fetchCode chain address) s =
        ((s.answer? chain (Session.contract? address)).mapError .code, s') ∧
      Logged (s.asked chain (Session.contract? address)) s' := by
  rw [← toOption_ofText]
  exact perform_fetchCodeOf chain _ _ s apart

end Tool

namespace Tool

open Session

/-- Recovering goes through and changes nothing but output. -/
theorem perform_recoverEntries (code : Bytes) (s : Session) (apart : s.LogApart) :
    ∃ s', perform (recoverEntries code) s = (.ok (Abi.recovered code), s') ∧ Logged s s' := by
  unfold recoverEntries
  rw [ofCode_eq, perform_bind_ok (perform_ofExcept _ _ _)]
  obtain ⟨s₁, ran, logged⟩ := onlyLogs_forM
    (fun (entry : Text × Nat) => onlyLogs_log scanLogger .debug "selector_dest_missing"
      [("selector", .str entry.1), ("dest", .int entry.2)]) (Abi.unresolved (Program.scanned code)) s apart
  obtain ⟨s₂, ran', logged'⟩ := (onlyLogs_log scanLogger .debug "disasm_done" _).return (Abi.recovered code) s₁
    logged.logApart
  exact ⟨s₂, (perform_bind_ok ran).trans ran', logged.trans logged'⟩

/-- An action that changes nothing but files. -/
def OnlyFiles {α : Type} (x : Tool α) : Prop := ∀ s, ∃ files, (perform x s).2 = { s with files }

theorem onlyFiles_onFiles {α : Type} (change : FileTree.Change α) : OnlyFiles (onFiles change) :=
  fun s => ⟨_, by rw [perform_onFiles]⟩

theorem onlyFiles_ofExcept {ε α : Type} (failure : ε → Failure) (result : Except ε α) :
    OnlyFiles (ofExcept failure result) :=
  fun s => ⟨s.files, by rw [perform_ofExcept]⟩

theorem OnlyFiles.bind {α β : Type} {x : Tool α} {f : α → Tool β} (first : OnlyFiles x)
    (rest : ∀ a, OnlyFiles (f a)) : OnlyFiles (x >>= f) := by
  intro s
  obtain ⟨files, changed⟩ := first s
  rw [perform_bind]
  revert changed
  generalize perform x s = reached
  obtain ⟨result, s'⟩ := reached
  rintro rfl
  cases result with
  | error e => exact ⟨files, rfl⟩
  | ok a => exact rest a _

theorem onlyFiles_openStore : OnlyFiles openStore := by
  intro s
  rw [perform_openStore]
  exact onlyFiles_onFiles _ s

theorem onlyFiles_writeStore (opened : OpenStore) (key : Text) (value : Store.Value) :
    OnlyFiles (writeStore opened key value) := by
  intro s
  rw [perform_writeStore]
  cases Text.encodeUtf8 key with
  | error fault => exact ⟨s.files, rfl⟩
  | ok bytes => exact onlyFiles_onFiles _ s

theorem onlyFiles_saveEntries (hash : Text) (entries : List Abi.Entry) : OnlyFiles (saveEntries hash entries) :=
  onlyFiles_openStore.bind fun _ => onlyFiles_writeStore _ _ _

theorem onlyFiles_linkContract (chain address hash : Text) : OnlyFiles (linkContract chain address hash) :=
  onlyFiles_openStore.bind fun _ => (onlyFiles_ofExcept _ _).bind fun _ => onlyFiles_writeStore _ _ _

/-- Saves what is recovered from the code of a contract, and links the contract to it. -/
def keepScan (chain address : Text) (code : Bytes) : Tool Unit := do
  saveEntries (codeHash code) (Abi.recovered code)
  linkContract chain address (codeHash code)

theorem onlyFiles_keepScan (chain address : Text) (code : Bytes) : OnlyFiles (keepScan chain address code) :=
  (onlyFiles_saveEntries _ _).bind fun _ => onlyFiles_linkContract _ _ _

theorem matches_keepScan (chain address : Text) (code : Bytes) :
    Matches SameButOutput Eq (keepScan chain address code) (keepScan chain address code) :=
  (matches_saveEntries _ _).bind fun _ _ _ => matches_linkContract rfl _ _

/-- How a scan that saves goes on after the code has been asked for: it fails on code above the limit; it ends
where there is no code; and else it keeps what it has recovered, which may fail, and tells it. -/
inductive ScanFrom (chain address : Text) (s : Session) :
    Except CodeFault (Option Bytes) → Except Failure (Option (List Abi.Entry)) × Session → Prop where
  | fault {fault : CodeFault} {t : Session} (logged : Logged s t) :
      ScanFrom chain address s (.error fault) (.error (.code fault), t)
  | nothing {t : Session} (logged : Logged s t) : ScanFrom chain address s (.ok none) (.ok none, t)
  | failed {code : Bytes} {t u : Session} {failure : Failure} (logged : Logged s t)
      (kept : perform (keepScan chain address code) t = (.error failure, u)) :
      ScanFrom chain address s (.ok (some code)) (.error failure, u)
  | kept {code : Bytes} {t u v : Session} (logged : Logged s t)
      (kept : perform (keepScan chain address code) t = (.ok ⟨⟩, u)) (told : Logged u v) :
      ScanFrom chain address s (.ok (some code)) (.ok (some (Abi.recovered code)), v)

theorem logApart_of_onlyFiles {α : Type} {x : Tool α} (only : OnlyFiles x) {s : Session} (apart : s.LogApart) :
    (perform x s).2.LogApart := by
  obtain ⟨files, changed⟩ := only s
  rw [changed]
  exact apart

/-- Two scans that go on from one session come to the same and leave the same but for output. -/
theorem ScanFrom.unique {chain address : Text} {s : Session} {answer : Except CodeFault (Option Bytes)}
    {left right : Except Failure (Option (List Abi.Entry)) × Session} (one : ScanFrom chain address s answer left)
    (other : ScanFrom chain address s answer right) : left.1 = right.1 ∧ SameButOutput left.2 right.2 := by
  have keeps (code : Bytes) {t t' : Session} (logged : Logged s t) (logged' : Logged s t') :=
    matches_keepScan chain address code t t' (logged.toSameButOutput.symm.trans logged'.toSameButOutput)
  cases one with
  | fault logged =>
    cases other with
    | fault logged' => exact ⟨rfl, logged.toSameButOutput.symm.trans logged'.toSameButOutput⟩
  | nothing logged =>
    cases other with
    | nothing logged' => exact ⟨rfl, logged.toSameButOutput.symm.trans logged'.toSameButOutput⟩
  | @failed code _ _ _ logged kept =>
    cases other with
    | failed logged' kept' =>
      have paired := keeps code logged logged'
      rw [kept, kept'] at paired
      cases paired with
      | failed same => exact ⟨rfl, same⟩
    | kept logged' kept' _ =>
      have paired := keeps code logged logged'
      rw [kept, kept'] at paired
      cases paired
  | @kept code _ _ _ logged kept told =>
    cases other with
    | failed logged' kept' =>
      have paired := keeps code logged logged'
      rw [kept, kept'] at paired
      cases paired
    | kept logged' kept' told' =>
      have paired := keeps code logged logged'
      rw [kept, kept'] at paired
      cases paired with
      | done _ same => exact ⟨rfl, told.toSameButOutput.symm.trans (same.trans told'.toSameButOutput)⟩

/-- A scan prints nothing. -/
theorem ScanFrom.console {chain address : Text} {s : Session} {answer : Except CodeFault (Option Bytes)}
    {result : Except Failure (Option (List Abi.Entry)) × Session} (scan : ScanFrom chain address s answer result) :
    result.2.console = s.console := by
  have keeps (code : Bytes) (t : Session) : (perform (keepScan chain address code) t).2.console = t.console := by
    obtain ⟨files, changed⟩ := onlyFiles_keepScan chain address code t
    rw [changed]
  cases scan with
  | fault logged => exact logged.console
  | nothing logged => exact logged.console
  | @failed code t u _ logged kept =>
    have same := keeps code t
    rw [kept] at same
    exact same.trans logged.console
  | @kept code t u v logged kept told =>
    have same := keeps code t
    rw [kept] at same
    exact told.console.trans (same.trans logged.console)

/-- A scan that saves asks for the code and goes on from there. -/
theorem scanFrom_scanAddress (chain address : Text) (s : Session) (apart : s.LogApart) :
    ScanFrom chain address (s.asked chain (Session.contract? address)) (s.answer? chain (Session.contract? address))
      (perform (scanAddress chain address true) s) := by
  obtain ⟨s₁, fetched, logged⟩ := perform_fetchCode chain address s apart
  unfold scanAddress
  cases answer : s.answer? chain (Session.contract? address) with
  | error fault =>
    rw [answer] at fetched
    rw [perform_bind_error fetched]
    exact .fault logged
  | ok code? =>
    rw [answer] at fetched
    rw [perform_bind_ok fetched]
    cases code? with
    | none => exact .nothing logged
    | some code =>
      obtain ⟨s₂, recovered, logged'⟩ := perform_recoverEntries code s₁ logged.logApart
      dsimp only
      rw [perform_bind_ok recovered, if_pos rfl]
      have apart' := logApart_of_onlyFiles (onlyFiles_keepScan chain address code) logged'.logApart
      rw [← bind_assoc, perform_bind]
      cases kept : perform (keepScan chain address code) s₂ with
      | mk result s₃ =>
        rw [kept] at apart'
        unfold keepScan at kept
        rw [kept]
        cases result with
        | error failure => exact .failed (logged.trans logged') kept
        | ok _ =>
          obtain ⟨s₄, told, logged''⟩ := (onlyLogs_log intakeLogger .info "address_scanned" _).return
            (some (Abi.recovered code)) s₃ apart'
          dsimp only
          rw [told]
          exact .kept (logged.trans logged') kept logged''

end Tool

namespace CommandLine

open Tool

/-- Some failures to read code become results, all others remain. -/
theorem perform_tryReadCode (r : Request) (s : Session) : perform r.tryReadCode s = match perform r.readCode s with
    | (.ok code?, s') => (.ok (.ok code?), s')
    | (.error failure, s') => if isReadFailure failure then (.ok (.error failure), s') else (.error failure, s') := by
  unfold Request.tryReadCode perform
  simp only [bind, ExceptT.bind, ExceptT.mk, StateT.bind, ExceptT.run, StateT.run, tryCatch, tryCatchThe,
    MonadExceptOf.tryCatch, ExceptT.tryCatch]
  cases read : r.readCode s with
  | mk result s' =>
    cases result with
    | ok code? => rfl
    | error failure => cases failure <;> rfl

theorem session_tryReadCode (r : Request) (s : Session) : (perform r.tryReadCode s).2 = (perform r.readCode s).2 := by
  rw [perform_tryReadCode]
  split
  next read => rw [read]
  next read =>
    rw [read]
    split <;> rfl

/-! ## What every action keeps that printing keeps -/

section Keeping

variable {kept : Session → Prop}

theorem keeps_need {α : Type} (what : MissingValue) (value? : Option α) : Keeps kept (need what value?) := keeps_ofExcept _ _

theorem keeps_codeFromFile (file : Text) : Keeps kept (codeFromFile file) :=
  Keeps.get.bind fun _ => (keeps_ofExcept _ _).bind fun _ => keeps_ofExcept _ _

theorem keeps_printJson (prints : ∀ lines, Keeps kept (print lines)) (r : Request) (value : Json) :
    Keeps kept (r.printJson value) := by
  have shown (indent : Option Int) : Keeps kept (do
      let style ← ofExcept .size (Json.Style.ofIndent true indent)
      print [value.render style]) :=
    (keeps_ofExcept _ _).bind fun _ => prints _
  unfold Request.printJson
  cases r.layout with
  | oneLine => exact shown none
  | indented width? => exact ((keeps_need .indent width?).map some).bind shown

/-- Only recovering entries does more than printing. -/
theorem keeps_runOn (prints : ∀ lines, Keeps kept (print lines)) {r : Request} {code : Bytes}
    (recovers : Keeps kept (r.runAbi code)) : Keeps kept (r.runOn code) := by
  unfold Request.runOn
  cases r.command with
  | abi => exact recovers
  | selectors => exact (keeps_ofExcept _ _).bind fun _ => keeps_printJson prints r _
  | listing =>
    exact Keeps.get.bind fun _ => (keeps_ofExcept _ _).bind fun _ => (keeps_ofExcept _ _).bind fun _ => prints _

end Keeping

end CommandLine

end AbiRecovery
