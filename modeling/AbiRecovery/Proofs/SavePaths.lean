import AbiRecovery.Proofs.Arguments
import AbiRecovery.Proofs.Fetching
import AbiRecovery.Proofs.Samples

/-!
# Two ways to save a scan

The command line that asks for a contract to be scanned and saved, and the scan itself, do the same: they make the
same connections, ask the same questions and leave the same files, but for the log. The command line turns what the
scan comes to into a result and what is printed. They part where the log is written into the store, as the command line
logs first, and where the name of the chain is taken for no value.
-/
namespace AbiRecovery

open Session Tool

namespace Tool

/-- An action none of whose failures is one of code. -/
def FailsBeyondCode {α : Type} (x : Tool α) : Prop :=
  ∀ s failure, (perform x s).1 = .error failure → ∀ fault, failure ≠ .code fault

theorem FailsBeyondCode.bind {α β : Type} {x : Tool α} {f : α → Tool β} (first : FailsBeyondCode x)
    (rest : ∀ a, FailsBeyondCode (f a)) : FailsBeyondCode (x >>= f) := by
  intro s failure failed
  rw [perform_bind] at failed
  cases step : perform x s with
  | mk result s' =>
    rw [step] at failed
    cases result with
    | ok a => exact rest a s' failure failed
    | error e =>
      obtain rfl := Except.error.inj failed
      exact first s e (by rw [step])

theorem failsBeyondCode_onFiles {α : Type} (change : FileTree.Change α) : FailsBeyondCode (onFiles change) := by
  intro s failure failed fault
  rw [perform_onFiles] at failed
  cases result : (perform change s.files).1 with
  | ok a => rw [result] at failed; cases failed
  | error e => rw [result] at failed; cases failed; nofun

theorem failsBeyondCode_openStore : FailsBeyondCode openStore := by
  intro s
  rw [perform_openStore]
  exact failsBeyondCode_onFiles _ s

theorem failsBeyondCode_writeStore (opened : OpenStore) (key : Text) (value : Store.Value) :
    FailsBeyondCode (writeStore opened key value) := by
  intro s
  rw [perform_writeStore]
  cases Text.encodeUtf8 key with
  | error fault =>
    intro failure failed
    obtain rfl := Except.error.inj failed
    nofun
  | ok bytes => exact failsBeyondCode_onFiles _ s

/-- Keeping a scan may fail because of files, keys or addresses, but not because of code. -/
theorem failsBeyondCode_keepScan (chain address : Text) (code : Bytes) :
    FailsBeyondCode (keepScan chain address code) := by
  have addresses (address : Text) : FailsBeyondCode (ofExcept Failure.address (Address.ofText address)) := by
    intro s failure failed fault
    rw [perform_ofExcept] at failed
    cases read : Address.ofText address with
    | ok contract => rw [read] at failed; cases failed
    | error e => rw [read] at failed; cases failed; nofun
  refine FailsBeyondCode.bind (failsBeyondCode_openStore.bind fun _ => failsBeyondCode_writeStore _ _ _) fun _ => ?_
  exact failsBeyondCode_openStore.bind fun _ => (addresses _).bind fun _ => failsBeyondCode_writeStore _ _ _

end Tool

namespace CommandLine

/-- The request to scan the contract at an address of a chain and to save the result. -/
def savingRequest (address chain : Text) : Request := ⟨.abi, .address (some address), some chain, true, .oneLine⟩

/-- How the command line turns what a scan comes to into a result and what is printed: the entries and zero; one if
there is no code; two if the code is above the limit. Other failures are its own. -/
def told (before : Console) : Except Failure (Option (List Abi.Entry)) → Except Failure Nat × Console
  | .ok (some entries) =>
    (.ok 0, { before with out := before.out ++ [(Abi.entriesJson entries).render ⟨true, none⟩] })
  | .ok none => (.ok 1, before)
  | .error (.code _) => (.ok 2, before)
  | .error failure => (.error failure, before)

theorem told_of_failsBeyondCode (before : Console) {failure : Failure} (other : ∀ fault, failure ≠ .code fault) :
    told before (.error failure) = (.error failure, before) := by
  cases failure <;> first | rfl | exact absurd rfl (other _)

/-- What a request comes to, beside a scan. -/
def ToldLike (scan : Except Failure (Option (List Abi.Entry)) × Session) (run : Except Failure Nat × Session) : Prop :=
  (run.1, run.2.console) = told scan.2.console scan.1 ∧ SameButOutput scan.2 run.2

theorem asked_upper (s : Session) (chain : Text) (contract? : Option Address) :
    s.asked (Text.upper chain) contract? = s.asked chain contract? ∧
      s.answer? (Text.upper chain) contract? = s.answer? chain contract? := by
  unfold Session.asked Session.answer? Settings.chain?
  rw [Text.upper_upper]
  exact ⟨rfl, rfl⟩

/-- The request reads the code at its address. -/
theorem perform_readCode (address chain : Text) (s : Session) :
    perform (savingRequest address chain).readCode s = perform (fetchCode (Text.upper chain) address) s := rfl

theorem perform_printJson (address chain : Text) (value : Json) (s : Session) :
    perform ((savingRequest address chain).printJson value) s = perform (print [value.render ⟨true, none⟩]) s := rfl

theorem contract?_savingRequest {address : Text} (named : Session.contract? address ≠ none) (chain : Text) :
    (savingRequest address chain).contract? = some (chain, address) := by
  have nonempty : address ≠ "" := by
    rintro rfl
    exact named (by rfl)
  exact if_neg nonempty

theorem contract?_ne_none {s : Session} {chain : Text} {contract? : Option Address} {code : Bytes}
    (answer : s.answer? chain contract? = .ok (some code)) : contract? ≠ none := by
  rintro rfl
  unfold Session.answer? at answer
  cases found : s.settings.chain? chain <;> rw [found] at answer <;> cases answer

/-- What the request does with code that it has read: it keeps the scan, tells the log and prints the entries. -/
theorem perform_runOn {address : Text} (named : Session.contract? address ≠ none) (chain : Text) (code : Bytes)
    (s : Session) (apart : s.LogApart) :
    ∃ t, Logged s t ∧
      ((∃ failure u, perform (keepScan chain address code) t = (.error failure, u) ∧
          perform ((savingRequest address chain).runOn code) s = (.error failure, u)) ∨
        ∃ u v, perform (keepScan chain address code) t = (.ok ⟨⟩, u) ∧ Logged u v ∧
          perform ((savingRequest address chain).runOn code) s =
            perform (print [(Abi.entriesJson (Abi.recovered code)).render ⟨true, none⟩]) v) := by
  obtain ⟨t, recovered, logged⟩ := perform_recoverEntries code s apart
  have apart' := logApart_of_onlyFiles (onlyFiles_keepScan chain address code) logged.logApart
  refine ⟨t, logged, ?_⟩
  show (∃ failure u, _ ∧ perform ((savingRequest address chain).runAbi code) s = (Except.error failure, u)) ∨
    ∃ u v, _ ∧ _ ∧ perform ((savingRequest address chain).runAbi code) s = _
  unfold Request.runAbi
  rw [perform_bind_ok recovered, contract?_savingRequest named chain]
  simp only [savingRequest, if_true]
  rw [← bind_assoc, perform_bind]
  cases kept : perform (keepScan chain address code) t with
  | mk result u =>
    rw [kept] at apart'
    unfold keepScan at kept
    rw [kept]
    cases result with
    | error failure => exact .inl ⟨failure, u, rfl, rfl⟩
    | ok _ =>
      obtain ⟨v, noted, logged'⟩ := onlyLogs_log runLogger .info "abi_saved" _ u apart'
      exact .inr ⟨u, v, rfl, logged', (perform_bind_ok noted).trans (perform_printJson ..)⟩

/-- The request asks for the code and goes on from there like a scan. -/
theorem toldLike_run (address chain : Text) (s : Session) (apart : s.LogApart) :
    ∃ scan, ScanFrom chain address (s.asked chain (Session.contract? address))
        (s.answer? chain (Session.contract? address)) scan ∧
      ToldLike scan (perform (savingRequest address chain).run s) := by
  unfold Request.run
  rw [perform_bind_ok (perform_get s)]
  obtain ⟨s₁, started, logged₁⟩ := onlyLogs_log runLogger .info "abiscan_cli_start" _ s apart
  rw [perform_bind_ok started]
  obtain ⟨s₂, fetched, logged₂⟩ := perform_fetchCode (Text.upper chain) address s₁ logged₁.logApart
  rw [(asked_upper ..).2, ← logged₁.toSameButOutput.answer?_eq rfl] at fetched
  rw [(asked_upper ..).1] at logged₂
  have origin : Logged (s.asked chain (Session.contract? address)) s₂ := (logged₁.asked rfl _).trans logged₂
  have read := perform_tryReadCode (savingRequest address chain) s₁
  rw [perform_readCode, fetched] at read
  cases answer : s.answer? chain (Session.contract? address) with
  | error fault =>
    rw [answer] at read
    rw [perform_bind_ok read]
    obtain ⟨s₃, ended, logged₃⟩ := (onlyLogs_log runLogger .error "code_load_failed"
      [("error", .str (Failure.code fault).message)]).return 2 s₂ origin.logApart
    exact ⟨_, .fault origin, ended ▸ ⟨congrArg (Prod.mk _) logged₃.console, logged₃.toSameButOutput⟩⟩
  | ok code? =>
    rw [answer] at read
    rw [perform_bind_ok read]
    cases code? with
    | none =>
      obtain ⟨s₃, ended, logged₃⟩ := (onlyLogs_log runLogger .error "no_code"
        [("chain", .str chain), ("address", .str address)]).return 1 s₂ origin.logApart
      exact ⟨_, .nothing origin, ended ▸ ⟨congrArg (Prod.mk _) logged₃.console, logged₃.toSameButOutput⟩⟩
    | some code =>
      dsimp only
      obtain ⟨t, logged₃, ran⟩ := perform_runOn (contract?_ne_none answer) chain code s₂ origin.logApart
      rcases ran with ⟨failure, u, failed, ran⟩ | ⟨u, v, kept, logged₄, ran⟩
      · refine ⟨_, .failed (origin.trans logged₃) failed, ?_⟩
        rw [perform_bind_error ran]
        have other := failsBeyondCode_keepScan chain address code t failure (by rw [failed])
        have apart' := logApart_of_onlyFiles (onlyFiles_keepScan chain address code) logged₃.logApart
        rw [failed] at apart'
        exact ⟨(told_of_failsBeyondCode _ other).symm, .refl apart'⟩
      · refine ⟨_, .kept (origin.trans logged₃) kept logged₄, ?_⟩
        let line : Text := (Abi.entriesJson (Abi.recovered code)).render ⟨true, none⟩
        have printed := sameButOutput_print [line] v logged₄.logApart
        obtain ⟨w, ended, logged₅⟩ := (onlyLogs_log runLogger .info "abiscan_cli_done"
          [("cmd", .str Command.abi.name), ("code_bytes", .int code.length)]).return 0 _ printed.logApart
        rw [perform_bind, ran]
        show ToldLike _ (perform _ (perform (print [line]) v).2)
        refine ended ▸ ⟨congrArg (Prod.mk _) logged₅.console, printed.trans logged₅.toSameButOutput⟩

/-- Saving by the command line and saving by a scan go alike. From one session in which the log is not written into
the store, for every address and chain for which the command line is accepted, and for every command line that is read
as the same request: the files are the same afterwards but for the log, so are the rows that the store holds, in their
order, the connections and the questions asked; and the command line ends and prints as `told` says from what the scan
comes to. -/
theorem command_line_saves_like_scan {address chain : Text} {args : List Text} {r : Request}
    (accepted : Request.ofArguments args = .ok r)
    (asks : args = (["abi", "--address", address, "--chain", chain, "--save"] : List Text) ∨ r = savingRequest address chain)
    {s : Session} (apart : s.LogApart) :
    let (scanned, s₁) := perform (scanAddress chain address true) s
    let (ended, s₂) := perform (run args) s
    (∀ l, l ≠ logFile → s₁.files.itemAt? l = s₂.files.itemAt? l) ∧ s₁.storeRows? = s₂.storeRows? ∧
      s₁.clients = s₂.clients ∧ s₁.calls = s₂.calls ∧
      (ended, s₂.console) = ((told s.console scanned).1.map .finished, (told s.console scanned).2) := by
  obtain rfl : r = savingRequest address chain := asks.elim (fun plain => ofArguments_saving (plain ▸ accepted)) id
  have direct := scanFrom_scanAddress chain address s apart
  obtain ⟨scan, onward, ⟨ended, output⟩⟩ := toldLike_run address chain s apart
  obtain ⟨same, states⟩ := direct.unique onward
  have states := states.trans output
  have console : scan.2.console = s.console := by
    obtain ⟨clients, calls, before⟩ := s.asked_eq chain (Session.contract? address)
    rw [onward.console, before]
  unfold CommandLine.run
  rw [accepted]
  dsimp only
  rw [perform_map, same]
  rw [console] at ended
  revert states ended
  generalize perform (savingRequest address chain).run s = reached
  generalize perform (scanAddress chain address true) s = scanned
  obtain ⟨result, s₂⟩ := reached
  intro ended states
  have files (l : Location) (other : l ≠ logFile) : scanned.2.files.itemAt? l = s₂.files.itemAt? l :=
    states.files.items l fun log => other log.1
  cases result with
  | error failure =>
    refine ⟨files, states.storeRows?_eq, states.clients, states.calls, ?_⟩
    rw [← ended]
    rfl
  | ok number =>
    refine ⟨files, states.storeRows?_eq, states.clients, states.calls, ?_⟩
    rw [← ended]
    rfl

/-- Saving both ways the code of a contract whose address is given in mixed case, on a chain in lower case. -/
theorem command_line_saves_like_scan_of_start :
    let settings := { Settings.ofEnvironment [] with nodes := [("ETH", "node")] }
    let s := Session.start settings .empty ⟨fun _ _ => .code [0x60, 0x00]⟩ 0
    let address : Text := "0xAbcdefabcdefABCDEF0123456789012345678901"
    (∃ r, Request.ofArguments ["abi", "--address", address, "--chain", "eth", "--save"] = .ok r) ∧
      (∃ r, Request.ofArguments ["abi", "--address=" ++ address, "--chain=" ++ "eth", "--save"] = .ok r) ∧ s.LogApart ∧
      (perform (scanAddress "eth" address true) s).2.storeRows? =
        (perform (run ["abi", "--address", address, "--chain", "eth", "--save"]) s).2.storeRows? ∧
      (perform (scanAddress "eth" address true) s).2.storeRows? =
        (perform (run ["abi", "--address=" ++ address, "--chain=" ++ "eth", "--save"]) s).2.storeRows? := by
  intro settings s address
  have accepted : Request.ofArguments ["abi", "--address", address, "--chain", "eth", "--save"] =
      .ok (savingRequest address "eth") := by rfl
  have accepted' : Request.ofArguments ["abi", "--address=" ++ address, "--chain=" ++ "eth", "--save"] =
      .ok (savingRequest address "eth") := @ofArguments_joined address "eth" (by decide) (by decide)
  have apart : s.LogApart := logApart_start _ _ _ _
  have plain := command_line_saves_like_scan accepted (.inl rfl) apart
  have joined := command_line_saves_like_scan accepted' (.inr rfl) apart
  exact ⟨⟨_, accepted⟩, ⟨_, accepted'⟩, apart, plain.2.1, joined.2.1⟩

open Sample

set_option maxRecDepth 100000 in
/-- Where the log is written into the file of the store, the command line fails and a scan saves: the command line logs
that it begins before it opens the store, which is no store then, and the scan logs when it has saved. And two dashes are
no value if they are joined to the option for the chain, although there is a node for a chain of that name. -/
theorem command_line_fails_where_scan_saves :
    let logged := (perform setUpLog (withStore "ETH" "logs/app.log")).2
    let dashes := withStore "--" "one.sqlite"
    let plain : List Text := ["abi", "--address", uniform 'a', "--chain", "ETH", "--save"]
    let joined : List Text := ["abi", "--address", uniform 'a', "--chain=--", "--save"]
    ((Request.ofArguments plain).isOk ∧ (perform openStore logged).1.isOk ∧
      (perform (scanAddress "ETH" (uniform 'a') true) logged).1.toOption = some (some (Abi.recovered logging)) ∧
      rowsInLog? (perform (scanAddress "ETH" (uniform 'a') true) logged).2 = some 2 ∧
      (perform (run plain) logged).1.toOption = none ∧ (perform (run plain) logged).2.storeRows? = none) ∧
    (Request.ofArguments joined).isOk ∧ (perform openStore dashes).1.isOk ∧
      (perform (scanAddress "--" (uniform 'a') true) dashes).1.toOption = some (some (Abi.recovered logging)) ∧
      (perform (scanAddress "--" (uniform 'a') true) dashes).2.storeRows?.map List.length = some 2 ∧
      (perform (run joined) dashes).1.toOption = none ∧ (perform (run joined) dashes).2.storeRows? = some [] := by
  intro logged dashes plain joined
  constructor
  · decide +kernel
  · decide +kernel

end CommandLine

end AbiRecovery
