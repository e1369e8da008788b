import AbiRecovery.Proofs.RequestResult

/-!
# How a request ends

A request ends as its reading does: with two if it fails, with one if there is no code, and else it goes on to keep its
result, if that is asked for, and to print it, which is the last thing before it ends with zero. So whatever keeps it from
its end keeps it from printing, and a request that ends with one or two has written nothing (`request_outcome`).
-/
namespace AbiRecovery

open FileTree Session Tool Store

namespace CommandLine

variable {r : Request} {s t : Session} {code : Bytes} {filed : Bool} {rows : Table}

/-- The session once a request has begun, which is logged. -/
def Request.begun (r : Request) (s : Session) : Session :=
  (perform (log runLogger .info "abiscan_cli_start" [("env", .str s.settings.appEnv), ("cmd", .str r.command.name)]) s).2

/-- The rest of a request, once its code has been read or not. -/
def Request.report (r : Request) : Except Failure (Option Bytes) → Tool Nat
  | .error failure => do
    log runLogger .error "code_load_failed" [("error", .str failure.message)]
    return 2
  | .ok none => do
    let address := match r.source with
      | .address address? => shown address?
      | _ => .null
    log runLogger .error "no_code" [("chain", shown r.chain?), ("address", address)]
    return 1
  | .ok (some code) => do
    r.runOn code
    log runLogger .info "abiscan_cli_done" [("cmd", .str r.command.name), ("code_bytes", .int code.length)]
    return 0

theorem unprinted_begun (r : Request) (apart : s.LogApart) : Unprinted s (r.begun s) := by
  obtain ⟨t, ran, logged⟩ := onlyLogs_log runLogger .info "abiscan_cli_start"
    [("env", .str s.settings.appEnv), ("cmd", .str r.command.name)] s apart
  unfold Request.begun
  rw [ran]
  exact .of_logged logged

theorem perform_run (r : Request) (apart : s.LogApart) :
    perform r.run s = perform (do r.report (← r.tryReadCode)) (r.begun s) := by
  obtain ⟨t, ran, -⟩ := onlyLogs_log runLogger .info "abiscan_cli_start"
    [("env", .str s.settings.appEnv), ("cmd", .str r.command.name)] s apart
  unfold Request.run Request.begun
  rw [perform_bind_ok (perform_get s), perform_bind_ok ran, ran]
  refine congrArg (perform · t) (congrArg (r.tryReadCode >>= ·) (funext fun read => ?_))
  match read with
  | .error failure => rfl
  | .ok none => rfl
  | .ok (some code) => rfl

/-- A failure to read ends a request with two. -/
theorem run_of_fails (fails : r.FailsToRead (r.begun s)) (apart : s.LogApart) :
    ∃ t, perform r.run s = (.ok 2, t) ∧ Unprinted s t := by
  have begun := unprinted_begun r apart
  obtain ⟨failure, t, reported, read, unprinted⟩ := perform_readCode_of_fails fails begun.logApart
  obtain ⟨u, ended, logged⟩ := (onlyLogs_log runLogger .error "code_load_failed"
    [("error", .str failure.message)]).return 2 t unprinted.logApart
  refine ⟨u, ?_, (begun.trans unprinted).trans (.of_logged logged)⟩
  have tried := perform_tryReadCode r (r.begun s)
  rw [read] at tried
  dsimp only at tried
  rw [if_pos reported] at tried
  rw [perform_run r apart, perform_bind_ok tried]
  exact ended

/-- Where there is no code at an address, a request ends with one. -/
theorem run_of_no_code (nothing : r.FindsNoCode (r.begun s)) (apart : s.LogApart) :
    ∃ t, perform r.run s = (.ok 1, t) ∧ Unprinted s t := by
  have begun := unprinted_begun r apart
  obtain ⟨t, read, unprinted⟩ := perform_readCode_of_no_code nothing begun.logApart
  obtain ⟨u, ended, logged⟩ := (onlyLogs_log runLogger .error "no_code" _).return 1 t unprinted.logApart
  refine ⟨u, ?_, (begun.trans unprinted).trans (.of_logged logged)⟩
  have tried := perform_tryReadCode r (r.begun s)
  rw [read] at tried
  rw [perform_run r apart, perform_bind_ok tried]
  exact ended

/-- Without a path or a chain that is needed a request fails. -/
theorem run_of_lacks (lacks : r.LacksValue) (apart : s.LogApart) :
    ∃ what t, perform r.run s = (.error (.missingValue what), t) ∧ Unprinted s t := by
  obtain ⟨what, read⟩ := perform_readCode_of_lacks lacks (r.begun s)
  have tried := perform_tryReadCode r (r.begun s)
  rw [read] at tried
  exact ⟨what, _, by rw [perform_run r apart, perform_bind_error tried], unprinted_begun r apart⟩

/-- A request goes on with code within the limit, and ends with zero if it can. -/
theorem run_of_code (delivers : r.Delivers (r.begun s) code) (within : ¬(r.begun s).IsBeyond code) (apart : s.LogApart) :
    ∃ t result u, Unprinted s t ∧ r.GoesOn code t (result, u) ∧ match result with
      | .ok _ => ∃ v, perform r.run s = (.ok 0, v) ∧ Unprinted u v
      | .error failure => perform r.run s = (.error failure, u) := by
  have begun := unprinted_begun r apart
  obtain ⟨t, read, unprinted⟩ := perform_readCode_of_within delivers within begun.logApart
  have tried := perform_tryReadCode r (r.begun s)
  rw [read] at tried
  have goes := goesOn_runOn r code unprinted.logApart
  rw [perform_run r apart, perform_bind_ok tried]
  cases ran : perform (r.runOn code) t with
  | mk result u =>
    rw [ran] at goes
    refine ⟨t, result, u, begun.trans unprinted, goes, ?_⟩
    cases goes with
    | printed reached _ =>
      have printed := sameButOutput_print (r.command.resultLines r.layout code) _ reached.logApart
      obtain ⟨v, ended, logged⟩ := (onlyLogs_log runLogger .info "abiscan_cli_done" _).return 0 _ printed.logApart
      exact ⟨v, (perform_bind_ok ran).trans ended, .of_logged logged⟩
    | unprinted _ _ => exact perform_bind_error ran
    | unkept _ _ _ => exact perform_bind_error ran

/-! ## What is left of a request with code -/

theorem Unprinted.ready (unprinted : Unprinted s t) (ready : Ready filed rows s) : Ready filed rows t := by
  obtain ⟨clients, calls, same⟩ := unprinted.quiet
  have asked : Ready filed rows { s with clients, calls } := ⟨ready.apart, ready.usable⟩
  exact asked.of_sameButOutput same

theorem canPrint_iff (settings : t.settings = s.settings) : r.CanPrint t ↔ r.CanPrint s := by
  unfold Request.CanPrint
  rw [settings]

/-- Only contracts whose chain has a name with bytes have been linked. -/
theorem linkHasBytes_of_kept (apart : s.LogApart) {done : Unit} (kept : perform (r.keepResult code) s = (.ok done, t)) :
    r.LinkHasBytes := by
  intro chain address linked
  unfold Request.keepResult at kept
  rw [linked] at kept
  have kept : perform (keepScan chain address code) s = (.ok done, t) := kept
  obtain ⟨⟨contract, -, bytes⟩, -⟩ := ready_of_kept apart kept
  exact hasBytes_contractKey.mp bytes

/-- Where the store can be used, what is kept is kept. -/
theorem Request.Reaches.ready (reached : r.Reaches code s t) (saves : r.Saves) (ready : Ready filed rows s)
    (known : ∀ chain address, r.contract? = some (chain, address) → ∃ contract, Session.contract? address = some contract) :
    r.LinkHasBytes ∧ Ready filed (writtenRows filed rows (r.resultRows code)) t := by
  cases reached with
  | unsaved only _ => exact absurd saves only
  | saved _ before kept after =>
    have named := linkHasBytes_of_kept before.logApart kept
    obtain ⟨files, keeps, later⟩ := perform_keepResult (Unprinted.ready before ready) named known code
    cases keeps.symm.trans kept
    exact ⟨named, Unprinted.ready after later⟩

/-- What a request with code within the limit comes to. -/
theorem outcome_of_code (delivers : r.Delivers (r.begun s) code) (within : ¬(r.begun s).IsBeyond code) (apart : s.LogApart) :
    ∃ result t, perform r.run s = (result, t) ∧ (result = .ok 0 ∨ ∃ failure, result = .error failure) ∧
      (result ≠ .ok 0 → t.console = s.console) ∧ (¬r.Saves → s.StoreUntouched t) ∧
      (r.CanPrint s → (r.Saves → s.StoreReopens ∧ r.LinkHasBytes) → result = .ok 0) ∧
      (result = .ok 0 →
        t.console = { s.console with out := s.console.out ++ r.command.resultLines r.layout code } ∧
        (r.Saves → s.StoreReopens → s.StoreFiled → r.KeepsOnly code s t)) := by
  obtain ⟨t, result, u, before, goes, ended⟩ := run_of_code delivers within apart
  have known (chain address : Text) (linked : r.contract? = some (chain, address)) := delivers.contract linked
  cases goes with
  | @printed u reached can =>
    obtain ⟨v, ran, after⟩ := ended
    have printed := sameButOutput_print (r.command.resultLines r.layout code) u reached.logApart
    refine ⟨_, v, ran, .inl rfl, fun other => absurd rfl other, fun only => ?_, fun _ _ => rfl, fun _ => ⟨?_, ?_⟩⟩
    · cases reached with
      | unsaved _ unprinted =>
        exact (((before.trans unprinted).quiet.trans (.of_sameButOutput printed)).trans after.quiet).untouched
      | saved saves _ _ _ => exact absurd saves only
    · have console : u.console = s.console := reached.console.trans before.console
      rw [after.console]
      simp only [Session.printing, console]
    · intro saves reopens filed
      obtain ⟨rows, ready⟩ := reopens.ready_of_filed filed apart
      obtain ⟨named, later⟩ := reached.ready saves (Unprinted.ready before ready) known
      exact keepsOnly_of_ready ready (Unprinted.ready after (later.of_sameButOutput printed)) named known
  | unprinted reached cannot =>
    refine ⟨_, u, ended, .inr ⟨_, rfl⟩, fun _ => reached.console.trans before.console, fun only => ?_,
      fun can => absurd ((canPrint_iff before.settings).mpr can) cannot, nofun⟩
    cases reached with
    | unsaved _ unprinted => exact (before.trans unprinted).quiet.untouched
    | saved saves _ _ _ => exact absurd saves only
  | @unkept v _ _ saves noted failed =>
    have console := console_keepResult r code v
    rw [failed] at console
    refine ⟨_, u, ended, .inr ⟨_, rfl⟩, fun _ => console.trans (noted.console.trans before.console),
      fun only => absurd saves only, fun _ usable => ?_, nofun⟩
    obtain ⟨reopens, named⟩ := usable saves
    obtain ⟨filed, rows, ready⟩ := reopens.ready apart
    obtain ⟨files, keeps, -⟩ := perform_keepResult (Unprinted.ready noted (Unprinted.ready before ready)) named known code
    cases keeps.symm.trans failed

/-- How a request ends. It ends with two just if reading its source fails, with one just if there is no code at its
address, and else with zero, provided that no value is missing, that the result can be printed, and, where it is kept, that
the store can be opened, written and opened again and the name of a contract's chain has bytes. Nothing is printed unless
it ends with zero, and nothing is written if it ends with one or two or does not save. If it ends with zero, what is
printed is told by the command, the layout and the code; and where it saves, and the store is in a file, only the entries
of the code are written, and the link of its contract. -/
theorem request_outcome {args : List Text} (accepted : Request.ofArguments args = .ok r) (apart : s.LogApart) :
    ∃ (result : Except Failure Nat) (t : Session), perform (run args) s = (result.map .finished, t) ∧
      (result = .ok 2 ↔ r.FailsToRead (r.begun s)) ∧ (result = .ok 1 ↔ r.FindsNoCode (r.begun s)) ∧
      (¬r.FailsToRead (r.begun s) → ¬r.FindsNoCode (r.begun s) → ¬r.LacksValue → r.CanPrint s →
        (r.Saves → s.StoreReopens ∧ r.LinkHasBytes) → result = .ok 0) ∧
      (∀ n, result = .ok n → n = 0 ∨ n = 1 ∨ n = 2) ∧
      (result ≠ .ok 0 → t.console = s.console) ∧
      ((∃ n, result = .ok n ∧ n ≠ 0) ∨ ¬r.Saves → s.StoreUntouched t) ∧
      (result = .ok 0 → ∃ code, r.Delivers (r.begun s) code) ∧
      ∀ code, r.Delivers (r.begun s) code → result = .ok 0 →
        t.console = { s.console with out := s.console.out ++ r.command.resultLines r.layout code } ∧
        (r.Saves → s.StoreReopens → s.StoreFiled → r.KeepsOnly code s t) := by
  have ran : perform (run args) s = ((perform r.run s).1.map .finished, (perform r.run s).2) := by
    unfold run
    rw [accepted]
    dsimp only
    rw [perform_map]
    cases perform r.run s with
    | mk result t => cases result <;> rfl
  refine ⟨_, _, ran, ?_⟩
  have two (fails : r.FailsToRead (r.begun s)) : (perform r.run s).1 = .ok 2 := by
    obtain ⟨t, ended, -⟩ := run_of_fails fails apart
    rw [ended]
  have one (nothing : r.FindsNoCode (r.begun s)) : (perform r.run s).1 = .ok 1 := by
    obtain ⟨t, ended, -⟩ := run_of_no_code nothing apart
    rw [ended]
  -- Only where code is read do the result and the store depend on what comes after the reading.
  rcases r.reading_cases (r.begun s) with ⟨code, delivers, within⟩ | fails | nothing | lacks
  · obtain ⟨result, t, ended, ends, unprinted, unsaved, finishes, left⟩ := outcome_of_code delivers within apart
    have ⟨reads, finds, _⟩ := delivers.reads within
    rw [ended]
    refine ⟨iff_of_false ?_ reads, iff_of_false ?_ finds, fun _ _ _ can usable => finishes can usable, fun n same => ?_,
      unprinted, ?_, fun _ => ⟨code, delivers⟩, fun other delivers' finished => ?_⟩
    · rcases ends with rfl | ⟨failure, rfl⟩ <;> nofun
    · rcases ends with rfl | ⟨failure, rfl⟩ <;> nofun
    · rcases ends with rfl | ⟨failure, rfl⟩
      · exact .inl (Except.ok.inj same).symm
      · cases same
    · rintro (⟨n, same, other⟩ | only)
      · rcases ends with rfl | ⟨failure, rfl⟩
        · exact absurd (Except.ok.inj same).symm other
        · cases same
      · exact unsaved only
    · obtain rfl := delivers.unique delivers'
      exact left finished
  · obtain ⟨t, ended, unprinted⟩ := run_of_fails fails apart
    rw [ended] at one ⊢
    dsimp only
    exact ⟨iff_of_true rfl fails, iff_of_false (by simp) fun nothing => (by cases one nothing), fun other => absurd fails other,
      fun n same => .inr (.inr (Except.ok.inj same).symm), fun _ => unprinted.console, fun _ => unprinted.quiet.untouched,
      by simp, by simp⟩
  · obtain ⟨t, ended, unprinted⟩ := run_of_no_code nothing apart
    rw [ended] at two ⊢
    dsimp only
    exact ⟨iff_of_false (by simp) fun fails => (by cases two fails), iff_of_true rfl nothing,
      fun _ other => absurd nothing other, fun n same => .inr (.inl (Except.ok.inj same).symm),
      fun _ => unprinted.console, fun _ => unprinted.quiet.untouched, by simp, by simp⟩
  · obtain ⟨what, t, ended, unprinted⟩ := run_of_lacks lacks apart
    rw [ended] at one two ⊢
    dsimp only
    exact ⟨iff_of_false nofun fun fails => (by cases two fails), iff_of_false nofun fun nothing => (by cases one nothing),
      fun _ _ other => absurd lacks other, nofun, fun _ => unprinted.console, fun _ => unprinted.quiet.untouched,
      nofun, fun _ _ => nofun⟩

open Sample

set_option maxRecDepth 100000 in
/-- A contract whose chain and address are in another letter case is saved and linked, and its entries are printed with an
indent; a file that holds the same code is listed; and a file that is not there cannot be read. -/
theorem request_outcome_of_three :
    let s := withFile (withStore "ETH" "one.sqlite") "code" logging
    (∃ t, perform (run ["abi", "--address", uniform 'A', "--chain", "eth", "--save", "--indent", "2"]) s =
        (.ok (.finished 0), t) ∧
      t.console = ⟨Command.abi.resultLines (.indented (some 2)) logging, []⟩ ∧
      BothKept s t "eth" (uniform 'A') logging (Abi.recovered logging)) ∧
    (∃ t, perform (run ["listing", "--file", "code"]) s = (.ok (.finished 0), t) ∧
      t.console = ⟨Command.listing.resultLines .oneLine logging, []⟩ ∧ s.StoreUntouched t) ∧
    ∃ t, perform (run ["listing", "--file", "none"]) s = (.ok (.finished 2), t) ∧ t.console = ⟨[], []⟩ ∧ s.StoreUntouched t := by
  intro s
  have apart : s.LogApart := logApart_start _ _ _ _
  have reopens : s.StoreReopens := storeReopens_of_isOk (by decide +kernel)
  have filed : s.StoreFiled := by
    unfold StoreFiled
    decide +kernel
  refine ⟨?_, ?_, ?_⟩
  · let r : Request := ⟨.abi, .address (some (uniform 'A')), some "eth", true, .indented (some 2)⟩
    have accepted : Request.ofArguments ["abi", "--address", uniform 'A', "--chain", "eth", "--save", "--indent", "2"] =
        .ok r := by rfl
    have delivers : r.Delivers (r.begun s) logging := .address rfl rfl (by decide +kernel)
    have ⟨reads, finds, lacks⟩ := delivers.reads (by decide +kernel)
    have named : r.LinkHasBytes := fun chain address linked => by
      cases (Request.contract?_eq_some linked).2
      decide
    have linked : r.contract? = some (Text.ofString "eth", uniform 'A') := by decide +kernel
    obtain ⟨result, t, ran, -, -, finishes, -, -, -, -, left⟩ := request_outcome accepted apart
    obtain rfl := finishes reads finds lacks ⟨2, rfl, by decide, by decide⟩ fun _ => ⟨reopens, named⟩
    obtain ⟨console, kept⟩ := left logging delivers rfl
    have kept := kept ⟨rfl, rfl⟩ reopens filed
    unfold Request.KeepsOnly at kept
    rw [linked] at kept
    exact ⟨t, ran, console, kept⟩
  · let r : Request := ⟨.listing, .file (some "code"), some "ETH", false, .oneLine⟩
    have accepted : Request.ofArguments ["listing", "--file", "code"] = .ok r := by rfl
    have held : ((r.begun s).files.read (Location.ofText "code")).toOption = some logging := by decide +kernel
    have denoted : (CodeInput.ofFile logging).code.toOption = some logging := by decide +kernel
    have delivers : r.Delivers (r.begun s) logging := .file rfl (ok_of_toOption held) (ok_of_toOption denoted)
    have ⟨reads, finds, lacks⟩ := delivers.reads (by decide +kernel)
    have unsaved : ¬r.Saves := nofun
    have can : s.settings.historySize ≤ SizeLimit.greatest := by decide
    obtain ⟨result, t, ran, -, -, finishes, -, -, untouched, -, left⟩ := request_outcome accepted apart
    obtain rfl := finishes reads finds lacks can (fun saves => absurd saves unsaved)
    exact ⟨t, ran, (left logging delivers rfl).1, untouched (.inr unsaved)⟩
  · let r : Request := ⟨.listing, .file (some "none"), some "ETH", false, .oneLine⟩
    have accepted : Request.ofArguments ["listing", "--file", "none"] = .ok r := by rfl
    have missing : ((r.begun s).files.read (Location.ofText "none")).toOption = none := by decide +kernel
    have none : ∀ code, ¬r.Delivers (r.begun s) code := by
      rintro code (source | ⟨source, held, _⟩ | source)
      · cases source
      · cases source
        rw [held] at missing
        cases missing
      · cases source
    obtain ⟨result, t, ran, fails, -, -, -, unprinted, untouched, -⟩ := request_outcome accepted apart
    obtain rfl := fails.mpr (.inr ⟨none, .inr ⟨"none", rfl⟩⟩)
    exact ⟨t, ran, unprinted (by simp), untouched (.inl ⟨2, rfl, by decide⟩)⟩

set_option maxRecDepth 100000 in
/-- A request can fail beyond its result: where a value is missing, where an indent or the history is no size, where the
store can only be read, and where the name of the chain of a contract has no bytes, which is when the entries have been
saved. It can end with zero and keep nothing, where the store is in no file. And one that cannot read its code can spoil
the store, if what it logs is written into the same file. -/
theorem request_fails_beyond_its_result :
    let s := withStore "ETH" "one.sqlite"
    let endless : Session := { s with settings := { s.settings with historySize := 0x8000000000000000 } }
    let made := (perform openStore s).2
    let barred : Session := { made with settings := { made.settings with storePath := "file:one.sqlite?mode=ro" } }
    let half := withStore halfName "one.sqlite"
    let forgetful := withStore "ETH" ":memory:"
    let logged := (perform setUpLog (withStore "ETH" "logs/app.log")).2
    let ends (args : List Text) (s : Session) := (perform (run args) s).1.toOption
    let accepts (args : List Text) := (Request.ofArguments args).isOk
    (accepts ["selectors", "--file=--"] ∧ ends ["selectors", "--file=--"] s = none) ∧
    (accepts ["selectors", "--address", uniform 'a', "--chain=--"] ∧
      ends ["selectors", "--address", uniform 'a', "--chain=--"] s = none) ∧
    (accepts ["selectors", "--code", "00", "--indent", "9223372036854775808"] ∧
      ends ["selectors", "--code", "00", "--indent", "9223372036854775808"] s = none) ∧
    (accepts ["listing", "--code", "00"] ∧ ends ["listing", "--code", "00"] endless = none) ∧
    (accepts ["abi", "--code", "00", "--save"] ∧ (perform openStore barred).1.isOk ∧
      ends ["abi", "--code", "00", "--save"] barred = none) ∧
    (accepts ["abi", "--address", uniform 'a', "--chain", halfName, "--save"] ∧ (perform openStore half).1.isOk ∧
      ends ["abi", "--address", uniform 'a', "--chain", halfName, "--save"] half = none ∧
      (perform (run ["abi", "--address", uniform 'a', "--chain", halfName, "--save"]) half).2.storeRows?.map
        (List.map Prod.snd) = some [.entries (Abi.recovered logging)]) ∧
    (ends ["abi", "--code", "00", "--save"] forgetful = some (.finished 0) ∧
      (perform (savedEntries (codeHash [0])) (perform (run ["abi", "--code", "00", "--save"]) forgetful).2).1.toOption =
        some none) ∧
    logged.storeRows? = some [] ∧ ends ["abi", "--code", "x"] logged = some (.finished 2) ∧
      (perform (run ["abi", "--code", "x"]) logged).2.storeRows? = none := by
  intro s endless made barred half forgetful logged ends accepts
  refine ⟨?_, ?_, ?_, ?_, ?_, ?_, ?_, ?_⟩
  all_goals decide +kernel

end CommandLine

end AbiRecovery
