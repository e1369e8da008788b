import AbiRecovery.Proofs.Samples
import AbiRecovery.Proofs.StoreIntegrity

/-!
# The life of a store

A store that begins empty is used by scans, command lines and batches of one process after another, and is reset now
and then, while nodes, limits and other files change. It is sound all the time, also between the two writes of a save
and after whatever has failed, and even if its file is the one into which the processes log.
-/
namespace AbiRecovery

open FileTree Session Tool Store

namespace Tool

/-- Recovers the entries of code and saves them: the first of the two writes of a save. -/
def saveRecovered (code : Bytes) : Tool (List Abi.Entry) := do
  let entries ← recoverEntries code
  saveEntries (codeHash code) entries
  return entries

/-- A scan that saves, up to its first write. -/
def scanUntilSaved (chain address : Text) : Tool (Option (Bytes × List Abi.Entry)) := do
  match ← fetchCode chain address with
  | none => return none
  | some code =>
    let entries ← saveRecovered code
    return some (code, entries)

/-- What a scan that saves does from its first write on. -/
theorem scanAddress_eq_until (chain address : Text) :
    scanAddress chain address true = (do
      match ← scanUntilSaved chain address with
      | none => return none
      | some (code, entries) =>
        linkContract chain address (codeHash code)
        log intakeLogger .info "address_scanned"
          [("chain", .str (Text.upper chain)), ("address", .str address), ("entries", .int entries.length),
            ("code_bytes", .int code.length)]
        return some entries) := by
  unfold scanAddress scanUntilSaved saveRecovered
  rw [bind_assoc]
  refine bind_congr fun code? => ?_
  cases code? with
  | none => rfl
  | some code => simp only [if_true, bind_assoc, pure_bind]

variable {path : Location}

theorem keeps_saveRecovered (code : Bytes) : Keeps (Guards sound path) (saveRecovered code) := by
  refine Keeps.of_ensures ((ensures_recoverEntries code).bind fun entries s ⟨same, guards⟩ => ?_)
  subst same
  exact ((ensures_saveEntries code).bind fun _ _ saved => saved.weaken sound_of_soundWith) s guards

theorem keeps_scanUntilSaved (chain address : Text) : Keeps (Guards sound path) (scanUntilSaved chain address) := by
  refine (keeps_fetchCodeOf chain _ _).bind fun code? => ?_
  cases code? with
  | none => exact Keeps.pure none
  | some code => exact (keeps_saveRecovered code).bind fun _ => Keeps.pure _

end Tool

namespace CommandLine

/-- A request that saves entries, up to its first write. -/
def Request.runUntilSaved (r : Request) : Tool (Except Failure (Option (Bytes × List Abi.Entry))) := do
  let s ← get
  log runLogger .info "abiscan_cli_start" [("env", .str s.settings.appEnv), ("cmd", .str r.command.name)]
  match ← r.tryReadCode with
  | .error failure => return .error failure
  | .ok none => return .ok none
  | .ok (some code) =>
    let entries ← saveRecovered code
    return .ok (some (code, entries))

/-- What a request that saves entries does from its first write on. -/
theorem run_eq_until {r : Request} (command : r.command = .abi) (save : r.save = true) :
    r.run = (do
      match ← r.runUntilSaved with
      | .error failure =>
        log runLogger .error "code_load_failed" [("error", .str failure.message)]
        return 2
      | .ok none =>
        let address := match r.source with
          | .address address? => shown address?
          | _ => .null
        log runLogger .error "no_code" [("chain", shown r.chain?), ("address", address)]
        return 1
      | .ok (some (code, entries)) =>
        match r.contract? with
        | some (chain, address) => linkContract chain address (codeHash code)
        | none => pure ()
        log runLogger .info "abi_saved" [("code_hash", .str (codeHash code)), ("entries", .int entries.length)]
        r.printJson (Abi.entriesJson entries)
        log runLogger .info "abiscan_cli_done" [("cmd", .str r.command.name), ("code_bytes", .int code.length)]
        return 0) := by
  unfold Request.run Request.runUntilSaved saveRecovered
  rw [bind_assoc]
  refine bind_congr fun s => ?_
  rw [bind_assoc]
  refine bind_congr fun _ => ?_
  rw [bind_assoc]
  refine bind_congr fun read => ?_
  match read with
  | .error failure => rfl
  | .ok none => rfl
  | .ok (some code) =>
    unfold Request.runOn Request.runAbi
    simp only [command, save, if_true, bind_assoc, pure_bind]
    refine bind_congr fun entries => bind_congr fun _ => ?_
    cases r.contract? with
    | none => simp only [bind_assoc]
    | some contract => simp only [bind_assoc]

/-- A batch goes on after some of its pairs with the others. -/
theorem scanPairs_append (save : Bool) (scanned : Nat) (front back : List (Text × Text)) :
    scanPairs save scanned (front ++ back) = (do scanPairs save (← scanPairs save scanned front) back) := by
  induction front generalizing scanned with
  | nil => simp only [List.nil_append, scanPairs, pure_bind]
  | cons pair front ih =>
    obtain ⟨chain, address⟩ := pair
    simp only [List.cons_append, scanPairs, ih, bind_assoc]

variable {path : Location}

theorem keeps_runUntilSaved (r : Request) : Keeps (Guards sound path) r.runUntilSaved := by
  refine Keeps.get.bind fun s => (keeps_log _ _ _).bind fun _ => (keeps_tryReadCode r).bind fun read => ?_
  match read with
  | .error failure => exact Keeps.pure _
  | .ok none => exact Keeps.pure _
  | .ok (some code) => exact (keeps_saveRecovered code).bind fun _ => Keeps.pure _

end CommandLine

namespace Session

/-- Something that is done with a store, or has been begun. -/
inductive StoreUse where
  /-- A process begins. It sets its loggers up, for which it may make the file of the log. -/
  | process
  | scan (chain address : Text) (save : Bool)
  | saveScan (input : CodeInput)
  | commandLine (args : List Text)
  | batch (args : List Text)
  | reset (confirmed : Bool)
  /-- A scan that is between the writes of its save. -/
  | scanBetween (chain address : Text)
  /-- A command line that is between the writes of its save. -/
  | commandLineBetween (request : CommandLine.Request)
  /-- A batch that is, after some pairs, between the writes of the save for the next one. -/
  | batchBetween (done : List (Text × Text)) (chain address : Text)

/-- The session after a store has been used. -/
def StoreUse.after (s : Session) : StoreUse → Session
  | .process => (perform setUpLog s).2
  | .scan chain address save => (perform (scanAddress chain address save) s).2
  | .saveScan input => (perform (Tool.saveScan input) s).2
  | .commandLine args => (perform (CommandLine.run args) s).2
  | .batch args => (perform (CommandLine.runBatch args) s).2
  | .reset confirmed => (perform (resetStore confirmed) s).2
  | .scanBetween chain address => (perform (scanUntilSaved chain address) s).2
  | .commandLineBetween request => (perform request.runUntilSaved s).2
  | .batchBetween done chain address =>
    (perform (CommandLine.scanPairs true 0 done >>= fun _ => scanUntilSaved chain address) s).2

/-- How the life of a store goes on: it is used, or something else happens, which leaves alone its path and what
stands there. -/
inductive StoreStep (s : Session) : Session → Prop where
  | use (u : StoreUse) : StoreStep s (u.after s)
  | meanwhile {t : Session} (path : t.settings.storePath = s.settings.storePath)
      (there : ∀ place, storePlace? s.storePath = some place → t.files.itemAt? place = s.files.itemAt? place) :
      StoreStep s t

theorem reached_foldl_after (uses : List StoreUse) (s : Session) :
    Relation.ReflTransGen StoreStep s (uses.foldl StoreUse.after s) := by
  induction uses generalizing s with
  | nil => exact .refl
  | cons u uses ih => exact .head (.use u) (ih _)

/-- Whatever can be read at the place of the store, now or after the log has been written there, is a table of a kind. -/
def StoreHoldsOnly (s : Session) (kind : Table → Prop) : Prop :=
  ∀ place, storePlace? s.storePath = some place → ∀ item, s.files.itemAt? place = some item → item.HoldsOnly kind

theorem guards_sound {s : Session} (empty : s.StoreHoldsOnly (· = [])) : Guards sound s.storePath s where
  located := rfl
  there place at_place item there later turned path f held := by
    rw [empty place at_place item there later turned path f held]
    exact Table.sound_nil

/-- A step of the life of a store keeps it sound. -/
theorem StoreStep.guards {s t : Session} {path : Location} (step : StoreStep s t) (guards : Guards sound path s) :
    Guards sound path t := by
  cases step with
  | meanwhile stays there =>
    have located : t.storePath = s.storePath := by
      unfold storePath
      rw [stays]
    refine ⟨located.trans guards.located, fun place at_place => ?_⟩
    rw [there place (guards.located ▸ at_place)]
    exact guards.there place at_place
  | use u =>
    cases u with
    | process => exact keeps_setUpLog s guards
    | scan chain address save => exact keeps_scanAddress chain address save s guards
    | saveScan input => exact keeps_saveScan input s guards
    | commandLine args => exact CommandLine.keeps_run args s guards
    | batch args => exact CommandLine.keeps_runBatch args s guards
    | reset confirmed => exact keeps_resetStore confirmed s guards
    | scanBetween chain address => exact keeps_scanUntilSaved chain address s guards
    | commandLineBetween request => exact CommandLine.keeps_runUntilSaved request s guards
    | batchBetween done chain address =>
      exact ((CommandLine.keeps_scanPairs true 0 done).bind fun _ => keeps_scanUntilSaved chain address) s guards

theorem guards_of_reached {s t : Session} {path : Location} (guards : Guards sound path s)
    (reached : Relation.ReflTransGen StoreStep s t) : Guards sound path t := by
  induction reached with
  | refl => exact guards
  | tail _ step ih => exact step.guards ih

/-- Where the store is sound, so are the rows that are found in it. -/
theorem storeRows?_sound {s : Session} {path : Location} (guards : Guards sound path s) {rows : Table}
    (found : s.storeRows? = some rows) : rows.Sound := by
  have opened := ensures_openStore s guards
  unfold storeRows? at found
  revert found opened
  generalize perform openStore s = reached
  obtain ⟨result, s'⟩ := reached
  intro found opened
  cases result with
  | error failure => cases found
  | ok o =>
    obtain rfl := Option.some.inj found
    cases there : storePlace? path with
    | none =>
      rw [opened.2.unfiled there]
      exact Table.sound_nil
    | some place => exact (FileItem.holdsOnly_store _).mp (opened.2.filed there _ rfl)

/-- A store that begins empty is sound all its life, in what can be read at its place and in what is found by opening
it: its contracts are linked to hashes under which there are entries, and its entries are those of code with their
hash. -/
theorem store_sound_while_used {s t : Session} (empty : s.StoreHoldsOnly (· = []))
    (reached : Relation.ReflTransGen StoreStep s t) :
    t.StoreHoldsOnly Table.Sound ∧ ∀ rows, t.storeRows? = some rows → rows.Sound := by
  have guards := guards_of_reached (guards_sound empty) reached
  exact ⟨fun place at_place => guards.there place (guards.located ▸ at_place),
    fun _ found => storeRows?_sound guards found⟩

open Sample

/-- A store in the file into which the log is written. The file is made for the log, a scan of code that is given makes
it a store, and the next scan logs behind its row. -/
theorem store_sound_in_logFile :
    let s := withStore "ETH" "logs/app.log"
    let t := [StoreUse.process, .saveScan (.bytes logging), .scan "eth" (uniform 'A') false].foldl StoreUse.after s
    s.StoreHoldsOnly (· = []) ∧ ¬t.LogApart ∧ Relation.ReflTransGen StoreStep s t ∧
      (∃ file, t.files.itemAt? logFile = some (.store file) ∧ file.rows.length = 1 ∧ file.rows.Sound) ∧
      ∀ rows, t.storeRows? = some rows → rows.Sound := by
  intro s t
  have located : storePlace? s.storePath = some logFile := by decide +kernel
  have absent : s.files.itemAt? logFile = none := by decide +kernel
  have empty : s.StoreHoldsOnly (· = []) := by
    intro place at_place item there
    obtain rfl := Option.some.inj (at_place.symm.trans located)
    cases absent.symm.trans there
  have reached : Relation.ReflTransGen StoreStep s t := reached_foldl_after _ s
  obtain ⟨held, found⟩ := store_sound_while_used empty reached
  have stays : storePlace? t.storePath = some logFile := by
    rw [(guards_of_reached (guards_sound empty) reached).located, located]
  have writes : t.book.WritesFile := ⟨"abiscan.run", ⟨.file, .info⟩, by decide +kernel, rfl⟩
  have kept : rowsInLog? t = some 1 := by decide +kernel
  unfold rowsInLog? at kept
  split at kept
  next file there =>
    have sound := (FileItem.holdsOnly_store file).mp (held logFile stays _ there)
    exact ⟨empty, fun apart => apart logFile stays ⟨rfl, writes⟩, reached, ⟨file, there, Option.some.inj kept, sound⟩, found⟩
  next => cases kept

end Session

end AbiRecovery
