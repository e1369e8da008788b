import AbiRecovery.Proofs.Fetching
import AbiRecovery.Proofs.Logging
import AbiRecovery.Proofs.StoreTable
import Mathlib.Logic.Relation

/-!
# The integrity of the store

Whatever a tool does to its store, and wherever it stops: each link of a contract leads to entries, and all
entries are those of some code with their hash. That the log may be written into the file of the store changes
nothing: it comes behind the rows, or takes the place of a store that is not there yet.
-/
namespace AbiRecovery

open FileTree Session Tool Store

namespace FileTree

/-- Removing leaves the files alone or takes one away. -/
theorem remove_cases {t t' : FileTree} {path : Location} (removed : t.remove path = .ok t') :
    t' = t ∨ ∃ here, t' = t.without here := by
  unfold remove at removed
  cases present : t.isPresent path with
  | error fault => rw [present] at removed; cases removed
  | ok isPresent =>
    rw [present] at removed
    cases isPresent with
    | false => exact .inl (Except.ok.inj removed).symm
    | true =>
      refine .inr ?_
      cases found : t.find? path with
      | error fault => rw [found] at removed; cases removed
      | ok place =>
        rw [found] at removed
        obtain ⟨here, item?⟩ := place
        match item?, removed with
        | none, removed => exact ⟨here, (Except.ok.inj removed).symm⟩
        | some (.file _), removed => exact ⟨here, (Except.ok.inj removed).symm⟩
        | some (.store _), removed => exact ⟨here, (Except.ok.inj removed).symm⟩

end FileTree

namespace Session

/-- The store is at a path, and what stands at its place has a property. -/
structure Guards (P : ItemInvariant) (path : Location) (s : Session) : Prop where
  located : s.storePath = path
  there : ∀ place, storePlace? path = some place → P.holds (s.files.itemAt? place)

namespace Guards

variable {P : ItemInvariant} {path : Location} {s t : Session}

theorem weaken {P' : ItemInvariant} (guards : Guards P path s) (implied : ∀ item?, P.holds item? → P'.holds item?) :
    Guards P' path s :=
  ⟨guards.located, fun place there => implied _ (guards.there place there)⟩

/-- Connections, questions and output do not count. -/
theorem ofEq (guards : Guards P path s) (settings : t.settings = s.settings) (files : t.files = s.files) :
    Guards P path t where
  located := by
    have same := guards.located
    unfold storePath at same ⊢
    rw [settings, same]
  there place there := by
    rw [files]
    exact guards.there place there

theorem withFiles (guards : Guards P path s) {P' : ItemInvariant} {files : FileTree}
    (there : ∀ place, storePlace? path = some place → P'.holds (files.itemAt? place)) :
    Guards P' path { s with files } :=
  ⟨guards.located, there⟩

end Guards

end Session

namespace Tool

variable {P P' : ItemInvariant} {path : Location}

/-- A store that has been opened at a path, whose file has a property if it is in one. -/
structure Opened (P : ItemInvariant) (path : Location) (o : OpenStore) : Prop where
  alike : ∀ place, storePlace? path = some place → OpenAlike path place (.both P) o o
  unfiled : storePlace? path = none → o.file.rows = []

theorem Opened.filed {o : OpenStore} (opened : Opened P path o) {place : Location}
    (there : storePlace? path = some place) : P.holds (some (.store o.file)) :=
  ((opened.alike place there).filed there).2.2

/-- Opening a store keeps what has the property at its place. -/
theorem ensures_openStore :
    Ensures (Guards P path) openStore (fun o s => Guards P path s ∧ Opened P path o) (Guards P path) := by
  intro s guards
  rw [perform_openStore, guards.located, perform_onFiles]
  cases there : storePlace? path with
  | none =>
    have nowhere {place : Location} (at_place : storePlace? path = some place) : False := by
      rw [there] at at_place
      cases at_place
    have unfiled (files : FileTree) : Guards P path { s with files } :=
      guards.withFiles fun _ at_place => (nowhere at_place).elim
    have agree : AgreeAt (fun _ => False) [] .identical s.files s.files := ⟨Agree.refl _, rfl, trivial⟩
    have paired := matches_enterStore (fun _ _ => id) (fun _ at_place => (nowhere at_place).elim) _ _ agree
    revert paired
    generalize perform (enterStore path) s.files = reached
    obtain ⟨result, files⟩ := reached
    intro paired
    cases paired with
    | failed _ => exact unfiled files
    | done alike _ => exact ⟨unfiled files, fun _ at_place => (nowhere at_place).elim, fun _ => (alike.unfiled there).1⟩
  | some place =>
    have here {l : Location} (at_l : storePlace? path = some l) : l = place :=
      (Option.some.inj (there.symm.trans at_l)).symm
    have agree : AgreeAt (fun _ => False) place (.both P) s.files s.files := ⟨Agree.refl _, rfl, guards.there place there⟩
    have paired := matches_enterStore (fun _ _ => id) (fun _ => here) _ _ agree
    have filed {files : FileTree} (agree : AgreeAt (fun _ => False) place (.both P) files files) :
        Guards P path { s with files } :=
      guards.withFiles fun l at_l => here at_l ▸ agree.there.2
    revert paired
    generalize perform (enterStore path) s.files = reached
    obtain ⟨result, files⟩ := reached
    intro paired
    cases paired with
    | failed agree => exact filed agree
    | done alike agree =>
      refine ⟨filed agree, fun l at_l => here at_l ▸ alike, fun nowhere => ?_⟩
      rw [there] at nowhere
      cases nowhere

/-- A write goes from one property to another one if the file that is written does so; one that fails keeps what
there is. -/
theorem ensures_writeStore {o : OpenStore} (opened : Opened P path o) (key : Text) (value : Value)
    (put : P.holds (some (.store o.file)) → P'.holds (some (.store (o.file.put key value)))) :
    Ensures (Guards P path) (writeStore o key value) (fun _ => Guards P' path) (Guards P path) := by
  intro s guards
  rw [perform_writeStore, guards.located]
  cases Text.encodeUtf8 key with
  | error fault => exact guards
  | ok bytes =>
    dsimp only
    rw [perform_onFiles]
    cases there : storePlace? path with
    | none =>
      have unfiled (P'' : ItemInvariant) (files : FileTree) : Guards P'' path { s with files } :=
        guards.withFiles fun _ at_place => by rw [there] at at_place; cases at_place
      cases (perform (FileTree.writeStore path o key value) s.files).1 with
      | error fault => exact unfiled P _
      | ok _ => exact unfiled P' _
    | some place =>
      have here {l : Location} (at_l : storePlace? path = some l) : l = place :=
        (Option.some.inj (there.symm.trans at_l)).symm
      have agree : AgreeAt (fun _ => False) place (.both P) s.files s.files :=
        ⟨Agree.refl _, rfl, guards.there place there⟩
      have put' (files : (ItemRelation.both P).holds (some (.store o.file)) (some (.store o.file))) :
          (ItemRelation.both P').holds (some (.store (o.file.put key value)))
            (some (.store (o.file.put key value))) :=
        ⟨rfl, put files.2⟩
      rcases paired_writeStore (fun _ _ => id) (fun _ => here) (opened.alike place there) put' agree with
        ⟨fault, u, u', left, right, later⟩ | ⟨u, u', left, right, ⟨nowhere, -⟩ | ⟨-, later⟩⟩
      · rw [left] at right ⊢
        cases right
        exact guards.withFiles fun l at_l => here at_l ▸ later.there.2
      · rw [there] at nowhere
        cases nowhere
      · rw [left] at right ⊢
        cases right
        exact guards.withFiles fun l at_l => here at_l ▸ later.there.2

/-- A line of the log comes to the end of what stands in its file. -/
theorem itemAt?_append (t : FileTree) (line : Bytes) (l : Location) :
    (t.append logFile line).itemAt? l = t.itemAt? l ∨
      ∃ item, t.itemAt? l = some item ∧ (t.append logFile line).itemAt? l = some (item.extended line) := by
  unfold FileTree.append FileTree.find?
  cases found : t.resolve logFile with
  | error fault => exact .inl rfl
  | ok here =>
    simp only [Functor.map, Except.map]
    cases there : t.itemAt? here with
    | none => exact .inl rfl
    | some item =>
      cases item with
      | directory => exact .inl rfl
      | file _ | store _ =>
        dsimp only
        rw [itemAt?_place]
        split
        next same => exact .inr ⟨_, same.1 ▸ there, rfl⟩
        next => exact .inl rfl

/-- Logging keeps every property of the store that lasts. -/
theorem keptByLog_guards : KeptByLog (Guards P path) where
  stream _ _ guards := guards.ofEq rfl rfl
  file s line written guards := guards.withFiles fun place at_place => by
    have before := guards.there place at_place
    rcases itemAt?_append s.files line place with same | ⟨item, there, later⟩
    · rwa [same]
    · rw [there] at before
      rw [later]
      exact P.logged before written

/-- Directories are made at the place of the store only where nothing stands. -/
theorem keeps_makeDirectories (directory : Location) : Keeps (Guards P path) (makeDirectories directory) := by
  intro s guards
  have made : Guards P path { s with files := (s.files.makeDirectories directory).1 } :=
    guards.withFiles fun place at_place => by
      have agree : AgreeAt (fun _ => False) place (.both P) s.files s.files :=
        ⟨Agree.refl _, rfl, guards.there place at_place⟩
      exact (agree.makeDirectories directory).1.there.2
  unfold makeDirectories
  rw [perform_bind_ok (perform_get s)]
  revert made
  generalize s.files.makeDirectories directory = reached
  obtain ⟨files, fault?⟩ := reached
  intro made
  cases fault? <;> exact made

/-- So is an empty file. -/
theorem guards_touch {s : Session} (guards : Guards P path s) {target : Location} {files : FileTree}
    (touched : s.files.touch target = .ok files) : Guards P path { s with files } := by
  unfold FileTree.touch FileTree.find? at touched
  cases found : s.files.resolve target with
  | error fault => rw [found] at touched; cases touched
  | ok here =>
    rw [found] at touched
    simp only [Functor.map, Except.map] at touched
    cases there : s.files.itemAt? here with
    | none =>
      rw [there] at touched
      obtain rfl := Except.ok.inj touched
      refine guards.withFiles fun place at_place => ?_
      rw [itemAt?_place]
      split
      next same =>
        have before := guards.there place at_place
        rw [← same.1, there] at before
        exact P.emptyFile before
      next => exact guards.there place at_place
    | some item =>
      rw [there] at touched
      cases item with
      | directory => cases touched
      | file _ | store _ =>
        obtain rfl := Except.ok.inj touched
        exact guards

theorem keeps_setUpLogger (name : Text) : Keeps (Guards P path) (setUpLogger name) := by
  have books (book : Session → Log.Book) :
      Keeps (Guards P path) (modify fun s : Session => { s with book := book s } : Tool PUnit) :=
    fun _ guards => guards.ofEq rfl rfl
  have touches {rest : Tool PUnit} (keeps : Keeps (Guards P path) rest) : Keeps (Guards P path) (do
      let files ← ofExcept .file ((← get).files.touch logFile)
      modify fun s : Session => { s with files }
      rest) := by
    intro s guards
    rw [perform_bind_ok (perform_get s), perform_bind, perform_ofExcept]
    cases touched : s.files.touch logFile with
    | error fault => exact guards
    | ok files => exact Keeps.bind_ends (guards_touch guards touched) fun _ => keeps
  unfold setUpLogger
  refine Keeps.get.bind fun s => ?_
  dsimp only
  split
  · exact Keeps.pure _
  · refine (books fun t => (t.book.make (Log.Book.key name)).setLevel (Log.Book.key name)
      (Log.Level.ofSetting s.settings.logLevel)).bind fun _ => ?_
    have set_up := books fun t => t.book.setUp (Log.Book.key name) t.settings.logToFile
      (Log.Level.ofSetting s.settings.logLevel)
    split
    · exact (keeps_makeDirectories _).bind fun _ => touches set_up
    · exact set_up

/-- Setting the loggers up keeps what lasts, also if the file of the log is made at the place of the store. -/
theorem keeps_setUpLog : Keeps (Guards P path) setUpLog := Keeps.forM keeps_setUpLogger

theorem keeps_print (lines : List Text) : Keeps (Guards P path) (print lines) :=
  fun _ guards => guards.ofEq rfl rfl

theorem keeps_clientFor (chain : Chain) : Keeps (Guards P path) (clientFor chain) := by
  intro s guards
  obtain ⟨clients, same⟩ := s.connected_eq chain
  rw [perform_clientFor, same]
  exact guards.ofEq rfl rfl

theorem keeps_fetchCodeOf (chain : Text) (shown : Json) (contract : Except FetchFault Address) :
    Keeps (Guards P path) (fetchCodeOf chain shown contract) := by
  have failed (fault : FetchFault) : Keeps (Guards P path) (do
      log intakeLogger .warning "code_fetch_failed" [("chain", .str chain), ("address", shown), ("error", .str fault.text)]
      return (none : Option Bytes)) :=
    (keptByLog_guards.keeps_log _ _ _ _).bind fun _ => Keeps.pure _
  refine Keeps.get.bind fun s => ?_
  split
  · exact (keptByLog_guards.keeps_log _ _ _ _).bind fun _ => Keeps.pure _
  · refine (keeps_clientFor _).bind fun client => ?_
    cases contract with
    | error fault => exact failed fault
    | ok contract =>
      have asked : Keeps (Guards P path) (modify fun s : Session => { s with calls := s.calls ++ [⟨client, contract⟩] } : Tool PUnit) :=
        fun _ guards => guards.ofEq rfl rfl
      refine asked.bind fun _ => ?_
      split
      · exact failed _
      · exact (keeps_ofExcept _ _).map some

/-- Recovering gives the entries of the code. -/
theorem ensures_recoverEntries (code : Bytes) :
    Ensures (Guards P path) (recoverEntries code) (fun entries s => entries = Abi.recovered code ∧ Guards P path s)
      (Guards P path) :=
  (keptByLog_guards.ensures_recoverEntries code).weaken (fun _ => id) (fun _ _ => id) fun _ => False.elim

end Tool

namespace Store

/-- That the store, if there is one, holds only sound tables. -/
abbrev sound : ItemInvariant := .holdsOnly Table.Sound Table.sound_nil

/-- That there is a store with a sound table in which there are entries for a hash. -/
abbrev soundWith (hash : Text) : ItemInvariant := .isStore fun t => t.Sound ∧ t.isSaved hash

theorem sound_of_soundWith {hash : Text} (item? : Option FileItem) (holds : (soundWith hash).holds item?) :
    sound.holds item? :=
  ItemInvariant.holdsOnly_of_isStore (fun _ => And.left) holds

end Store

namespace Tool

variable {path : Location}

/-- After the first write of a save there are entries for the hash of the code. -/
theorem ensures_saveEntries (code : Bytes) :
    Ensures (Guards sound path) (saveEntries (codeHash code) (Abi.recovered code))
      (fun _ => Guards (soundWith (codeHash code)) path) (Guards sound path) := by
  refine ensures_openStore.bind fun o s ⟨guards, opened⟩ => ?_
  refine ensures_writeStore opened _ _ (fun holds => ?_) s guards
  refine ⟨_, rfl, Table.Sound.save ((FileItem.holdsOnly_store _).mp (holds _ rfl)) (Abi.ofCode_eq code), ?_⟩
  show (o.file.rows.put _ _).isSaved _ = true
  rw [Table.isSaved_put_codeKey]
  simp

/-- With the second write the link leads to those entries. Where it fails, they stay. -/
theorem ensures_linkContract (chain address hash : Text) :
    Ensures (Guards (soundWith hash) path) (linkContract chain address hash)
      (fun _ => Guards (soundWith hash) path) (Guards (soundWith hash) path) := by
  refine ensures_openStore.bind fun o s ⟨guards, opened⟩ => ?_
  rw [perform_bind, perform_ofExcept]
  cases Address.ofText address with
  | error fault => exact guards
  | ok contract =>
    refine ensures_writeStore opened _ _ (fun holds => ?_) s guards
    obtain ⟨f, file, sound, saved⟩ := holds
    cases file
    exact ⟨_, rfl, sound.link chain contract saved, by
      show (o.file.rows.put _ _).isSaved _ = true
      rw [Table.isSaved_put_contractKey, saved]⟩

/-- What can happen with a sound store after the code of a contract is at hand. -/
theorem keeps_linkSaved {chain address hash : Text} {α : Type} {x : Tool α} (rest : Keeps (Guards sound path) x) :
    Ensures (Guards (soundWith hash) path) (linkContract chain address hash >>= fun _ => x)
      (fun _ => Guards sound path) (Guards sound path) := by
  have weaken (s : Session) (guards : Guards (soundWith hash) path s) : Guards sound path s :=
    guards.weaken sound_of_soundWith
  refine Ensures.bind ((ensures_linkContract chain address hash).weaken (fun _ => id) (fun _ => weaken) weaken) ?_
  exact fun _ s guards => (rest.ensures s guards)

theorem keeps_scanAddress (chain address : Text) (save : Bool) :
    Keeps (Guards sound path) (scanAddress chain address save) := by
  refine (keeps_fetchCodeOf chain _ _).bind fun code? => ?_
  cases code? with
  | none => exact Keeps.pure none
  | some code =>
    have note (entries : List Abi.Entry) (extras : List (Text × Json)) :
        Keeps (Guards sound path) (do log intakeLogger .info "address_scanned" extras; return some entries) :=
      (keptByLog_guards.keeps_log _ _ _ _).bind fun _ => Keeps.pure _
    refine Keeps.of_ensures ((ensures_recoverEntries code).bind fun entries s ⟨same, guards⟩ => ?_)
    subst same
    cases save with
    | false => exact (note _ _).ensures s guards
    | true => exact ((ensures_saveEntries code).bind fun _ => keeps_linkSaved (note _ _)) s guards

theorem keeps_saveScan (input : CodeInput) : Keeps (Guards sound path) (saveScan input) := by
  refine (keeps_ofExcept _ _).bind fun code => ?_
  refine Keeps.of_ensures ((ensures_recoverEntries code).bind fun entries s ⟨same, guards⟩ => ?_)
  subst same
  exact (ensures_saveEntries code).weaken (fun _ => id) (fun _ _ holds => holds.weaken sound_of_soundWith) (fun _ => id)
    s guards

/-- Removing what stands at a path leaves a sound store or none. -/
theorem keeps_resetStore (confirmed : Bool) : Keeps (Guards sound path) (resetStore confirmed) := by
  unfold resetStore
  cases confirmed with
  | false => exact fun _ guards => guards
  | true =>
    intro s guards
    rw [if_neg (by decide), perform_bind_ok (show perform storePath s = (.ok s.storePath, s) from rfl), perform_bind,
      perform_get]
    dsimp only
    rw [perform_bind, perform_ofExcept]
    have kept (here : Location) (book : Log.Book) : Guards sound path { s with files := s.files.without here, book } := by
      refine (guards.withFiles fun place at_place => ?_).ofEq rfl rfl
      rw [itemAt?_without]
      split
      · exact fun _ gone => by cases gone
      · exact guards.there place at_place
    cases removed : s.files.remove s.storePath with
    | error fault => exact guards
    | ok files =>
      rcases remove_cases removed with rfl | ⟨here, rfl⟩
      · exact guards.ofEq rfl rfl
      · exact kept here _

theorem keeps_printError (line : Text) : Keeps (Guards sound path) (printError line) :=
  fun _ guards => guards.ofEq rfl rfl

end Tool

namespace CommandLine

variable {path : Location}

theorem keeps_log (level : Log.Level) (message : Text) (extras : List (Text × Json)) :
    Keeps (Guards sound path) (log runLogger level message extras) :=
  keptByLog_guards.keeps_log _ _ _ _

theorem keeps_readCode (r : Request) : Keeps (Guards sound path) r.readCode := by
  unfold Request.readCode
  cases r.source with
  | code text? => exact Keeps.get.bind fun s => (keeps_ofExcept _ _).map some
  | file path? => exact ((keeps_need .path path?).bind fun file => keeps_codeFromFile file).map some
  | address address? =>
    refine ((keeps_need .chain r.chain?).map Text.upper).bind fun chain => ?_
    cases address? with
    | some address => exact keeps_fetchCodeOf _ _ _
    | none => exact keeps_fetchCodeOf _ _ _

theorem keeps_tryReadCode (r : Request) : Keeps (Guards sound path) r.tryReadCode := by
  intro s guards
  rw [session_tryReadCode]
  exact keeps_readCode r s guards

/-- Saving by the command line keeps the store sound, with or without a contract to link. -/
theorem keeps_runAbi (r : Request) (code : Bytes) : Keeps (Guards sound path) (r.runAbi code) := by
  refine Keeps.of_ensures ((ensures_recoverEntries code).bind fun entries s ⟨same, guards⟩ => ?_)
  subst same
  have rest : Keeps (Guards sound path) (do
      log runLogger .info "abi_saved"
        [("code_hash", .str (codeHash code)), ("entries", .int (Abi.recovered code).length)]
      r.printJson (Abi.entriesJson (Abi.recovered code))) :=
    (keeps_log _ _ _).bind fun _ => keeps_printJson keeps_print r _
  cases r.save with
  | false => exact (keeps_printJson keeps_print r _).ensures s guards
  | true =>
    refine ((ensures_saveEntries code).bind fun _ => ?_) s guards
    cases r.contract? with
    | some contract => exact keeps_linkSaved rest
    | none => exact fun t saved => rest.ensures t (saved.weaken sound_of_soundWith)

/-- A command line keeps the store sound, whatever it says. -/
theorem keeps_run (args : List Text) : Keeps (Guards sound path) (run args) := by
  unfold run
  cases Request.ofArguments args with
  | error refusal => cases refusal <;> exact Keeps.pure _
  | ok r =>
    refine Keeps.map _ (Keeps.get.bind fun s => (keeps_log _ _ _).bind fun _ => (keeps_tryReadCode r).bind fun read => ?_)
    cases read with
    | error failure => exact (keeps_log _ _ _).bind fun _ => Keeps.pure _
    | ok code? =>
      cases code? with
      | none => exact (keeps_log _ _ _).bind fun _ => Keeps.pure _
      | some code => exact (keeps_runOn keeps_print (keeps_runAbi r code)).bind fun _ => (keeps_log _ _ _).bind fun _ => Keeps.pure _

theorem keeps_scanPairs (save : Bool) (scanned : Nat) (pairs : List (Text × Text)) :
    Keeps (Guards sound path) (scanPairs save scanned pairs) := by
  induction pairs generalizing scanned with
  | nil => exact Keeps.pure _
  | cons pair rest ih =>
    obtain ⟨chain, address⟩ := pair
    exact (keeps_scanAddress chain address save).bind fun _ => (keeps_print _).bind fun _ => ih _

/-- A batch keeps the store sound, also where it is cut short. -/
theorem keeps_runBatch (args : List Text) : Keeps (Guards sound path) (runBatch args) := by
  unfold runBatch
  cases BatchRequest.ofArguments args with
  | error refusal => cases refusal <;> exact Keeps.pure _
  | ok r =>
    have ended (lines : List Text) (result : Nat) : Keeps (Guards sound path) (do print lines; return result) :=
      (keeps_print _).bind fun _ => Keeps.pure _
    refine Keeps.map _ ((keeps_need .path r.file?).bind fun file => (keeps_loadAddresses keeps_printError file).bind fun listed =>
      (keeps_need .limit r.limit?).bind fun limit => ?_)
    dsimp only
    split
    · exact ended _ _
    · refine Keeps.get.bind fun s => ?_
      split
      · exact ended _ _
      · exact (keeps_scanPairs _ _ _).bind fun _ => ended _ _

end CommandLine

end AbiRecovery
