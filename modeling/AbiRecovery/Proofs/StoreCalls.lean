import AbiRecovery.Proofs.SessionStore
import AbiRecovery.Proofs.StoreHistory
import AbiRecovery.Proofs.StoreReset

/-!
# Calls to the store

Whatever is called on a store that begins without a file, in whatever order: it answers as two maps do, one from hashes
to entries and one from contracts to hashes, both of which a confirmed reset empties.
-/
namespace AbiRecovery

open FileTree Tool Store

namespace Session

/-! ## What a call finds and leaves -/

section InUse

variable {path here : Location} {name : Store.Name} {rows : Table} {s : Session}

/-- A session with a store at a path that is served with rows. -/
structure InUse (path here : Location) (name : Store.Name) (rows : Table) (s : Session) : Prop where
  located : s.storePath = path
  serves : Serves path here name rows s.files

/-- The store is opened with its rows. -/
theorem InUse.open (inUse : InUse path here name rows s) (names : Names path here name) :
    ∃ file s', perform openStore s = (.ok ⟨name, some here, file⟩, s') ∧ file.rows = rows ∧ s'.storePath = path ∧
      Made path here name file s'.files := by
  obtain ⟨file, t', entered, kept, made⟩ := inUse.serves.enter names
  rw [← inUse.located] at entered
  exact ⟨file, { s with files := t' }, openStore_of_enterStore entered, kept, inUse.located, made⟩

/-- What only asks finds the rows, and leaves them. -/
theorem InUse.ask (inUse : InUse path here name rows s) (names : Names path here name) :
    ∃ o s', perform openStore s = (.ok o, s') ∧ o.file.rows = rows ∧ InUse path here name rows s' := by
  obtain ⟨file, s', opened, rfl, located, made⟩ := inUse.open names
  exact ⟨_, s', opened, rfl, located, .made made⟩

theorem perform_checkedKey (key : Text) (s : Session) :
    perform (checkedKey key) s = ((match Text.encodeUtf8 key with
      | .ok _ => .ok key
      | .error fault => .error (.key fault)), s) := by
  unfold checkedKey
  rw [perform_bind, perform_ofExcept]
  cases Text.encodeUtf8 key <;> rfl

/-- A row is written, unless its key has no bytes. -/
theorem InUse.write (inUse : InUse path here name rows s) (names : Names path here name) (key : Text) (value : Value) :
    InUse path here name (if key.hasBytes then rows.put key value else rows)
      (perform (do writeStore (← openStore) key value) s).2 := by
  obtain ⟨file, s', opened, rfl, located, made⟩ := inUse.open names
  rw [perform_bind_ok opened, perform_writeStore]
  unfold Text.hasBytes
  cases Text.encodeUtf8 key with
  | error fault => exact ⟨located, .made made⟩
  | ok bytes =>
    obtain ⟨t', written, made'⟩ := made.write names key value
    simp only [located, perform_onFiles, written, if_true]
    exact ⟨located, .made made'⟩

/-- An answer for which a key is needed. -/
def keyed {α : Type} (key : Text) (value : Except Failure α) : Except Failure α :=
  match Text.encodeUtf8 key with
  | .ok _ => value
  | .error fault => .error (.key fault)

theorem keyed_of_hasBytes {α : Type} {key : Text} (bytes : key.hasBytes) (value : Except Failure α) :
    keyed key value = value := by
  unfold Text.hasBytes at bytes
  unfold keyed
  cases encoded : Text.encodeUtf8 key with
  | ok _ => rfl
  | error fault => rw [encoded] at bytes; cases bytes

theorem perform_keyed {α : Type} {x : Tool α} {value : Except Failure α} {s : Session} (tells : perform x s = (value, s))
    (key : Text) : perform (checkedKey key >>= fun _ => x) s = (keyed key value, s) := by
  rw [perform_bind, perform_checkedKey]
  unfold keyed
  cases Text.encodeUtf8 key with
  | error fault => rfl
  | ok bytes => exact tells

/-- The entries for a hash are read off the rows of the store. -/
theorem perform_savedEntries {o : OpenStore} {s s' : Session} (opened : perform openStore s = (.ok o, s')) (hash : Text) :
    perform (savedEntries hash) s = (keyed (codeKey hash) ((o.file.rows.entriesOf? hash).mapError .noItems), s') := by
  unfold Tool.savedEntries
  rw [perform_bind_ok opened]
  exact perform_keyed (perform_ofExcept _ _ s') _

/-- The hash of a contract is read off the rows of the store. -/
theorem perform_linkedHash {o : OpenStore} {s s' : Session} (opened : perform openStore s = (.ok o, s')) (chain text : Text) :
    perform (linkedHash chain text) s = ((match Address.ofText text with
      | .ok address => keyed (contractKey chain address) (.ok (o.file.rows.hashOf? chain address))
      | .error fault => .error (.address fault)), s') := by
  unfold Tool.linkedHash
  rw [perform_bind_ok opened]
  cases Address.ofText text with
  | error fault => rfl
  | ok address => exact perform_keyed (perform_pure s' _) _

theorem InUse.savedEntries (inUse : InUse path here name rows s) (names : Names path here name) (hash : Text) :
    ∃ s', perform (savedEntries hash) s = (keyed (codeKey hash) ((rows.entriesOf? hash).mapError .noItems), s') ∧
      InUse path here name rows s' := by
  obtain ⟨o, s', opened, rfl, inUse⟩ := inUse.ask names
  exact ⟨s', perform_savedEntries opened hash, inUse⟩

theorem InUse.isSaved (inUse : InUse path here name rows s) (names : Names path here name) (hash : Text) :
    ∃ s', perform (isSaved hash) s = (keyed (codeKey hash) (.ok (rows.isSaved hash)), s') ∧
      InUse path here name rows s' := by
  obtain ⟨o, s', opened, rfl, inUse⟩ := inUse.ask names
  refine ⟨s', ?_, inUse⟩
  unfold Tool.isSaved
  rw [perform_bind_ok opened]
  exact perform_keyed (perform_pure s' _) _

theorem InUse.allSaved (inUse : InUse path here name rows s) (names : Names path here name) :
    ∃ s', perform allSaved s = (.ok rows.saved, s') ∧ InUse path here name rows s' := by
  obtain ⟨o, s', opened, rfl, inUse⟩ := inUse.ask names
  refine ⟨s', ?_, inUse⟩
  unfold Tool.allSaved
  rw [perform_bind_ok opened]
  rfl

theorem InUse.linkedHash (inUse : InUse path here name rows s) (names : Names path here name) (chain text : Text) :
    ∃ s', perform (linkedHash chain text) s = ((match Address.ofText text with
        | .ok address => keyed (contractKey chain address) (.ok (rows.hashOf? chain address))
        | .error fault => .error (.address fault)), s') ∧
      InUse path here name rows s' := by
  obtain ⟨o, s', opened, rfl, inUse⟩ := inUse.ask names
  exact ⟨s', perform_linkedHash opened chain text, inUse⟩

/-- What is no address is not linked. -/
theorem InUse.notLinked (inUse : InUse path here name rows s) (names : Names path here name) (chain hash : Text)
    {text : Text} {fault : AddressFault} (read : Address.ofText text = .error fault) :
    ∃ s', perform (linkContract chain text hash) s = (.error (.address fault), s') ∧ InUse path here name rows s' := by
  obtain ⟨o, s', opened, -, inUse⟩ := inUse.ask names
  refine ⟨s', ?_, inUse⟩
  unfold linkContract
  rw [perform_bind_ok opened, read]
  rfl

theorem perform_discard {α : Type} (x : Tool α) (s : Session) : (perform (discard x) s).2 = (perform x s).2 := by
  unfold discard
  show (perform ((fun _ => PUnit.unit) <$> x) s).2 = _
  rw [perform_map]
  cases perform x s with
  | mk result s' => cases result <;> rfl

/-- What a confirmed reset leaves has no rows. -/
theorem InUse.reset (inUse : InUse path here name rows s) (names : Names path here name)
    (creating : name.access = .creating) : InUse path here name [] (perform (resetStore true) s).2 := by
  obtain ⟨located, serves⟩ := inUse
  have emptied (files : FileTree) (removed : s.files.remove path = .ok files) :
      ∃ book, perform (resetStore true) s = (.ok ⟨⟩, { s with files, book }) := by
    refine ⟨if (files.itemAt? logFile).isNone then s.book.detached else s.book, ?_⟩
    unfold resetStore
    simp only [Bool.not_true, Bool.false_eq_true, if_false]
    rw [perform_bind_ok (show perform Tool.storePath s = (.ok path, s) from by rw [← located]; rfl), perform_bind, perform_get]
    dsimp only
    rw [removed]
    rfl
  cases serves with
  | made made =>
    obtain ⟨book, ran⟩ := emptied _ (remove_of_found made.found made.rest.there)
    rw [ran]
    exact ⟨located, .unmade (made.unmade names creating)⟩
  | unmade unmade =>
    obtain ⟨book, ran⟩ := emptied _ unmade.removed
    rw [ran]
    exact ⟨located, .unmade unmade⟩

/-- A call leaves a store with the rows that it should. -/
theorem InUse.after (inUse : InUse path here name rows s) (names : Names path here name) (creating : name.access = .creating)
    (call : StoreCall) : InUse path here name (call.rowsAfter rows) (call.after s) := by
  have asked {α : Type} {x : Tool α} {value : Except Failure α}
      (told : ∃ s', perform x s = (value, s') ∧ InUse path here name rows s') :
      InUse path here name rows (perform (discard x) s).2 := by
    obtain ⟨s', told, inUse⟩ := told
    rwa [perform_discard, told]
  cases call with
  | save hash entries =>
    rw [StoreCall.rowsAfter_save]
    exact inUse.write names (codeKey hash) (.entries entries)
  | link chain text hash =>
    cases read : Address.ofText text with
    | error fault =>
      obtain ⟨s', told, inUse⟩ := inUse.notLinked names chain hash read
      rw [StoreCall.rowsAfter_notLinked rows chain hash read]
      show InUse path here name rows (perform (linkContract chain text hash) s).2
      rwa [told]
    | ok address =>
      have written := inUse.write names (contractKey chain address) (.hash hash)
      have action_eq : linkContract chain text hash =
          (do writeStore (← openStore) (contractKey chain address) (.hash hash) : Tool Unit) := by
        unfold linkContract
        rw [read]
        rfl
      rw [StoreCall.rowsAfter_link rows chain hash read]
      show InUse path here name _ (perform (linkContract chain text hash) s).2
      rw [action_eq]
      exact written
  | reset confirmed =>
    cases confirmed with
    | true => exact inUse.reset names creating
    | false => exact inUse
  | load hash => exact asked (inUse.savedEntries names hash)
  | seen hash => exact asked (inUse.isSaved names hash)
  | list => exact asked (inUse.allSaved names)
  | linked chain text => exact asked (inUse.linkedHash names chain text)

/-- However calls follow each other, the rows tell what they have done. -/
theorem InUse.afterCalls (names : Names path here name) (creating : name.access = .creating) (calls : List StoreCall)
    {before : List StoreCall} {rows : Table} {s : Session} (inUse : InUse path here name rows s) (tells : Tells before rows) :
    ∃ rows, InUse path here name rows (s.afterCalls calls) ∧ Tells (before ++ calls) rows := by
  induction calls generalizing before rows s with
  | nil => exact ⟨rows, inUse, by rwa [List.append_nil]⟩
  | cons call calls ih =>
    obtain ⟨rows, inUse, tells⟩ := ih (inUse.after names creating call) (tells.step call)
    exact ⟨rows, inUse, by rwa [List.append_assoc] at tells⟩

theorem InUse.storeRows?_eq (inUse : InUse path here name rows s) (names : Names path here name) :
    s.storeRows? = some rows := by
  obtain ⟨o, s', opened, rfl, -⟩ := inUse.ask names
  unfold storeRows?
  rw [opened]

end InUse

/-- A store that begins without a file: its path can be opened, and once more when the file has been made, and leads to
that file as the path of a plain file too. -/
structure StoreBegins (s : Session) (here : Location) : Prop where
  missing : s.files.itemAt? here = none
  opens : (perform openStore s).1.toOption.bind OpenStore.place? = some here
  plain : ((perform openStore s).2.files.resolve s.storePath).toOption = some here
  again : (perform openStore (perform openStore s).2).1.isOk

theorem StoreBegins.inUse {s : Session} {here : Location} (begins : s.StoreBegins here) :
    ∃ name, Names s.storePath here name ∧ name.access = .creating ∧ InUse s.storePath here name [] s := by
  obtain ⟨missing, opens, plain, again⟩ := begins
  revert opens plain again
  cases first : perform openStore s with
  | mk result s' =>
    cases result with
    | error failure => nofun
    | ok o =>
      intro (place : o.place? = some here) (plain : (s'.files.resolve s.storePath).toOption = some here) again
      obtain ⟨entered, located⟩ := enterStore_of_openStore first
      have plain : s'.files.resolve s.storePath = .ok here := by
        cases found : s'.files.resolve s.storePath with
        | error fault => rw [found] at plain; cases plain
        | ok l => rw [found] at plain; exact congrArg Except.ok (Option.some.inj plain)
      cases second : perform openStore s' with
      | mk result' s'' =>
        cases result' with
        | error failure => rw [second] at again; cases again
        | ok o' =>
          obtain ⟨entered', -⟩ := enterStore_of_openStore second
          rw [located] at entered'
          obtain ⟨names, creating, serves⟩ := serves_of_missing entered place missing plain entered'
          exact ⟨o.name, names, creating, rfl, serves⟩

/-- A store answers as two maps do. Whatever has been called, the entries for a hash are those that have been saved last
since the latest confirmed reset, and the hash of a contract is the one that it has been linked to last since then,
however its chain and its address are spelled. All saved entries are listed once, in the order of the latest saves.
Questions, and calls that are refused, change nothing. -/
theorem store_is_two_maps {s : Session} {here : Location} (begins : s.StoreBegins here) (calls : List StoreCall) :
    let t := s.afterCalls calls
    (∀ hash, (codeKey hash).hasBytes →
      (perform (savedEntries hash) t).1 = .ok ((latestSave calls hash).map (·.map Abi.Entry.toJson)) ∧
      (perform (isSaved hash) t).1 = .ok (latestSave calls hash).isSome) ∧
    (∀ chain text address, Address.ofText text = .ok address → (contractKey chain address).hasBytes →
      (perform (linkedHash chain text) t).1 = .ok ((latestLink calls chain address).map .str)) ∧
    (∃ listed, (perform allSaved t).1 = .ok listed ∧ listed.map Prod.fst = savedHashes calls ∧
      ∀ row ∈ listed, (latestSave calls row.1).map Abi.entriesJson = some row.2) ∧
    (perform (resetStore false) t).1 = .error .unconfirmedReset ∧
    (∀ chain text hash fault, Address.ofText text = .error fault →
      (perform (linkContract chain text hash) t).1 = .error (.address fault)) ∧
    t.storeRows?.isSome ∧ ∀ call : StoreCall, call.changesNothing → (call.after t).storeRows? = t.storeRows? := by
  intro t
  obtain ⟨name, names, creating, inUse⟩ := begins.inUse
  obtain ⟨rows, inUse, tells⟩ := inUse.afterCalls names creating calls Tells.nil
  rw [List.nil_append] at tells
  refine ⟨fun hash bytes => ⟨?_, ?_⟩, fun chain text address read bytes => ?_, ⟨rows.saved, ?_, tells.hashes, tells.listed⟩,
    rfl, fun chain text hash fault read => ?_, ?_, fun call nothing => ?_⟩
  · obtain ⟨t', told, -⟩ := inUse.savedEntries names hash
    rw [told, keyed_of_hasBytes bytes]
    unfold Table.entriesOf?
    rw [tells.entries]
    cases latestSave calls hash <;> rfl
  · obtain ⟨t', told, -⟩ := inUse.isSaved names hash
    rw [told, keyed_of_hasBytes bytes]
    unfold Table.isSaved
    rw [tells.entries, Option.isSome_map]
  · obtain ⟨t', told, -⟩ := inUse.linkedHash names chain text
    rw [told, read]
    dsimp only
    rw [keyed_of_hasBytes bytes]
    unfold Table.hashOf?
    rw [tells.links chain address (Address.proper_of_ofText read) bytes, Option.map_map]
    rfl
  · obtain ⟨t', told, -⟩ := inUse.allSaved names
    rw [told]
  · obtain ⟨t', told, -⟩ := inUse.notLinked names chain hash read
    rw [told]
  · rw [inUse.storeRows?_eq names]
    rfl
  · have later := inUse.after names creating call
    rw [StoreCall.rowsAfter_of_changesNothing nothing] at later
    rw [later.storeRows?_eq names, inUse.storeRows?_eq names]

/-- The default store, which is saved to, reset and saved to again. -/
theorem store_is_two_maps_by_default :
    let s := Session.start (Settings.ofEnvironment []) .empty ⟨fun _ _ => .code []⟩ 0
    let calls : List StoreCall := [.save "first" [], .reset true, .save "second" [.event "0x01"], .reset false]
    s.StoreBegins ["data", "abiscan_state.sqlite"] ∧
      (perform (isSaved "first") (s.afterCalls calls)).1 = .ok false ∧
      (perform (savedEntries "second") (s.afterCalls calls)).1 = .ok (some [(Abi.Entry.event "0x01").toJson]) := by
  intro s calls
  have begins : s.StoreBegins ["data", "abiscan_state.sqlite"] :=
    ⟨by decide +kernel, by decide +kernel, by decide +kernel, by decide +kernel⟩
  obtain ⟨saved, -⟩ := store_is_two_maps begins calls
  exact ⟨begins, (saved "first" (by decide)).2, (saved "second" (by decide)).1⟩

/-- Not every store that can be opened does so. One in no file forgets what is saved; one whose path is read in parts is
not where a reset looks for it; and a hash that has no bytes is not saved at all. -/
theorem store_is_not_always_two_maps :
    let at_ (path : Text) := Session.start { Settings.ofEnvironment [] with storePath := path } .empty ⟨fun _ _ => .code []⟩ 0
    let saving : List StoreCall := [.save "k" [.event "0x1"]]
    let resetting : List StoreCall := [.save "k" [.event "0x1"], .reset true]
    let half : Text := [.half 0x400]
    ((perform openStore (at_ ":memory:")).1.isOk ∧ latestSave saving "k" = some [.event "0x1"] ∧
      (perform (savedEntries "k") ((at_ ":memory:").afterCalls saving)).1.toOption = some none) ∧
    ((perform openStore (at_ "file:x.db")).1.isOk ∧ latestSave resetting "k" = none ∧
      (perform (savedEntries "k") ((at_ "file:x.db").afterCalls resetting)).1.toOption =
        some (some [(Abi.Entry.event "0x1").toJson])) ∧
    (at_ "x.db").StoreBegins ["x.db"] ∧
      (perform (savedEntries half) ((at_ "x.db").afterCalls [.save half [.event "0x1"]])).1.toOption = none := by
  intro at_ saving resetting half
  refine ⟨?_, ?_, ⟨?_, ?_, ?_, ?_⟩, ?_⟩
  all_goals decide +kernel

end Session

end AbiRecovery
