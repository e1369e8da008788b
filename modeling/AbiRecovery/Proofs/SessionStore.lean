import AbiRecovery.Proofs.SessionOutput

/-!
# The store of a session

Every access of a session to its store is an operation on its files: the directories above the store are made
and the store is opened, and then perhaps a row is written. Sessions that are the same but for their output have
the same store and do the same with it.
-/
namespace AbiRecovery

namespace FileTree

/-- Makes the directories above a store and opens it. -/
def enterStore (path : Location) : Change OpenStore := do
  let t ← get
  let (made, fault?) := t.makeDirectories path.dropLast
  set made
  match fault? with
  | some fault => throw fault
  | none => openStore path

/-- A store is entered in the same way in trees that agree. -/
theorem matches_enterStore {apart : Location → Prop} {here : Location} {rel : ItemRelation} (clear : Clear apart here)
    {path : Location} (leads : ∀ l, storePlace? path = some l → l = here) :
    Matches (AgreeAt apart here rel) (OpenAlike path here rel) (enterStore path) (enterStore path) := by
  unfold enterStore
  refine Matches.get_bind fun t t' agree => ?_
  obtain ⟨made, same⟩ := agree.makeDirectories path.dropLast
  revert made same
  generalize t.makeDirectories path.dropLast = left
  generalize t'.makeDirectories path.dropLast = right
  obtain ⟨u, fault?⟩ := left
  obtain ⟨u', fault?'⟩ := right
  intro made (same : fault? = fault?')
  subst same
  cases fault? with
  | some fault => exact Matches.seq (fun _ _ _ => .done rfl made) Matches.throw
  | none => exact Matches.seq (fun _ _ _ => .done rfl made) (matches_openStore clear leads)

end FileTree

namespace Tool

open FileTree

/-- An operation on the files changes nothing else. -/
@[simp]
theorem perform_onFiles {α : Type} (change : Change α) (s : Session) :
    perform (onFiles change) s =
      ((perform change s.files).1.mapError .file, { s with files := (perform change s.files).2 }) := by
  unfold onFiles
  rw [perform_bind, perform_get]
  show perform (ofExcept Failure.file _) _ = _
  rw [perform_ofExcept]
  rfl

/-- Opening the store is entering it at the path that the settings name. -/
theorem perform_openStore (s : Session) :
    perform openStore s = perform (onFiles (enterStore s.storePath)) s := by
  unfold openStore enterStore
  rw [perform_bind_ok (show perform storePath s = (.ok s.storePath, s) from rfl), perform_bind]
  unfold makeDirectories
  rw [perform_bind, perform_get, perform_onFiles, perform_bind, perform_get]
  dsimp only
  cases made : s.files.makeDirectories s.storePath.dropLast with
  | mk files fault? =>
    cases fault? with
    | some fault => rfl
    | none =>
      dsimp only
      rw [perform_bind_ok (perform_set _ _), perform_bind_ok (perform_set _ _), perform_pure]
      dsimp only
      rw [perform_onFiles]

theorem enterStore_of_openStore {s s' : Session} {o : OpenStore} (opened : perform openStore s = (.ok o, s')) :
    perform (enterStore s.storePath) s.files = (.ok o, s'.files) ∧ s'.storePath = s.storePath := by
  rw [perform_openStore, perform_onFiles] at opened
  obtain ⟨result, rfl⟩ := Prod.mk.inj opened
  exact ⟨Prod.ext (eq_ok_of_mapError result) rfl, rfl⟩

theorem openStore_of_enterStore {s : Session} {o : OpenStore} {files : FileTree}
    (entered : perform (enterStore s.storePath) s.files = (.ok o, files)) :
    perform openStore s = (.ok o, { s with files }) := by
  rw [perform_openStore, perform_onFiles, entered]
  rfl

/-- A row is written if its key has bytes. -/
theorem perform_writeStore (opened : OpenStore) (key : Text) (value : Store.Value) (s : Session) :
    perform (writeStore opened key value) s = match Text.encodeUtf8 key with
      | .error fault => (.error (.key fault), s)
      | .ok _ => perform (onFiles (FileTree.writeStore s.storePath opened key value)) s := by
  unfold writeStore
  rw [perform_bind_ok (show perform storePath s = (.ok s.storePath, s) from rfl), perform_bind]
  unfold checkedKey
  rw [perform_bind, perform_ofExcept]
  cases Text.encodeUtf8 key with
  | error fault => rfl
  | ok bytes => rfl

end Tool

namespace Session

open FileTree

/-- Where the store can be; the working directory if it is in no file. -/
def place (s : Session) : Location := (storePlace? s.storePath).getD []

theorem clear_logsAt (s : Session) (here : Location) : Clear s.LogsAt here :=
  fun _ known log => beside_ne_logFile known log.1

theorem not_logsAt_place {s : Session} (apart : s.LogApart) : ¬s.LogsAt s.place := by
  unfold place
  cases there : storePlace? s.storePath with
  | none => exact fun log => absurd log.1 (by decide)
  | some l => exact apart l there

namespace SameButOutput

variable {s t : Session}

/-- The trees of two such sessions agree at the place of the store and beside it. -/
theorem agreeAt (same : SameButOutput s t) : AgreeAt s.LogsAt s.place .identical s.files t.files :=
  ⟨same.files.mono fun _ => .inr, same.files.items _ (not_logsAt_place same.apart), trivial⟩

theorem withFiles (same : SameButOutput s t) {f f' : FileTree} (agree : AgreeAt s.LogsAt s.place .identical f f') :
    SameButOutput { s with files := f } { t with files := f' } :=
  { same with
    files := ⟨agree.kinds, fun l inside => by
      by_cases at_place : l = s.place
      · rw [at_place]
        exact agree.there.1
      · exact agree.items at_place inside⟩ }

theorem storePath_eq (same : SameButOutput s t) : s.storePath = t.storePath := by
  unfold storePath
  rw [same.settings]

end SameButOutput

end Session

namespace Tool

open Session FileTree

/-- Two stores that have been opened at a path in sessions that are the same but for their output. -/
abbrev SameStore (path : Location) : OpenStore → OpenStore → Prop :=
  OpenAlike path ((storePlace? path).getD []) .identical

/-- Two such stores hold the same rows. -/
theorem rows_eq_of_sameStore {path : Location} {o o' : OpenStore} (same : SameStore path o o') :
    o.file.rows = o'.file.rows := by
  cases there : storePlace? path with
  | none => rw [(same.unfiled there).1, (same.unfiled there).2]
  | some l =>
    have filed := same.filed
    rw [there] at filed
    obtain ⟨-, files, -⟩ := filed rfl
    exact congrArg Store.File.rows (FileItem.store.inj (Option.some.inj files))

/-- Two sessions with their store at a path that are the same but for their output. -/
def SameAt (path : Location) (s t : Session) : Prop := SameButOutput s t ∧ s.storePath = path

theorem matches_of_sameAt {α β : Type} {values : α → β → Prop} {x : Tool α} {y : Tool β}
    (each : ∀ path, Matches (SameAt path) values x y) : Matches SameButOutput values x y :=
  fun s t same => (each s.storePath s t ⟨same, rfl⟩).mono (fun _ _ => And.left) fun _ _ => id

/-- An operation on files that goes alike in trees that agree goes alike in sessions with such trees. -/
theorem paired_onFiles {α β : Type} {values : α → β → Prop} {change : Change α} {change' : Change β} {path : Location}
    {s t : Session} (same : SameAt path s t)
    (paired : Paired (AgreeAt s.LogsAt s.place .identical) values (perform change s.files) (perform change' t.files)) :
    Paired (SameAt path) values (perform (onFiles change) s) (perform (onFiles change') t) := by
  rw [perform_onFiles, perform_onFiles]
  revert paired
  generalize perform change s.files = left
  generalize perform change' t.files = right
  intro paired
  cases paired with
  | done value agree => exact .done value ⟨same.1.withFiles agree, same.2⟩
  | failed agree => exact .failed ⟨same.1.withFiles agree, same.2⟩

theorem matches_openStore (path : Location) : Matches (SameAt path) (SameStore path) openStore openStore := by
  intro s t same
  rw [perform_openStore, perform_openStore, ← same.1.storePath_eq, same.2]
  refine paired_onFiles same ?_
  have there : s.place = (storePlace? path).getD [] := by rw [← same.2]; rfl
  rw [there]
  exact matches_enterStore (s.clear_logsAt _) (fun l at_l => by rw [at_l]; rfl) _ _ (there ▸ same.1.agreeAt)

theorem matches_writeStore {path : Location} {o o' : OpenStore} (alike : SameStore path o o') (key : Text)
    (value : Store.Value) : Matches (SameAt path) Eq (writeStore o key value) (writeStore o' key value) := by
  intro s t same
  rw [perform_writeStore, perform_writeStore, ← same.1.storePath_eq, same.2]
  cases Text.encodeUtf8 key with
  | error fault => exact .failed same
  | ok bytes =>
    refine paired_onFiles same ?_
    have there : s.place = (storePlace? path).getD [] := by rw [← same.2]; rfl
    have agree := same.1.agreeAt
    rw [there] at agree ⊢
    have put (files : ItemRelation.identical.holds (some (.store o.file)) (some (.store o'.file))) :
        ItemRelation.identical.holds (some (.store (o.file.put key value))) (some (.store (o'.file.put key value))) :=
      ⟨by rw [FileItem.store.inj (Option.some.inj files.1)], trivial⟩
    rcases paired_writeStore (s.clear_logsAt _) (fun l at_l => by rw [at_l]; rfl) alike put agree with
      ⟨fault, u, u', left, right, later⟩ | ⟨u, u', left, right, later⟩
    · rw [left, right]
      exact .failed later
    · rw [left, right]
      exact .done rfl (later.elim And.right And.right)

/-- Saving goes alike in sessions that are the same but for their output. -/
theorem matches_saveEntries (hash : Text) (entries : List Abi.Entry) :
    Matches SameButOutput Eq (saveEntries hash entries) (saveEntries hash entries) :=
  matches_of_sameAt fun path => (matches_openStore path).bind fun _ _ alike => matches_writeStore alike _ _

/-- Linking goes alike in such sessions, also where the name of the chain is in another case. -/
theorem matches_linkContract {chain chain' : Text} (names : Text.upper chain = Text.upper chain')
    (address hash : Text) :
    Matches SameButOutput Eq (linkContract chain address hash) (linkContract chain' address hash) := by
  refine matches_of_sameAt fun path => (matches_openStore path).bind fun _ _ alike => ?_
  refine (matches_ofExcept _ _).bind fun contract _ same => ?_
  subst same
  unfold Store.contractKey
  rw [names]
  exact matches_writeStore alike _ _

end Tool

namespace Session

/-- The rows that an access to the store finds, if it can be opened. -/
def storeRows? (s : Session) : Option Store.Table :=
  match (perform Tool.openStore s).1 with
  | .ok opened => some opened.file.rows
  | .error _ => none

/-- Sessions that are the same but for their output have the same store. -/
theorem SameButOutput.storeRows?_eq {s t : Session} (same : SameButOutput s t) : s.storeRows? = t.storeRows? := by
  have opened := Tool.matches_openStore s.storePath s t ⟨same, rfl⟩
  unfold storeRows?
  revert opened
  generalize perform Tool.openStore s = left
  generalize perform Tool.openStore t = right
  intro opened
  cases opened with
  | done alike _ => exact congrArg some (Tool.rows_eq_of_sameStore alike)
  | failed _ => rfl

end Session

end AbiRecovery
