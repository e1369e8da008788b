import AbiRecovery.Proofs.SessionStore
import AbiRecovery.Proofs.StoreOpened

/-!
# Stores at rest

A store that has been written, and has been opened once more, is opened again and written again without fail, and
nothing changes but its rows.
-/
namespace AbiRecovery.FileTree

open Database

variable {path here : Location} {name : Store.Name} {file : Store.File} {t t' : FileTree}

/-- What the path of a store says: the name of the store, which may be written, and the place of its file. -/
structure Names (path here : Location) (name : Store.Name) : Prop where
  named : ∀ t, perform (storeName path) t = (.ok name, t)
  filed : name.isUnfiled = false
  inner : here.isBase = false
  writable : name.isWritable
  short : ¬((journalOf here).getLastD "").byteCount > maxName

theorem Names.access (names : Names path here name) : name.access ≠ .readOnly := by
  have writable := names.writable
  unfold Store.Name.isWritable at writable
  simp only [Bool.and_eq_true, decide_eq_true_eq] at writable
  exact writable.1

/-- A store in a file that stands at its place and is found there, with nothing beside it to be cleared away. -/
structure AtRest (path here : Location) (name : Store.Name) (file : Store.File) (t : FileTree) : Prop where
  above : t.LeadsToDirectory path.dropLast
  located : t.storeLocation? name.path = some here
  journal : t.itemAt? (journalOf here) = none
  quiet : QuietAhead here t
  declared : DeclaredEnded here name file.base t
  unbarred : isWriteBarred file.base = false
  there : t.itemAt? here = some (.store file)

/-- A tree with the same items but for the rows of the store. -/
theorem AtRest.of_others (rest : AtRest path here name file t) {file' : Store.File} (base : file'.base = file.base)
    (under : t'.baseSizes = t.baseSizes) (there : t'.itemAt? here = some (.store file'))
    (others : ∀ l, l ≠ here → t'.itemAt? l = t.itemAt? l) : AtRest path here name file' t' := by
  have kinds : SameKinds t t' := by
    refine ⟨fun l => ?_, under.symm⟩
    unfold kindAt?
    by_cases at_here : l = here
    · rw [at_here, there, rest.there]
      rfl
    · rw [others l at_here]
  have others' (l : Location) (other : l ≠ here) (_ : l ≠ journalOf here) : t'.itemAt? l = t.itemAt? l := others l other
  refine ⟨rest.above.of_directories fun l directory => ?_, (kinds.storeLocation? name.path).symm.trans rest.located, ?_,
    rest.quiet.of_others others', ?_, base ▸ rest.unbarred, there⟩
  · by_cases at_here : l = here
    · rw [HasDirectory, at_here, rest.there] at directory
      cases directory
    · exact (others l at_here).trans directory
  · exact (others _ (besides_differ here).1).trans rest.journal
  · intro declares
    rw [base] at declares ⊢
    obtain ⟨settled, ended⟩ := rest.declared declares
    exact ⟨settled, ended.of_others others'⟩

theorem perform_clearJournal (journal : t.itemAt? (journalOf here) = none) (isEmpty : Bool) :
    perform (clearJournal path here name isEmpty) t = (.ok ⟨⟩, t) := by
  unfold clearJournal
  rw [perform_bind, perform_item?, journal]
  rfl

theorem perform_beginAhead (quiet : QuietAhead here t) (isEmpty : Bool) :
    perform (beginAhead path here name isEmpty) t = (.ok false, t) := by
  unfold beginAhead
  rw [perform_bind, perform_item?]
  cases item : t.itemAt? (aheadOf here) with
  | none => rfl
  | some a =>
    obtain ⟨file, empty⟩ := quiet a item
    cases a with
    | directory => exact absurd rfl file
    | file _ | store _ =>
      dsimp only
      rw [if_pos empty]
      rfl

/-- Writes to come that have been ended are begun with and ended once more. -/
theorem EndedAhead.again (ended : EndedAhead here name t) (access : name.access ≠ .readOnly) :
    ∃ u v, perform (indexAhead path here name) t = (.ok ⟨⟩, u) ∧ perform (endAhead here name) u = (.ok none, v) ∧
      v.baseSizes = t.baseSizes ∧ ∀ l, v.itemAt? l = t.itemAt? l := by
  obtain ⟨-, -, -, -, -, aheadIndex⟩ := besides_differ here
  have inner {l : Location} (nothing : t.itemAt? l = none) : l.isBase = false :=
    isBase_eq_false (not_hasDirectory nothing nofun)
  unfold indexAhead endAhead
  rw [if_neg (not_not_intro ended.marks), if_neg access, perform_bind, perform_item?, ended.ahead]
  have begun : (t.place (aheadOf here) (.file [])).itemAt? (indexOf here) = t.itemAt? (indexOf here) :=
    others_place _ _ _ (Ne.symm aheadIndex)
  cases filed : name.isIndexFiled with
  | false =>
    refine ⟨t.place (aheadOf here) (.file []), (t.place (aheadOf here) (.file [])).without (aheadOf here), ?_, ?_, rfl, ?_⟩
    · rfl
    · rfl
    · intro l
      have := ended.ahead
      grind
  | true =>
    have index := ended.index filed
    refine ⟨(t.place (aheadOf here) (.file [])).place (indexOf here) (.file emptyIndex), 
      (((t.place (aheadOf here) (.file [])).place (indexOf here) (.file emptyIndex)).without (aheadOf here)).without (indexOf here), ?_, ?_, rfl, ?_⟩
    · dsimp only [Option.isNone_none]
      rw [if_pos rfl, perform_bind_ok (perform_modify _ _), perform_bind, perform_item?, begun, index]
      rfl
    · have placed (u : FileTree) : (u.place (indexOf here) (.file emptyIndex)).itemAt? (indexOf here) = some (.file emptyIndex) := by
        rw [itemAt?_place, if_pos ⟨rfl, inner index⟩]
      rw [perform_bind, perform_item?, placed]
      rfl
    · intro l
      have := ended.ahead
      grind

/-- A store that would be settled as it is, and beside which there is no journal, is settled. -/
theorem perform_settle (settled : settledBytes file.base = file.base) (unbarred : isWriteBarred file.base = false)
    (journal : t.itemAt? (journalOf here) = none) :
    perform (settle path here (.store file)) t =
      (.ok (.store file), (t.without (journalOf here)).place here (.store file)) := by
  have same : settledItem (.store file) = .store file := by
    show FileItem.store { file with base := settledBytes file.base } = .store file
    rw [settled]
  unfold settle
  simp only [declaringBytes, unbarred, same, Bool.false_eq_true, if_false]
  rw [perform_bind, perform_item?, journal]
  dsimp only
  rw [if_pos (by simp)]
  rfl

/-- A store at rest is read as it is. -/
theorem AtRest.readHeld (rest : AtRest path here name file t) (names : Names path here name) :
    ∃ t', perform (readHeld path here name (.store file)) t = (.ok (.ok file), t') ∧ t'.baseSizes = t.baseSizes ∧
      ∀ l, t'.itemAt? l = t.itemAt? l := by
  have begun : ∃ t', perform (readBegun path here name (.store file)) t = (.ok (.ok file), t') ∧
      t'.baseSizes = t.baseSizes ∧ ∀ l, t'.itemAt? l = t.itemAt? l := by
    unfold readBegun
    rw [perform_bind_ok (perform_beginAhead rest.quiet _)]
    simp only [declaringBytes, Bool.not_false, Bool.and_true, Bool.false_or]
    cases declared : writesAhead file.base with
    | false => exact ⟨t, rfl, rfl, fun _ => rfl⟩
    | true =>
      obtain ⟨settled, ended⟩ := rest.declared declared
      obtain ⟨u, v, indexed, ends, under, same⟩ := ended.again names.access
      rw [if_pos rfl, perform_bind_ok indexed, if_pos rfl]
      unfold readEnded
      have journal : v.itemAt? (journalOf here) = none := (same _).trans rest.journal
      rw [perform_bind_ok ends, perform_bind_ok (show perform (liftM (Held.ofItem path (.store file)) : Change Held) v =
        (.ok (.ok file), v) from rfl)]
      dsimp only
      rw [perform_bind_ok (perform_settle settled rest.unbarred journal), if_pos rfl]
      refine ⟨_, rfl, under, fun l => ?_⟩
      have there := rest.there
      have none := rest.journal
      have same := same l
      grind
  rw [readHeld_eq (fixed_eq_false names.filed names.writable)]
  split
  · rw [perform_bind_ok (perform_clearJournal rest.journal _)]
    exact begun
  · exact begun

theorem enterStore_of_leads (above : t.LeadsToDirectory path.dropLast) :
    perform (enterStore path) t = perform (openStore path) t := by
  unfold enterStore
  rw [perform_bind, perform_get]
  dsimp only
  rw [makeDirectories_of_leads above]
  rfl

/-- A store at rest is found, and stays at rest. -/
theorem AtRest.enter (rest : AtRest path here name file t) (names : Names path here name) :
    ∃ t', perform (enterStore path) t = (.ok ⟨name, some here, file⟩, t') ∧ AtRest path here name file t' ∧
      ∀ l, l ≠ here → t'.itemAt? l = t.itemAt? l := by
  have made : perform (makeStoreFile path here name.access) t = (.ok (.store file), t) := by
    unfold makeStoreFile
    rw [perform_bind, perform_item?, rest.there]
    rfl
  obtain ⟨u, read, under, same⟩ := rest.readHeld names
  have found : perform (findStore path name) t = (.ok (some here, .ok file), u) := by
    unfold findStore
    rw [if_neg (Bool.eq_false_iff.mp names.filed), perform_bind, perform_get]
    dsimp only
    rw [rest.located]
    dsimp only
    rw [perform_bind_ok made, perform_bind_ok read]
    rfl
  have others (l : Location) (other : l ≠ here) : (u.place here (.store file)).itemAt? l = t.itemAt? l :=
    (others_place _ _ _ other).trans (same l)
  refine ⟨u.place here (.store file), ?_, rest.of_others rfl under ?_ others, others⟩
  · rw [enterStore_of_leads rest.above]
    unfold openStore
    rw [perform_bind_ok (names.named t), perform_bind_ok found]
    dsimp only
    rw [perform_bind_ok (perform_keepStore _ _)]
    rfl
  · rw [itemAt?_place, if_pos ⟨rfl, names.inner⟩]

/-- A write is prepared where no journal is in the way. -/
theorem perform_prepareWrite (names : Names path here name) (journal : t.itemAt? (journalOf here) = none) {base : Bytes}
    (unbarred : isWriteBarred base = false) :
    perform (prepareWrite path name (some here) base) t = (.ok ⟨⟩, t.without (journalOf here)) := by
  unfold prepareWrite
  rw [if_neg (by simp [names.writable, unbarred])]
  dsimp only
  rw [perform_bind, perform_item?, journal]
  dsimp only
  have room : ¬(decide ((((journalOf here).getLastD "").byteCount > maxName)) ||
      decide ((none : Option FileItem) = some .directory)) = true := by
    rw [decide_eq_false names.short]
    nofun
  rw [if_neg room]
  rfl

/-- A store at rest is written, and stays at rest. -/
theorem AtRest.write (rest : AtRest path here name file t) (names : Names path here name) (key : Text) (value : Store.Value) :
    ∃ t', perform (writeStore path ⟨name, some here, file⟩ key value) t = (.ok ⟨⟩, t') ∧
      AtRest path here name (file.put key value) t' ∧ ∀ l, l ≠ here → t'.itemAt? l = t.itemAt? l := by
  have others (l : Location) (other : l ≠ here) :
      ((t.without (journalOf here)).place here (.store (file.put key value))).itemAt? l = t.itemAt? l := by
    have journal := rest.journal
    grind
  refine ⟨(t.without (journalOf here)).place here (.store (file.put key value)), ?_, rest.of_others rfl rfl ?_ others, others⟩
  · unfold writeStore
    rw [perform_bind_ok (perform_prepareWrite names rest.journal rest.unbarred)]
    rfl
  · rw [itemAt?_place, if_pos ⟨rfl, names.inner⟩]

/-- A store has been entered when the directories above it have been made and it has been opened. -/
theorem enterStore_ok {o : OpenStore} (entered : perform (enterStore path) t = (.ok o, t')) :
    ∃ u, Grown t u ∧ u.LeadsToDirectory path.dropLast ∧ perform (openStore path) u = (.ok o, t') := by
  unfold enterStore at entered
  rw [perform_bind, perform_get] at entered
  dsimp only at entered
  cases made : t.makeDirectories path.dropLast with
  | mk u fault? =>
    rw [made] at entered
    cases fault? with
    | some fault => cases entered
    | none =>
      obtain ⟨grown, leads⟩ := makeDirectories_ok made
      exact ⟨u, grown, leads, entered⟩

/-- Where a store in a file can be opened, its path leads to its place. -/
theorem openStore_located {o : OpenStore} (named : ∀ w, perform (storeName path) w = (.ok name, w))
    (filed : name.isUnfiled = false) (ran : perform (openStore path) t = (.ok o, t')) :
    ∃ l, t.storeLocation? name.path = some l ∧ o.place? = some l := by
  unfold openStore at ran
  rw [perform_bind_ok (named t)] at ran
  obtain ⟨⟨place?, held⟩, u, found, ran⟩ := bind_ok_cases ran
  unfold findStore at found
  rw [if_neg (Bool.eq_false_iff.mp filed), perform_bind, perform_get] at found
  dsimp only at found
  cases located : t.storeLocation? name.path with
  | none => rw [located] at found; cases found
  | some l =>
    rw [located] at found
    obtain ⟨item, v, -, found⟩ := bind_ok_cases found
    obtain ⟨held', w, -, found⟩ := bind_ok_cases found
    cases found
    refine ⟨l, rfl, ?_⟩
    cases held with
    | ok file =>
      obtain ⟨_, _, -, ran⟩ := bind_ok_cases ran
      cases ran
      rfl
    | error base =>
      obtain ⟨_, _, -, ran⟩ := bind_ok_cases ran
      obtain ⟨_, _, -, ran⟩ := bind_ok_cases ran
      cases ran
      rfl

theorem Opened.located_again {o o' : OpenStore} {u u' v : FileTree} (opened : Opened path here o u u')
    (again : perform (openStore path) t = (.ok o', v)) : t.storeLocation? o.name.path = some here := by
  obtain ⟨l, located, -⟩ := openStore_located opened.named opened.filed again
  rw [located, storeLocation?_eq_some located, ← storeLocation?_eq_some opened.located]

/-- A store that has been written, and can be entered once more, is at rest. -/
theorem atRest_of_written {o o' : OpenStore} {u v w : FileTree} {key : Text} {value : Store.Value}
    (entered : perform (enterStore path) t = (.ok o, u)) (place : o.place? = some here)
    (written : perform (writeStore path o key value) u = (.ok ⟨⟩, v))
    (again : perform (enterStore path) v = (.ok o', w)) :
    Names path here o.name ∧ AtRest path here o.name (o.file.put key value) v := by
  obtain ⟨t₁, -, leads, opens⟩ := enterStore_ok entered
  unfold writeStore at written
  rw [place] at written
  obtain ⟨_, u', prepared, kept⟩ := bind_ok_cases written
  obtain ⟨writable, unbarred, short, free, rfl⟩ := prepareWrite_ok prepared
  cases kept
  have opened := opened_of_ok opens place writable
  have same : SameDirectories u ((u.without (journalOf here)).place here (.store (o.file.put key value))) :=
    (SameDirectories.without free).trans (.place nofun fun directory =>
      not_hasDirectory opened.there nofun (((SameDirectories.without free) _).mpr directory))
  have others (l : Location) (other : l ≠ here) (beside : l ≠ journalOf here) :
      ((u.without (journalOf here)).place here (.store (o.file.put key value))).itemAt? l = u.itemAt? l :=
    (others_place _ _ _ other).trans (others_without _ beside)
  have above := leads.of_directories fun l directory => (same l).mp ((opened.same l).mp directory)
  rw [enterStore_of_leads above] at again
  refine ⟨⟨opened.named, opened.filed, opened.inner, writable, short⟩, above, opened.located_again again, ?_,
    opened.quiet.of_others others, ?_, unbarred, ?_⟩
  · rw [others_place _ _ _ (besides_differ here).1, itemAt?_without, if_pos ⟨rfl, isBase_eq_false free⟩]
  · intro declares
    obtain ⟨settled, ended⟩ := opened.declared declares
    exact ⟨settled, ended.of_others others⟩
  · rw [itemAt?_place, if_pos ⟨rfl, opened.inner⟩]

end AbiRecovery.FileTree
