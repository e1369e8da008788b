import AbiRecovery.Proofs.StoreRest

/-!
# Stores that are made and removed

A store whose missing file has been made is served from then on: it is opened and written without fail, removing its
file leaves no rows, and opening it after that makes the file again.
-/
namespace AbiRecovery.FileTree

open Database

variable {path here : Location} {name : Store.Name} {file : Store.File} {rows : Store.Table} {t t' : FileTree}

/-- A store at rest in a file that has been made for it, at the place to which its path leads as the path of a file. -/
structure Made (path here : Location) (name : Store.Name) (file : Store.File) (t : FileTree) : Prop where
  rest : AtRest path here name file t
  base : file.base = []
  found : t.resolve path = .ok here
  above : t.HasDirectory here.above

/-- A store whose file is missing, and will be made when it is opened. -/
structure Unmade (path here : Location) (name : Store.Name) (t : FileTree) : Prop where
  entered : ∃ t', perform (enterStore path) t = (.ok ⟨name, some here, ⟨[], [], []⟩⟩, t') ∧
    Made path here name ⟨[], [], []⟩ t'
  removed : t.remove path = .ok t

/-- A store with rows, in its file, or without rows and without a file. -/
inductive Serves (path here : Location) (name : Store.Name) : Store.Table → FileTree → Prop where
  | made {file : Store.File} {t : FileTree} (made : Made path here name file t) : Serves path here name file.rows t
  | unmade {t : FileTree} (unmade : Unmade path here name t) : Serves path here name [] t

/-- A tree with the same items but for the rows of the store. -/
theorem Made.of_others (made : Made path here name file t) {file' : Store.File} (base : file'.base = file.base)
    (rest : AtRest path here name file' t') (others : ∀ l, l ≠ here → t'.itemAt? l = t.itemAt? l) :
    Made path here name file' t' := by
  have kept (l : Location) (directory : t.HasDirectory l) : t'.HasDirectory l := by
    by_cases at_here : l = here
    · rw [HasDirectory, at_here, made.rest.there] at directory
      cases directory
    · exact (others l at_here).trans directory
  exact ⟨rest, base.trans made.base, resolve_of_directories kept made.found, kept _ made.above⟩

/-- A store is opened when it is served, and then written. -/
theorem Serves.enter (serves : Serves path here name rows t) (names : Names path here name) :
    ∃ file t', perform (enterStore path) t = (.ok ⟨name, some here, file⟩, t') ∧ file.rows = rows ∧
      Made path here name file t' := by
  cases serves with
  | @made file _ made =>
    obtain ⟨t', entered, rest, others⟩ := made.rest.enter names
    exact ⟨file, t', entered, rfl, made.of_others rfl rest others⟩
  | unmade unmade =>
    obtain ⟨t', entered, made⟩ := unmade.entered
    exact ⟨_, t', entered, rfl, made⟩

theorem Made.write (made : Made path here name file t) (names : Names path here name) (key : Text) (value : Store.Value) :
    ∃ t', perform (writeStore path ⟨name, some here, file⟩ key value) t = (.ok ⟨⟩, t') ∧
      Made path here name (file.put key value) t' := by
  obtain ⟨t', written, rest, others⟩ := made.rest.write names key value
  exact ⟨t', written, made.of_others rfl rest others⟩

theorem storeStep?_of_fewer (under : t'.baseSizes = t.baseSizes)
    (fewer : ∀ l, t'.kindAt? l = some false → t.kindAt? l = some false) {l next : Location} {part : Text}
    (step : t.storeStep? l part = some next) : t'.storeStep? l part = some next := by
  by_cases up : part = Location.up
  · unfold storeStep? at step ⊢
    rwa [if_pos up] at step ⊢
  · have open_ (v : FileTree) (free : v.kindAt? l ≠ some false) : v.storeStep? l part =
        if decide (part.byteCount > maxName) || decide (v.pathSize l + part.byteCount + 1 > maxFollowedPath) then none
        else some (l ++ [part]) := by
      unfold storeStep?
      rw [if_neg up]
      unfold kindAt? at free
      cases there : v.itemAt? l with
      | none => rfl
      | some item =>
        cases item with
        | directory => rfl
        | file _ | store _ => exact absurd (by rw [there]; rfl) free
    have free : t.kindAt? l ≠ some false := by
      intro file
      unfold kindAt? at file
      unfold storeStep? at step
      rw [if_neg up] at step
      cases there : t.itemAt? l with
      | none => rw [there] at file; cases file
      | some item =>
        rw [there] at file step
        cases item with
        | directory => cases file
        | file _ | store _ => cases step
    rw [open_ t' (mt (fewer l) free), pathSize_eq under, ← open_ t free]
    exact step

/-- With fewer files in the way the path of a store leads where it has led. -/
theorem storeLocation?_of_fewer (under : t'.baseSizes = t.baseSizes)
    (fewer : ∀ l, t'.kindAt? l = some false → t.kindAt? l = some false)
    {p : Text} {l : Location} (located : t.storeLocation? p = some l) : t'.storeLocation? p = some l := by
  have followed (parts : List Text) (start l : Location) (found : parts.foldlM t.storeStep? start = some l) :
      parts.foldlM t'.storeStep? start = some l := by
    induction parts generalizing start with
    | nil => exact found
    | cons part rest ih =>
      obtain ⟨next, step, found⟩ := Option.bind_eq_some_iff.mp found
      exact Option.bind_eq_some_iff.mpr ⟨next, storeStep?_of_fewer under fewer step, ih next found⟩
  unfold storeLocation? at located ⊢
  obtain ⟨found, short⟩ := Option.filter_eq_some_iff.mp located
  exact Option.filter_eq_some_iff.mpr ⟨followed _ _ _ found, pathSize_eq under l ▸ short⟩

/-- What is missing need not be removed. -/
theorem remove_of_missing (found : t.resolve path = .ok here) (missing : t.itemAt? here = none) :
    t.remove path = .ok t := by
  unfold remove isPresent
  rw [find?_eq found, missing]
  rfl

theorem remove_of_found (found : t.resolve path = .ok here) (there : t.itemAt? here = some (.store file)) :
    t.remove path = .ok (t.without here) := by
  unfold remove isPresent
  rw [find?_eq found, there]
  rfl

/-- An empty file, with nothing beside it to be cleared away, holds nothing yet. -/
theorem perform_readHeld_empty (names : Names path here name) (journal : t.itemAt? (journalOf here) = none)
    (quiet : QuietAhead here t) : perform (readHeld path here name (.file [])) t = (.ok (.error []), t) := by
  have begun : perform (readBegun path here name (.file [])) t = (.ok (.error []), t) := by
    unfold readBegun
    rw [perform_bind_ok (perform_beginAhead quiet _)]
    simp only [declaringBytes, writesAhead_nil]
    rfl
  rw [readHeld_eq (fixed_eq_false names.filed names.writable)]
  split
  · rw [perform_bind_ok (perform_clearJournal journal _)]
    exact begun
  · exact begun

/-- A store whose file has been removed is made again when it is opened. -/
theorem Made.unmade (made : Made path here name file t) (names : Names path here name) (creating : name.access = .creating) :
    Unmade path here name (t.without here) := by
  have missing : (t.without here).itemAt? here = none := by rw [itemAt?_without, if_pos ⟨rfl, names.inner⟩]
  have free : ¬t.HasDirectory here := not_hasDirectory made.rest.there nofun
  have same : SameDirectories t (t.without here) := .without free
  have found := resolve_of_directories (fun l => (same l).mp) made.found
  refine ⟨?_, remove_of_missing found missing⟩
  have others (l : Location) (other : l ≠ here) : (t.without here).itemAt? l = t.itemAt? l := others_without l other
  have journal : (t.without here).itemAt? (journalOf here) = none :=
    (others _ (besides_differ here).1).trans made.rest.journal
  have quiet : QuietAhead here (t.without here) := made.rest.quiet.of_others fun l other _ => others l other
  have above := made.rest.above.of_directories fun l => (same l).mp
  have located : (t.without here).storeLocation? name.path = some here := by
    refine storeLocation?_of_fewer (by rfl) (fun l file => ?_) made.rest.located
    by_cases at_here : l = here
    · rw [at_here, kindAt?, missing] at file
      cases file
    · rwa [kindAt?, others l at_here] at file
  have placed (l : Location) (other : l ≠ here) : ((t.without here).place here (.file [])).itemAt? l = t.itemAt? l :=
    (others_place _ _ _ other).trans (others l other)
  have journal' := (placed _ (besides_differ here).1).trans made.rest.journal
  have makes : perform (makeStoreFile path here name.access) (t.without here) =
      (.ok (.file []), (t.without here).place here (.file [])) := by
    unfold makeStoreFile
    rw [perform_bind, perform_item?, missing]
    dsimp only
    rw [perform_bind, perform_item?, (same _).mp made.above, creating]
    rfl
  have finds : perform (findStore path name) (t.without here) =
      (.ok (some here, .error []), (t.without here).place here (.file [])) := by
    unfold findStore
    rw [if_neg (Bool.eq_false_iff.mp names.filed), perform_bind, perform_get]
    dsimp only
    rw [located]
    dsimp only
    rw [perform_bind_ok makes, perform_bind_ok (perform_readHeld_empty names journal'
      (made.rest.quiet.of_others fun l other _ => placed l other))]
    rfl
  have others' (l : Location) (other : l ≠ here) :
      ((((t.without here).place here (.file [])).without (journalOf here)).place here (.store ⟨[], [], []⟩)).itemAt? l =
        t.itemAt? l := by
    have journal := made.rest.journal
    grind
  refine ⟨_, ?_, made.of_others made.base.symm (made.rest.of_others made.base.symm (by rfl) ?_ others') others'⟩
  · rw [enterStore_of_leads above]
    unfold openStore
    rw [perform_bind_ok (names.named _), perform_bind_ok finds]
    dsimp only
    rw [perform_bind_ok (perform_prepareWrite names journal' rfl)]
    rfl
  · rw [itemAt?_place, if_pos ⟨rfl, names.inner⟩]

/-- A store whose path can be opened where its file is missing, and once more when the file is there, is served. -/
theorem serves_of_missing {o o' : OpenStore} {u v : FileTree} (entered : perform (enterStore path) t = (.ok o, u))
    (place : o.place? = some here) (missing : t.itemAt? here = none) (found : u.resolve path = .ok here)
    (again : perform (enterStore path) u = (.ok o', v)) :
    Names path here o.name ∧ o.name.access = .creating ∧ Serves path here o.name [] t := by
  obtain ⟨t₁, grown, leads, opens⟩ := enterStore_ok entered
  have missing₁ : t₁.itemAt? here = none := by
    rcases grown here with same | ⟨-, directory⟩
    · exact same.trans missing
    · obtain ⟨item, t₂, w, held, opened⟩ := openStore_ok opens place
      exact absurd directory (makeStoreFile_ok opened.made).2.2.1
  obtain ⟨writable, file, creating, above, short, journal⟩ := opened_missing opens place missing₁
  have opened := opened_of_ok opens place writable
  have leads := leads.of_directories fun l => (opened.same l).mp
  rw [enterStore_of_leads leads] at again
  have rest : AtRest path here o.name o.file u :=
    ⟨leads, opened.located_again again, journal, opened.quiet, opened.declared, by rw [file]; rfl, opened.there⟩
  refine ⟨⟨opened.named, opened.filed, opened.inner, writable, short⟩, creating, .unmade ⟨⟨u, ?_, ?_⟩, ?_⟩⟩
  · rw [entered, ← file, ← place]
  · rw [← file]
    exact ⟨rest, by rw [file], found, (opened.same _).mp above⟩
  · rcases resolve_before (fun l directory => grown.before ((opened.same l).mpr directory)) found with found | missing'
    · exact remove_of_missing found missing
    · unfold remove isPresent find?
      rw [missing']
      rfl

end AbiRecovery.FileTree
