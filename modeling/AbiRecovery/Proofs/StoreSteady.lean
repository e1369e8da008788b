import AbiRecovery.Proofs.StoreRest
import AbiRecovery.Proofs.StoreWrites

/-!
# Steady stores

A store that has been written and then entered once more is steady from then on: it is entered and written without
fail, and what is found in it is what has been written. A store in no file is steady too, and forgets what is written.
What is logged elsewhere makes no difference.
-/
namespace AbiRecovery.FileTree

open Database Store

/-- The rows that are found after writes, in a file or in none. -/
def writtenRows (filed : Bool) (rows writes : Table) : Table := if filed then rows.putAll writes else rows

theorem writtenRows_nil (filed : Bool) (rows : Table) : writtenRows filed rows [] = rows := by cases filed <;> rfl

theorem writtenRows_append (filed : Bool) (rows front back : Table) :
    writtenRows filed rows (front ++ back) = writtenRows filed (writtenRows filed rows front) back := by
  cases filed with
  | false => rfl
  | true => exact Table.putAll_append rows front back

/-- A store that is at rest in a file, or in no file. -/
inductive Steady (path : Location) : Bool → Table → FileTree → Prop where
  | filed {here : Location} {name : Name} {file : Store.File} {t : FileTree} (names : Names path here name)
      (rest : AtRest path here name file t) : Steady path true file.rows t
  | unfiled {name : Name} {t : FileTree} (named : ∀ u, perform (storeName path) u = (.ok name, u))
      (unfiled : name.isUnfiled) (writable : name.isWritable) (above : t.LeadsToDirectory path.dropLast) :
      Steady path false [] t

/-- A store that can be entered, and is steady after any write. -/
def Usable (path : Location) (filed : Bool) (rows : Table) (t : FileTree) : Prop :=
  ∃ o u, perform (enterStore path) t = (.ok o, u) ∧ o.file.rows = rows ∧ ∀ key value, ∃ v,
    perform (writeStore path o key value) u = (.ok ⟨⟩, v) ∧ Steady path filed (writtenRows filed rows [(key, value)]) v

variable {path here : Location} {name : Name} {filed : Bool} {rows : Table} {t t' : FileTree}

/-- A store in no file is opened without rows, whatever the files are, if it may be written. -/
theorem perform_openStore_unfiled (named : ∀ u, perform (storeName path) u = (.ok name, u)) (unfiled : name.isUnfiled)
    (t : FileTree) : perform (openStore path) t =
      if name.isWritable then (.ok ⟨name, none, ⟨[], [], []⟩⟩, t) else (.error ⟨.readOnly, path⟩, t) := by
  have found : perform (findStore path name) t = (.ok (none, .error []), t) := by
    unfold findStore
    rw [if_pos unfiled]
    rfl
  unfold openStore
  rw [perform_bind_ok (named t), perform_bind_ok found]
  unfold prepareWrite
  cases writable : name.isWritable with
  | true =>
    dsimp only
    rw [if_neg (by decide)]
    rfl
  | false => rfl

/-- A steady store is entered with its rows and stays steady, also after any write. -/
theorem Steady.enter (steady : Steady path filed rows t) :
    ∃ o u, perform (enterStore path) t = (.ok o, u) ∧ o.file.rows = rows ∧ Steady path filed rows u ∧ ∀ key value, ∃ v,
      perform (writeStore path o key value) u = (.ok ⟨⟩, v) ∧ Steady path filed (writtenRows filed rows [(key, value)]) v := by
  cases steady with
  | filed names rest =>
    obtain ⟨u, entered, rest, -⟩ := rest.enter names
    refine ⟨_, u, entered, rfl, .filed names rest, fun key value => ?_⟩
    obtain ⟨v, written, rest, -⟩ := rest.write names key value
    exact ⟨v, written, .filed names rest⟩
  | @unfiled name _ named unfiled writable above =>
    refine ⟨⟨name, none, ⟨[], [], []⟩⟩, t, ?_, rfl, .unfiled named unfiled writable above,
      fun key value => ⟨t, ?_, .unfiled named unfiled writable above⟩⟩
    · rw [enterStore_of_leads above, perform_openStore_unfiled named unfiled, if_pos writable]
    · unfold writeStore prepareWrite
      rw [writable]
      rfl

theorem Steady.usable (steady : Steady path filed rows t) : Usable path filed rows t := by
  obtain ⟨o, u, entered, found, -, writes⟩ := steady.enter
  exact ⟨o, u, entered, found, writes⟩

/-- A store that has been entered, written and entered once more can be used as it was: in a file, if it is in one. -/
theorem usable_of_written {o o' : OpenStore} {u v w : FileTree} {key : Text} {value : Value}
    (entered : perform (enterStore path) t = (.ok o, u)) (written : perform (writeStore path o key value) u = (.ok ⟨⟩, v))
    (again : perform (enterStore path) v = (.ok o', w)) : Usable path o.place?.isSome o.file.rows t := by
  cases place : o.place? with
  | some here =>
    obtain ⟨names, rest⟩ := atRest_of_written entered place written again
    unfold writeStore at written
    obtain ⟨_, u', prepared, kept⟩ := bind_ok_cases written
    rw [place] at kept
    cases kept
    refine ⟨o, u, entered, rfl, fun key' value' => ⟨u'.place here (.store (o.file.put key' value')), ?_, ?_⟩⟩
    · unfold writeStore
      rw [perform_bind_ok prepared, place]
      rfl
    · have there : (u'.place here (.store (o.file.put key' value'))).itemAt? here = some (.store (o.file.put key' value')) := by
        rw [itemAt?_place, if_pos ⟨rfl, names.inner⟩]
      have rest' : AtRest path here o.name (o.file.put key' value') (u'.place here (.store (o.file.put key' value'))) :=
        rest.of_others rfl rfl there fun l other => by rw [others_place _ _ _ other, others_place _ _ _ other]
      exact .filed names rest'
  | none =>
    obtain ⟨t₁, -, leads, opens⟩ := enterStore_ok entered
    rcases storeName_cases path with ⟨fault, never⟩ | ⟨name, named⟩
    · unfold openStore at opens
      rw [perform_bind, never] at opens
      cases opens
    · cases unfiled : name.isUnfiled with
      | false =>
        obtain ⟨l, -, there⟩ := openStore_located named unfiled opens
        rw [place] at there
        cases there
      | true =>
        rw [perform_openStore_unfiled named unfiled] at opens
        split at opens
        next writable =>
          cases opens
          refine ⟨_, u, entered, rfl, fun key' value' => ⟨u, ?_, .unfiled named unfiled writable leads⟩⟩
          unfold writeStore prepareWrite
          rw [writable]
          rfl
        next => cases opens

theorem SameKinds.hasDirectory (same : SameKinds t t') {l : Location} (directory : t.HasDirectory l) : t'.HasDirectory l := by
  rcases same.cases l with ⟨nothing, -⟩ | ⟨-, there⟩ | ⟨a, b, there, -, file, -⟩
  · exact absurd directory (not_hasDirectory nothing nofun)
  · exact there
  · rw [HasDirectory, there] at directory
    cases directory
    cases file

section Agree

variable {apart : Location → Prop}

theorem AtRest.of_agree {file : Store.File} (clear : Clear apart here) (outside : ¬apart here)
    (rest : AtRest path here name file t) (agree : Agree apart t t') : AtRest path here name file t' := by
  have beside {ending : Text} (known : ending ∈ endings) : t'.itemAt? (beside here ending) = t.itemAt? (beside here ending) :=
    (agree.items _ (clear ending known)).symm
  refine ⟨rest.above.of_directories fun _ => agree.kinds.hasDirectory, (agree.kinds.storeLocation? _).symm.trans rest.located,
    (beside (by decide)).trans rest.journal, fun item there => ?_, fun declares => ?_, rest.unbarred,
    (agree.items here outside).symm.trans rest.there⟩
  · exact rest.quiet item ((beside (by decide)).symm.trans there)
  · obtain ⟨settled, marks, ahead, index⟩ := rest.declared declares
    exact ⟨settled, marks, (beside (by decide)).trans ahead, fun filed => (beside (by decide)).trans (index filed)⟩

/-- The place of a store at rest is where its path leads on paper. -/
theorem AtRest.storePlace?_eq {file : Store.File} (rest : AtRest path here name file t) (names : Names path here name) :
    storePlace? path = some here := by
  unfold storePlace?
  rw [names.named .empty]
  dsimp only
  rw [names.filed, storeLocation?_eq_some rest.located]
  rfl

theorem Steady.of_agree (clear : Clear apart here) (outside : ¬apart here)
    (leads : ∀ l, storePlace? path = some l → l = here) (steady : Steady path filed rows t) (agree : Agree apart t t') :
    Steady path filed rows t' := by
  cases steady with
  | filed names rest =>
    obtain rfl := leads _ (rest.storePlace?_eq names)
    exact .filed names (rest.of_agree clear outside agree)
  | unfiled named unfiled writable above =>
    exact .unfiled named unfiled writable (above.of_directories fun _ => agree.kinds.hasDirectory)

theorem AgreeAt.agree (agree : AgreeAt apart here .identical t t') : Agree apart t t' := by
  refine ⟨agree.kinds, fun l inside => ?_⟩
  by_cases at_here : l = here
  · rw [at_here]
    exact agree.there.1
  · exact agree.items at_here inside

/-- Whether a store can be used does not depend on other files, such as the log. -/
theorem Usable.of_agree (clear : Clear apart ((storePlace? path).getD [])) (outside : ¬apart ((storePlace? path).getD []))
    (usable : Usable path filed rows t) (agree : Agree apart t t') : Usable path filed rows t' := by
  obtain ⟨o, u, entered, found, writes⟩ := usable
  have leads (l : Location) (there : storePlace? path = some l) : l = (storePlace? path).getD [] := by rw [there]; rfl
  have agreeAt : AgreeAt apart ((storePlace? path).getD []) .identical t t' :=
    ⟨agree.mono fun _ => .inr, agree.items _ outside, trivial⟩
  have paired := matches_enterStore clear leads t t' agreeAt
  rw [entered] at paired
  generalize entered' : perform (enterStore path) t' = right at paired
  cases paired with
  | @done _ o' _ u' alike agree' =>
    refine ⟨o', u', entered', (Tool.rows_eq_of_sameStore alike).symm.trans found, fun key value => ?_⟩
    obtain ⟨v, written, steady⟩ := writes key value
    have put (files : ItemRelation.identical.holds (some (.store o.file)) (some (.store o'.file))) :
        ItemRelation.identical.holds (some (.store (o.file.put key value))) (some (.store (o'.file.put key value))) :=
      ⟨by rw [FileItem.store.inj (Option.some.inj files.1)], trivial⟩
    rcases paired_writeStore clear leads alike put agree' with ⟨fault, _, _, failed, -⟩ | ⟨_, v', left, right, later⟩
    · rw [written] at failed
      cases failed
    · rw [written] at left
      cases left
      exact ⟨v', right, steady.of_agree clear outside leads (later.elim (fun done => AgreeAt.agree done.2) fun done => AgreeAt.agree done.2)⟩

end Agree

end AbiRecovery.FileTree
