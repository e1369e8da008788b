import AbiRecovery.Proofs.Directories
import AbiRecovery.Proofs.StoreOpening
import AbiRecovery.Proofs.Settling

/-!
# What opening a store leaves

When a store has been opened, and may be written, the directories are as before, no writes to come are left beside
its file, and its file need not be settled again. When it has been written, no journal is left either.
-/
namespace AbiRecovery.FileTree

open Database

variable {path here : Location} {name : Store.Name} {t t' : FileTree}

theorem beside_injective {ending ending' : Text} (same : beside here ending = beside here ending') : ending = ending' := by
  unfold beside at same
  exact List.append_cancel_left (List.cons.inj (List.append_cancel_left same)).1

/-- Where the journal of a store stands. -/
abbrev journalOf (here : Location) : Location := beside here journalEnding

/-- Where the writes to come of a store stand. -/
abbrev aheadOf (here : Location) : Location := beside here aheadEnding

/-- Where the index of the writes to come of a store stands. -/
abbrev indexOf (here : Location) : Location := beside here indexEnding

theorem besides_differ (here : Location) :
    journalOf here ≠ here ∧ aheadOf here ≠ here ∧ indexOf here ≠ here ∧ journalOf here ≠ aheadOf here ∧
      journalOf here ≠ indexOf here ∧ aheadOf here ≠ indexOf here :=
  ⟨beside_ne_of_mem (by decide), beside_ne_of_mem (by decide), beside_ne_of_mem (by decide),
    fun same => absurd (beside_injective same) (by decide), fun same => absurd (beside_injective same) (by decide),
    fun same => absurd (beside_injective same) (by decide)⟩

@[simp]
theorem perform_item? (l : Location) : perform (item? l) t = (.ok (t.itemAt? l), t) := rfl

@[simp]
theorem perform_clear (l : Location) : perform (clear l) t = (.ok ⟨⟩, t.without l) := rfl

@[simp]
theorem perform_fail {α : Type} (cause : FileFault.Cause) :
    perform (fail path cause : Change α) t = (.error ⟨cause, path⟩, t) := rfl

@[simp]
theorem perform_ofItem (item : FileItem) :
    perform (liftM (Held.ofItem path item) : Change Held) t = (Held.ofItem path item, t) := rfl

/-- Where there may be writes to come, there are none. -/
def QuietAhead (here : Location) (t : FileTree) : Prop :=
  ∀ item, t.itemAt? (aheadOf here) = some item → item ≠ .directory ∧ item.bytes?.getD [] = []

/-- What is left when writes to come have been ended. -/
structure EndedAhead (here : Location) (name : Store.Name) (t : FileTree) : Prop where
  marks : name.guard = .marks
  ahead : t.itemAt? (aheadOf here) = none
  index : name.isIndexFiled → t.itemAt? (indexOf here) = none

/-- The bytes that say how what is held is written. -/
def Held.base : Held → Bytes
  | .ok file => file.base
  | .error base => base

/-- If a file says that there may be writes to come, they have been ended, and the file would be settled as it is. -/
def DeclaredEnded (here : Location) (name : Store.Name) (base : Bytes) (t : FileTree) : Prop :=
  writesAhead base → settledBytes base = base ∧ EndedAhead here name t

/-! ## What has gone through -/

theorem clearJournal_ok {isEmpty : Bool} {u : Unit}
    (ran : perform (clearJournal path here name isEmpty) t = (.ok u, t')) :
    SameDirectories t t' ∧ (isEmpty = false → ¬t'.HasDirectory (journalOf here)) := by
  unfold clearJournal at ran
  rw [perform_bind, perform_item?] at ran
  have cleared (free : ¬t.HasDirectory (journalOf here)) :
      SameDirectories t (t.without (journalOf here)) ∧
        (isEmpty = false → ¬(t.without (journalOf here)).HasDirectory (journalOf here)) :=
    have same := SameDirectories.without free
    ⟨same, fun _ directory => free ((same _).mpr directory)⟩
  have kept (free : isEmpty = false → ¬t.HasDirectory (journalOf here)) :
      SameDirectories t t ∧ (isEmpty = false → ¬t.HasDirectory (journalOf here)) := ⟨.refl t, free⟩
  cases item : t.itemAt? (journalOf here) with
  | none =>
    rw [item] at ran
    cases ran
    exact kept fun _ => not_hasDirectory item nofun
  | some a =>
    rw [item] at ran
    cases a with
    | directory =>
      cases isEmpty with
      | true => cases ran; exact kept nofun
      | false => cases ran
    | file _ | store _ =>
      have free : ¬t.HasDirectory (journalOf here) := not_hasDirectory item (by simp)
      dsimp only at ran
      split at ran
      · cases ran
        exact kept fun _ => free
      · split at ran
        · split at ran
          · cases ran
            exact kept fun _ => free
          · cases ran
            exact cleared free
        · split at ran
          · cases ran
            exact kept fun _ => free
          · split at ran
            · cases ran
            · cases ran
              exact cleared free

theorem indexAhead_ok {u : Unit} (ran : perform (indexAhead path here name) t = (.ok u, t')) :
    name.guard = .marks ∧ SameDirectories t t' := by
  unfold indexAhead at ran
  split at ran
  · cases ran
  next marks =>
    refine ⟨Decidable.not_not.mp marks, ?_⟩
    rw [perform_bind, perform_item?] at ran
    dsimp only at ran
    have later (v : FileTree) (ran : perform (do
        if name.isIndexFiled && (← item? (indexOf here)) ≠ some .directory then
          modify fun t => t.place (indexOf here) (.file emptyIndex)) v = (.ok u, t')) : SameDirectories v t' := by
      rw [perform_bind, perform_item?] at ran
      dsimp only at ran
      split at ran
      next filed =>
        cases ran
        refine SameDirectories.place nofun fun directory => ?_
        have at_index : v.itemAt? (indexOf here) = some .directory := directory
        simp [at_index] at filed
      next =>
        cases ran
        exact .refl _
    split at ran
    next missing =>
      rw [perform_bind_ok (perform_modify _ _)] at ran
      have free : ¬t.HasDirectory (aheadOf here) := fun directory => by
        rw [show t.itemAt? (aheadOf here) = some .directory from directory] at missing
        cases missing
      have placed : SameDirectories t (t.place (aheadOf here) (.file [])) := .place nofun free
      exact placed.trans (later _ ran)
    next => exact later _ ran

theorem beginAhead_ok {isEmpty isBegun : Bool}
    (ran : perform (beginAhead path here name isEmpty) t = (.ok isBegun, t')) :
    SameDirectories t t' ∧ ¬t'.HasDirectory (aheadOf here) ∧
      (isBegun = false → QuietAhead here t') ∧ (isBegun = true → isEmpty = false ∧ name.guard = .marks) := by
  unfold beginAhead at ran
  rw [perform_bind, perform_item?] at ran
  cases item : t.itemAt? (aheadOf here) with
  | none =>
    rw [item] at ran
    cases ran
    refine ⟨.refl t, not_hasDirectory item nofun, fun _ a there => ?_, nofun⟩
    rw [item] at there
    cases there
  | some a =>
    rw [item] at ran
    have free (file : a ≠ .directory) : ¬t.HasDirectory (aheadOf here) :=
      not_hasDirectory item fun same => file (Option.some.inj same)
    cases a with
    | directory => cases ran
    | file _ | store _ =>
      have free := free nofun
      dsimp only at ran
      split at ran
      next empty =>
        cases ran
        refine ⟨.refl t, free, fun _ a there => ?_, nofun⟩
        obtain rfl := Option.some.inj (item.symm.trans there)
        exact ⟨nofun, empty⟩
      next =>
        split at ran
        next =>
          cases ran
          have same := SameDirectories.without free
          refine ⟨same, fun directory => free ((same _).mpr directory), fun _ a there => ?_, nofun⟩
          rw [itemAt?_without] at there
          split at there
          · cases there
          next other =>
            rw [item] at there
            exact (other ⟨rfl, isBase_eq_false free⟩).elim
        next nonempty =>
          obtain ⟨u, v, indexed, ran⟩ := bind_ok_cases ran
          obtain ⟨marks, same⟩ := indexAhead_ok indexed
          cases ran
          exact ⟨same, fun directory => free ((same _).mpr directory), nofun, fun _ => ⟨Bool.eq_false_iff.mpr nonempty, marks⟩⟩

theorem endAhead_ok (ran : perform (endAhead here name) t = (.ok none, t')) (free : ¬t.HasDirectory (aheadOf here)) :
    SameDirectories t t' ∧ t'.itemAt? (aheadOf here) = none ∧
      (name.isIndexFiled → t'.itemAt? (indexOf here) = none) := by
  have inner : (aheadOf here).isBase = false := isBase_eq_false free
  have ended : SameDirectories t (t.without (aheadOf here)) := .without free
  have gone : (t.without (aheadOf here)).itemAt? (aheadOf here) = none := by
    rw [itemAt?_without, if_pos ⟨rfl, inner⟩]
  unfold endAhead at ran
  dsimp only at ran
  split at ran
  · cases ran
  · rw [perform_bind, perform_item?] at ran
    dsimp only at ran
    split at ran
    · cases ran
    next open_ =>
      rw [perform_bind_ok (perform_clear _)] at ran
      split at ran
      next filed =>
        rw [perform_bind_ok (perform_clear _)] at ran
        cases ran
        have freeIndex : ¬t.HasDirectory (indexOf here) := fun directory => open_ (by
          simp [filed, show t.itemAt? (indexOf here) = some .directory from directory])
        have freeIndex' : ¬(t.without (aheadOf here)).HasDirectory (indexOf here) :=
          fun directory => freeIndex ((ended _).mpr directory)
        have innerIndex : (indexOf here).isBase = false := isBase_eq_false freeIndex
        refine ⟨ended.trans (.without freeIndex'), ?_, fun _ => ?_⟩
        · rw [itemAt?_without]
          split
          · rfl
          · exact gone
        · rw [itemAt?_without, if_pos ⟨rfl, innerIndex⟩]
      next unfiled =>
        cases ran
        exact ⟨ended, gone, fun filed => absurd filed unfiled⟩

theorem settle_ok {item settled : FileItem} (ran : perform (settle path here item) t = (.ok settled, t'))
    (file : item ≠ .directory) (free : ¬t.HasDirectory (journalOf here)) (free' : ¬t.HasDirectory here) :
    settled = settledItem item ∧ settled ≠ .directory ∧ SameDirectories t t' ∧
      ∀ l, l ≠ here → l ≠ journalOf here → t'.itemAt? l = t.itemAt? l := by
  have file' : settledItem item ≠ .directory := by
    cases item with
    | directory => exact absurd rfl file
    | file _ | store _ => nofun
  unfold settle at ran
  dsimp only at ran
  rw [perform_bind, perform_item?] at ran
  dsimp only at ran
  by_cases barred : isWriteBarred (declaringBytes item)
  · simp only [barred, if_true] at ran
    split at ran
    · rw [perform_bind_ok (perform_clear _)] at ran
      cases ran
    · cases ran
  · simp only [if_neg barred] at ran
    have later (v : FileTree) (same : SameDirectories t v)
        (others : ∀ l, l ≠ here → l ≠ journalOf here → v.itemAt? l = t.itemAt? l)
        (ran : perform (do
          modify fun t => t.place here (settledItem item)
          return settledItem item : Change FileItem) v = (.ok settled, t')) :
        settled = settledItem item ∧ settled ≠ .directory ∧ SameDirectories t t' ∧
          ∀ l, l ≠ here → l ≠ journalOf here → t'.itemAt? l = t.itemAt? l := by
      rw [perform_bind_ok (perform_modify _ _)] at ran
      cases ran
      refine ⟨rfl, file', same.trans (.place file' fun directory => free' ((same _).mpr directory)), fun l other beside => ?_⟩
      rw [itemAt?_place, if_neg fun at_l => other at_l.1.symm]
      exact others l other beside
    split at ran
    · rw [perform_bind_ok (perform_clear _)] at ran
      refine later _ (.without free) (fun l _ beside => ?_) ran
      rw [itemAt?_without, if_neg fun at_l => beside at_l.1.symm]
    · exact later _ (.refl t) (fun _ _ _ => rfl) ran

/-- A write that has been prepared has removed the journal. -/
theorem prepareWrite_ok {base : Bytes} {u : Unit} (ran : perform (prepareWrite path name (some here) base) t = (.ok u, t')) :
    name.isWritable ∧ isWriteBarred base = false ∧ ¬((journalOf here).getLastD "").byteCount > maxName ∧
      ¬t.HasDirectory (journalOf here) ∧ t' = t.without (journalOf here) := by
  unfold prepareWrite at ran
  split at ran
  · cases ran
  next allowed =>
    dsimp only at ran
    rw [perform_bind, perform_item?] at ran
    dsimp only at ran
    split at ran
    · cases ran
    next room =>
      cases ran
      simp only [Bool.or_eq_true, Bool.not_eq_true', not_or, Bool.not_eq_false, decide_eq_true_eq] at allowed room
      exact ⟨allowed.1, Bool.eq_false_iff.mpr allowed.2, room.1, room.2, rfl⟩

/-- A file has been made at a free place that is in a directory. -/
theorem makeStoreFile_ok {access : Store.Access} {item : FileItem}
    (ran : perform (makeStoreFile path here access) t = (.ok item, t')) :
    item ≠ .directory ∧ SameDirectories t t' ∧ ¬t.HasDirectory here ∧
      (t.itemAt? here = none →
        item = .file [] ∧ t' = t.place here (.file []) ∧ access = .creating ∧ t.HasDirectory here.above) := by
  unfold makeStoreFile at ran
  rw [perform_bind, perform_item?] at ran
  cases there : t.itemAt? here with
  | none =>
    rw [there] at ran
    dsimp only at ran
    rw [perform_bind, perform_item?] at ran
    dsimp only at ran
    split at ran
    next allowed =>
      rw [perform_bind_ok (perform_modify _ _)] at ran
      cases ran
      have free : ¬t.HasDirectory here := not_hasDirectory there nofun
      simp only [Bool.and_eq_true, decide_eq_true_eq] at allowed
      exact ⟨nofun, .place nofun free, free, fun _ => ⟨rfl, rfl, allowed.2, allowed.1⟩⟩
    next => cases ran
  | some a =>
    rw [there] at ran
    cases a with
    | directory => cases ran
    | file _ | store _ =>
      cases ran
      exact ⟨nofun, .refl t, not_hasDirectory there nofun, nofun⟩

/-- What an item holds began with the bytes that say how it is written, unless they do not count. -/
theorem base_of_ofItem {item : FileItem} {held : Held} (holds : Held.ofItem path item = .ok held) :
    held.base = declaringBytes item ∨ held.base = [] := by
  cases item with
  | directory => cases holds; exact .inr rfl
  | store file => cases holds; exact .inl rfl
  | file content =>
    unfold Held.ofItem Held.ofBytes at holds
    dsimp only at holds
    split at holds
    · cases holds
      exact .inr rfl
    · cases read : Image.ofFile content with
      | error fault => rw [read] at holds; cases holds
      | ok image =>
        rw [read] at holds
        cases rows : Store.File.rowsIn image with
        | error fault =>
          simp only [bind, Except.bind, rows] at holds
          cases holds
        | ok rows? =>
          simp only [bind, Except.bind, rows] at holds
          cases rows? with
          | none => cases holds; exact .inl rfl
          | some rows => cases holds; exact .inl rfl

theorem writesAhead_nil : writesAhead [] = false := by
  unfold writesAhead
  simp

theorem declaringBytes_settledItem {item : FileItem} (file : item ≠ .directory) :
    declaringBytes (settledItem item) = settledBytes (declaringBytes item) := by
  cases item with
  | directory => exact absurd rfl file
  | file _ | store _ => rfl

/-- A file without content that counts says nothing about writes to come. -/
theorem not_blank_of_writesAhead {item : FileItem} (declared : writesAhead (declaringBytes item)) : isBlank item = false := by
  cases item with
  | directory | store _ => rfl
  | file content =>
    match content with
    | [] => rw [declaringBytes, writesAhead_nil] at declared; cases declared
    | [byte] =>
      have none : writesAhead [byte] = false := by
        unfold writesAhead
        simp [Place.readVersion]
      rw [declaringBytes, none] at declared
      cases declared
    | first :: second :: rest => rfl

theorem perform_ofItem_ok {item : FileItem} {held : Held}
    (ran : perform (liftM (Held.ofItem path item) : Change Held) t = (.ok held, t')) :
    Held.ofItem path item = .ok held ∧ t' = t := by
  rw [perform_ofItem] at ran
  exact ⟨(Prod.mk.inj ran).1, (Prod.mk.inj ran).2.symm⟩

/-- Reads what an item holds and ends with the writes to come. -/
def readEnded (path here : Location) (name : Store.Name) (item : FileItem) : Change Held := do
  let refusal? ← endAhead here name
  let held ← Held.ofItem path item
  match refusal? with
  | some cause => fail path cause
  | none =>
    let settled ← settle path here item
    if settled = item then return held else Held.ofItem path settled

/-- Reads what an item holds, where no journal is in the way. -/
def readBegun (path here : Location) (name : Store.Name) (item : FileItem) : Change Held := do
  let isBegun ← beginAhead path here name (isBlank item)
  let isDeclared := writesAhead (declaringBytes item)
  if isDeclared && !isBegun then indexAhead path here name
  if isBegun || isDeclared then readEnded path here name item else Held.ofItem path item

theorem readHeld_eq {item : FileItem} (changing : name.fixed = false) :
    readHeld path here name item =
      (do
        if name.guard ≠ .file then clearJournal path here name (isBlank item)
        readBegun path here name item) := by
  unfold readHeld
  rw [if_neg (by simp [changing])]
  rfl

theorem readEnded_ok {item : FileItem} {held : Held} (marks : name.guard = .marks) (file : item ≠ .directory)
    (freeAhead : ¬t.HasDirectory (aheadOf here)) (freeJournal : ¬t.HasDirectory (journalOf here))
    (free : ¬t.HasDirectory here) (ran : perform (readEnded path here name item) t = (.ok held, t')) :
    SameDirectories t t' ∧ settledBytes held.base = held.base ∧ EndedAhead here name t' := by
  unfold readEnded at ran
  obtain ⟨refusal?, u, ended, ran⟩ := bind_ok_cases ran
  rw [perform_bind, perform_ofItem] at ran
  cases holds : Held.ofItem path item with
  | error fault => rw [holds] at ran; cases ran
  | ok held₁ =>
    rw [holds] at ran
    cases refusal? with
    | some cause => cases ran
    | none =>
      obtain ⟨same, gone, goneIndex⟩ := endAhead_ok ended freeAhead
      obtain ⟨settled, v, settles, ran⟩ := bind_ok_cases ran
      obtain ⟨settled_eq, -, same', others⟩ := settle_ok settles file
        (fun directory => freeJournal ((same _).mpr directory)) fun directory => free ((same _).mpr directory)
      have kept : Held.ofItem path settled = .ok held ∧ t' = v := by
        split at ran
        next unchanged =>
          cases ran
          exact ⟨unchanged ▸ holds, rfl⟩
        next => exact perform_ofItem_ok ran
      obtain ⟨holds', rfl⟩ := kept
      obtain ⟨-, aheadHere, indexHere, aheadJournal, indexJournal, -⟩ := besides_differ here
      refine ⟨same.trans same', ?_, marks, ?_, fun filed => ?_⟩
      · rcases base_of_ofItem holds' with base | base
        · rw [base, settled_eq, declaringBytes_settledItem file, settledBytes_settledBytes]
        · rw [base, settledBytes_nil]
      · exact (others _ aheadHere (Ne.symm aheadJournal)).trans gone
      · exact (others _ indexHere (Ne.symm indexJournal)).trans (goneIndex filed)

theorem EndedAhead.quiet (ended : EndedAhead here name t) : QuietAhead here t := by
  intro item there
  rw [ended.ahead] at there
  cases there

theorem readBegun_ok {item : FileItem} {held : Held} (file : item ≠ .directory) (free : ¬t.HasDirectory here)
    (freeJournal : name.guard ≠ .file → isBlank item = false → ¬t.HasDirectory (journalOf here))
    (ran : perform (readBegun path here name item) t = (.ok held, t')) :
    SameDirectories t t' ∧ QuietAhead here t' ∧ DeclaredEnded here name held.base t' := by
  obtain ⟨isBegun, u, begun, ran⟩ := bind_ok_cases ran
  obtain ⟨same, freeAhead, quiet, open_⟩ := beginAhead_ok begun
  have ended (v : FileTree) (same' : SameDirectories t v) (freeAhead : ¬v.HasDirectory (aheadOf here))
      (marks : name.guard = .marks) (content : isBlank item = false)
      (ran : perform (readEnded path here name item) v = (.ok held, t')) :
      SameDirectories t t' ∧ QuietAhead here t' ∧ DeclaredEnded here name held.base t' := by
    have freeJournal := freeJournal (by rw [marks]; nofun) content
    obtain ⟨same'', settled, ended⟩ := readEnded_ok marks file freeAhead
      (fun directory => freeJournal ((same' _).mpr directory)) (fun directory => free ((same' _).mpr directory)) ran
    exact ⟨same'.trans same'', ended.quiet, fun _ => ⟨settled, ended⟩⟩
  cases isBegun with
  | true =>
    obtain ⟨content, marks⟩ := open_ rfl
    simp only [Bool.not_true, Bool.and_false, Bool.false_eq_true, if_false, Bool.true_or, if_true] at ran
    exact ended u same freeAhead marks content ran
  | false =>
    simp only [Bool.not_false, Bool.and_true, Bool.false_or] at ran
    by_cases declared : writesAhead (declaringBytes item)
    · rw [if_pos declared] at ran
      obtain ⟨_, v, indexed, ran⟩ := bind_ok_cases ran
      obtain ⟨marks, same'⟩ := indexAhead_ok indexed
      rw [if_pos declared] at ran
      exact ended v (same.trans same') (fun directory => freeAhead ((same' _).mpr directory)) marks
        (not_blank_of_writesAhead declared) ran
    · rw [if_neg declared, if_neg declared] at ran
      obtain ⟨holds, rfl⟩ := perform_ofItem_ok ran
      refine ⟨same, quiet rfl, fun declared' => ?_⟩
      rcases base_of_ofItem holds with base | base
      · rw [base] at declared'
        exact absurd declared' declared
      · rw [base, writesAhead_nil] at declared'
        cases declared'

/-- When what a file holds has been read, nothing is left beside it that would have to be ended. -/
theorem readHeld_ok {item : FileItem} {held : Held} (changing : name.fixed = false) (file : item ≠ .directory)
    (free : ¬t.HasDirectory here) (ran : perform (readHeld path here name item) t = (.ok held, t')) :
    SameDirectories t t' ∧ QuietAhead here t' ∧ DeclaredEnded here name held.base t' := by
  rw [readHeld_eq changing] at ran
  split at ran
  next =>
    obtain ⟨_, u, cleared, ran⟩ := bind_ok_cases ran
    obtain ⟨same, freeJournal⟩ := clearJournal_ok cleared
    obtain ⟨same', rest⟩ := readBegun_ok file (fun directory => free ((same _).mpr directory)) (fun _ => freeJournal) ran
    exact ⟨same.trans same', rest⟩
  next unguarded => exact readBegun_ok file free (fun other => absurd other unguarded) ran

/-- An empty file holds nothing yet. -/
theorem readHeld_empty {held : Held} (ran : perform (readHeld path here name (.file [])) t = (.ok held, t')) :
    held = .error [] := by
  have empty (u : FileTree) (ran : perform (liftM (Held.ofItem path (.file [])) : Change Held) u = (.ok held, t')) :
      held = .error [] := by
    obtain ⟨holds, -⟩ := perform_ofItem_ok ran
    cases holds
    rfl
  by_cases changing : name.fixed = false
  · have begun (u : FileTree) (ran : perform (readBegun path here name (.file [])) u = (.ok held, t')) :
        held = .error [] := by
      obtain ⟨isBegun, v, begun, ran⟩ := bind_ok_cases ran
      obtain ⟨-, -, -, open_⟩ := beginAhead_ok begun
      cases isBegun with
      | true => cases (open_ rfl).1
      | false =>
        simp only [declaringBytes, writesAhead_nil, Bool.false_and, Bool.or_false, Bool.false_eq_true, if_false] at ran
        exact empty v ran
    rw [readHeld_eq changing] at ran
    split at ran
    · obtain ⟨_, u, -, ran⟩ := bind_ok_cases ran
      exact begun u ran
    · exact begun t ran
  · unfold readHeld at ran
    rw [if_pos (by simpa using changing)] at ran
    exact empty t ran

/-- How a store in a file has been opened: its place was found, its file was made sure of and read, and if there was
no table yet, one has been made. -/
structure OpenedBy (path here : Location) (o : OpenStore) (t t' : FileTree) (item : FileItem) (u v : FileTree)
    (held : Held) : Prop where
  named : ∀ w, perform (storeName path) w = (.ok o.name, w)
  filed : o.name.isUnfiled = false
  located : t.storeLocation? o.name.path = some here
  made : perform (makeStoreFile path here o.name.access) t = (.ok item, u)
  read : perform (readHeld path here o.name item) u = (.ok held, v)
  kept : (held = .ok o.file ∧ t' = v.place here (.store o.file)) ∨
    ∃ base w, held = .error base ∧ o.file = ⟨base, [], []⟩ ∧
      perform (prepareWrite path o.name (some here) base) v = (.ok ⟨⟩, w) ∧ t' = w.place here (.store o.file)

theorem perform_keepStore (l : Location) (file : Store.File) :
    perform (keepStore (some l) file) t = (.ok ⟨⟩, t.place l (.store file)) := rfl

theorem openStore_ok {o : OpenStore} (ran : perform (openStore path) t = (.ok o, t')) (place : o.place? = some here) :
    ∃ item u v held, OpenedBy path here o t t' item u v held := by
  unfold openStore at ran
  rcases storeName_cases path with ⟨fault, never⟩ | ⟨name, named⟩
  · rw [perform_bind, never] at ran
    cases ran
  · rw [perform_bind_ok (named t)] at ran
    obtain ⟨⟨place?, held⟩, v, found, ran⟩ := bind_ok_cases ran
    unfold findStore at found
    split at found
    next unfiled =>
      cases found
      obtain ⟨_, w, -, ran⟩ := bind_ok_cases ran
      cases ran
      cases place
    next filed =>
      rw [perform_bind, perform_get] at found
      dsimp only at found
      cases located : t.storeLocation? name.path with
      | none => rw [located] at found; cases found
      | some l =>
        rw [located] at found
        obtain ⟨item, u, made, found⟩ := bind_ok_cases found
        obtain ⟨held', v', read, found⟩ := bind_ok_cases found
        cases found
        have opened (file : Store.File) (w : FileTree)
            (ran : perform (do keepStore (some l) file; return ⟨name, some l, file⟩ : Change OpenStore) w = (.ok o, t')) :
            o = ⟨name, some l, file⟩ ∧ t' = w.place l (.store file) := by
          rw [perform_bind_ok (perform_keepStore _ _)] at ran
          exact ⟨(Except.ok.inj (Prod.mk.inj ran).1).symm, (Prod.mk.inj ran).2.symm⟩
        have filed := Bool.eq_false_iff.mpr filed
        cases held with
        | ok file =>
          obtain ⟨rfl, rfl⟩ := opened file v ran
          obtain rfl := Option.some.inj place
          exact ⟨item, u, v, .ok file, named, filed, located, made, read, .inl ⟨rfl, rfl⟩⟩
        | error base =>
          obtain ⟨_, w, prepared, ran⟩ := bind_ok_cases ran
          obtain ⟨rfl, rfl⟩ := opened ⟨base, [], []⟩ w ran
          obtain rfl := Option.some.inj place
          exact ⟨item, u, v, .error base, named, filed, located, made, read, .inr ⟨base, w, rfl, rfl, prepared, rfl⟩⟩

/-- What is known of a store that has been opened and may be written. -/
structure Opened (path here : Location) (o : OpenStore) (t t' : FileTree) : Prop where
  named : ∀ w, perform (storeName path) w = (.ok o.name, w)
  filed : o.name.isUnfiled = false
  inner : here.isBase = false
  located : t.storeLocation? o.name.path = some here
  same : SameDirectories t t'
  quiet : QuietAhead here t'
  declared : DeclaredEnded here o.name o.file.base t'
  there : t'.itemAt? here = some (.store o.file)

theorem fixed_eq_false (filed : name.isUnfiled = false) (writable : name.isWritable) : name.fixed = false := by
  unfold Store.Name.isWritable at writable
  cases fixed : name.fixed with
  | false => rfl
  | true => simp [filed, fixed] at writable

theorem QuietAhead.of_others (quiet : QuietAhead here t) (others : ∀ l, l ≠ here → l ≠ journalOf here → t'.itemAt? l = t.itemAt? l) :
    QuietAhead here t' := by
  obtain ⟨-, aheadHere, -, aheadJournal, -⟩ := besides_differ here
  intro item there
  rw [others _ aheadHere (Ne.symm aheadJournal)] at there
  exact quiet item there

theorem EndedAhead.of_others (ended : EndedAhead here name t)
    (others : ∀ l, l ≠ here → l ≠ journalOf here → t'.itemAt? l = t.itemAt? l) : EndedAhead here name t' := by
  obtain ⟨-, aheadHere, indexHere, aheadJournal, indexJournal, -⟩ := besides_differ here
  exact ⟨ended.marks, (others _ aheadHere (Ne.symm aheadJournal)).trans ended.ahead,
    fun filed => (others _ indexHere (Ne.symm indexJournal)).trans (ended.index filed)⟩

/-- Putting a store at its place, perhaps after its journal has been removed. -/
theorem others_place (here : Location) (item : FileItem) (l : Location) (other : l ≠ here) :
    (t.place here item).itemAt? l = t.itemAt? l := by
  rw [itemAt?_place, if_neg fun at_l => other at_l.1.symm]

theorem others_without (l : Location) (other : l ≠ here) : (t.without here).itemAt? l = t.itemAt? l := by
  rw [itemAt?_without, if_neg fun at_l => other at_l.1.symm]

theorem opened_of_ok {o : OpenStore} (ran : perform (openStore path) t = (.ok o, t')) (place : o.place? = some here)
    (writable : o.name.isWritable) : Opened path here o t t' := by
  obtain ⟨item, u, v, held, opened⟩ := openStore_ok ran place
  obtain ⟨file, same, free, -⟩ := makeStoreFile_ok opened.made
  have free' : ¬u.HasDirectory here := fun directory => free ((same _).mpr directory)
  obtain ⟨same', quiet, declared⟩ := readHeld_ok (fixed_eq_false opened.filed writable) file free' opened.read
  have inner : here.isBase = false := isBase_eq_false free
  have placed (w : FileTree) (same'' : SameDirectories v w) (others : ∀ l, l ≠ journalOf here → w.itemAt? l = v.itemAt? l)
      (base : held.base = o.file.base) (kept : t' = w.place here (.store o.file)) : Opened path here o t t' := by
    subst kept
    have others' (l : Location) (other : l ≠ here) (beside : l ≠ journalOf here) :
        (w.place here (.store o.file)).itemAt? l = v.itemAt? l :=
      (others_place here _ l other).trans (others l beside)
    have same₁ := (same.trans same').trans same''
    have same₂ : SameDirectories w (w.place here (.store o.file)) :=
      .place nofun fun directory => free ((same₁ _).mpr directory)
    refine ⟨opened.named, opened.filed, inner, opened.located, same₁.trans same₂, quiet.of_others others', ?_, ?_⟩
    · intro declares
      obtain ⟨settled, ended⟩ := declared (base ▸ declares)
      exact ⟨base ▸ settled, ended.of_others others'⟩
    · rw [itemAt?_place, if_pos ⟨rfl, inner⟩]
  rcases opened.kept with ⟨rfl, kept⟩ | ⟨base, w, rfl, made, prepared, kept⟩
  · exact placed v (.refl v) (fun _ _ => rfl) rfl kept
  · obtain ⟨-, -, -, freeJournal, rfl⟩ := prepareWrite_ok prepared
    exact placed _ (.without freeJournal) (fun l => others_without l) (by rw [made]; rfl) kept

/-- A store whose file is missing is made without content, and may be written. -/
theorem opened_missing {o : OpenStore} (ran : perform (openStore path) t = (.ok o, t')) (place : o.place? = some here)
    (missing : t.itemAt? here = none) :
    o.name.isWritable ∧ o.file = ⟨[], [], []⟩ ∧ o.name.access = .creating ∧ t.HasDirectory here.above ∧
      ¬((journalOf here).getLastD "").byteCount > maxName ∧ t'.itemAt? (journalOf here) = none := by
  obtain ⟨item, u, v, held, opened⟩ := openStore_ok ran place
  obtain ⟨-, -, -, new⟩ := makeStoreFile_ok opened.made
  obtain ⟨rfl, rfl, creating, above⟩ := new missing
  obtain rfl := readHeld_empty opened.read
  rcases opened.kept with ⟨other, -⟩ | ⟨base, w, held, made, prepared, rfl⟩
  · cases other
  · obtain rfl := Except.error.inj held
    obtain ⟨writable, -, short, freeJournal, rfl⟩ := prepareWrite_ok prepared
    refine ⟨writable, made, creating, above, short, ?_⟩
    rw [others_place _ _ _ (besides_differ here).1, itemAt?_without, if_pos ⟨rfl, isBase_eq_false freeJournal⟩]

end AbiRecovery.FileTree
