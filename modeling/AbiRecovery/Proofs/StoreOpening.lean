import AbiRecovery.Proofs.Action
import AbiRecovery.Proofs.FileAgreement

/-!
# Opening a store in trees that agree

How the opening of a store goes depends on the items at its place and beside it, and of other files on
nothing but that they are there. So in two trees that agree but for other files, and whose items at the place
of the store are alike in what opening looks at, a store is opened in the same way, and what has been related
at its place stays related.
-/
namespace AbiRecovery

open FileTree

/-- What two items hold, related: the same fault, the same bytes in which there is no store yet, or two stores
that began with the same bytes. -/
inductive HeldAlike (related : Option FileItem → Option FileItem → Prop) :
    Except FileFault Held → Except FileFault Held → Prop where
  | fault (fault : FileFault) : HeldAlike related (.error fault) (.error fault)
  | bytes (base : Bytes) (fresh : related (some (.store ⟨base, [], []⟩)) (some (.store ⟨base, [], []⟩))) :
      HeldAlike related (.ok (.error base)) (.ok (.error base))
  | file (f g : Store.File) (base : f.base = g.base) (kept : related (some (.store f)) (some (.store g))) :
      HeldAlike related (.ok (.ok f)) (.ok (.ok g))

/-- A relation of items that are alike in what opening a store looks at, and stay so while it is opened. -/
structure ItemRelation where
  holds : Option FileItem → Option FileItem → Prop
  kind {a b : Option FileItem} : holds a b → a.map FileItem.isDirectory = b.map FileItem.isDirectory
  directory : holds none none → holds (some .directory) (some .directory)
  emptyFile : holds none none → holds (some (.file [])) (some (.file []))
  blank {a b : FileItem} : holds (some a) (some b) → isBlank a = isBlank b
  declaring {a b : FileItem} : holds (some a) (some b) → declaringBytes a = declaringBytes b
  settle {a b : FileItem} : holds (some a) (some b) → holds (some (settledItem a)) (some (settledItem b))
  settled {a b : FileItem} : holds (some a) (some b) → (settledItem a = a ↔ settledItem b = b)
  held {a b : FileItem} (path : Location) : holds (some a) (some b) →
    HeldAlike holds (Held.ofItem path a) (Held.ofItem path b)

/-- Two trees with related items at the place of a store that agree elsewhere but for the files `apart`. -/
structure AgreeAt (apart : Location → Prop) (here : Location) (rel : ItemRelation) (t t' : FileTree) : Prop where
  elsewhere : Agree (fun l => l = here ∨ apart l) t t'
  there : rel.holds (t.itemAt? here) (t'.itemAt? here)

namespace AgreeAt

variable {apart : Location → Prop} {here : Location} {rel : ItemRelation} {t t' : FileTree}

theorem kinds (agree : AgreeAt apart here rel t t') : SameKinds t t' := agree.elsewhere.kinds

theorem items (agree : AgreeAt apart here rel t t') {l : Location} (other : l ≠ here) (inside : ¬apart l) :
    t.itemAt? l = t'.itemAt? l :=
  agree.elsewhere.items l fun out => out.elim other inside

/-- Related items are put at the place of the store. -/
theorem placeHere {rel' : ItemRelation} (agree : AgreeAt apart here rel t t') (inner : here.isBase = false)
    {a b : FileItem} (related : rel'.holds (some a) (some b)) :
    AgreeAt apart here rel' (t.place here a) (t'.place here b) := by
  constructor
  case elsewhere =>
    have kind : a.isDirectory = b.isDirectory := by simpa using rel'.kind related
    exact agree.elsewhere.place here kind fun outside => absurd (.inl rfl) outside
  case there =>
    rw [itemAt?_place, itemAt?_place, if_pos ⟨rfl, inner⟩, if_pos ⟨rfl, inner⟩]
    exact related

/-- The same item is put anywhere else. -/
theorem placeOther (agree : AgreeAt apart here rel t t') {l : Location} (other : l ≠ here) (item : FileItem) :
    AgreeAt apart here rel (t.place l item) (t'.place l item) := by
  constructor
  case elsewhere => exact agree.elsewhere.place l rfl fun _ => rfl
  case there =>
    rw [itemAt?_place, itemAt?_place, if_neg fun at_here => other at_here.1, if_neg fun at_here => other at_here.1]
    exact agree.there

theorem withoutOther (agree : AgreeAt apart here rel t t') {l : Location} (other : l ≠ here) :
    AgreeAt apart here rel (t.without l) (t'.without l) := by
  constructor
  case elsewhere => exact agree.elsewhere.without l
  case there =>
    rw [itemAt?_without, itemAt?_without, if_neg fun at_here => other at_here.1,
      if_neg fun at_here => other at_here.1]
    exact agree.there

theorem makeDirectory (agree : AgreeAt apart here rel t t') (path : Location) :
    (∃ fault, t.makeDirectory path = .error fault ∧ t'.makeDirectory path = .error fault) ∨
    (∃ u u', t.makeDirectory path = .ok u ∧ t'.makeDirectory path = .ok u' ∧ AgreeAt apart here rel u u') := by
  unfold FileTree.makeDirectory FileTree.find?
  rw [agree.kinds.resolve path]
  cases t'.resolve path with
  | error fault => exact .inl ⟨fault, rfl, rfl⟩
  | ok l =>
    simp only [Functor.map, Except.map]
    rcases agree.kinds.cases l with ⟨left, right⟩ | ⟨left, right⟩ | ⟨a, b, left, right, file, file'⟩
    · rw [left, right]
      refine .inr ⟨_, _, rfl, rfl, ?_⟩
      by_cases same : l = here
      · subst same
        have inner : l.isBase = false := by
          cases base : l.isBase with
          | false => rfl
          | true => rw [itemAt?_of_isBase t base] at left; cases left
        have gone := agree.there
        rw [left, right] at gone
        exact agree.placeHere inner (rel.directory gone)
      · exact agree.placeOther same _
    · rw [left, right]
      exact .inr ⟨t, t', rfl, rfl, agree⟩
    · rw [left, right]
      cases a <;> cases b <;>
        first | (cases file; done) | (cases file'; done) | exact .inl ⟨_, rfl, rfl⟩

theorem makeDirectoriesUp (agree : AgreeAt apart here rel t t') (parts : List Text) :
    AgreeAt apart here rel (t.makeDirectoriesUp parts).1 (t'.makeDirectoriesUp parts).1 ∧
      (t.makeDirectoriesUp parts).2 = (t'.makeDirectoriesUp parts).2 := by
  induction parts generalizing t t' with
  | nil => exact ⟨agree, rfl⟩
  | cons part above ih =>
    unfold FileTree.makeDirectoriesUp
    rcases agree.makeDirectory (part :: above).reverse with ⟨fault, left, right⟩ | ⟨u, u', left, right, agree⟩
    · rw [left, right]
      dsimp only
      split
      · obtain ⟨later, same⟩ := ih agree
        revert later same
        generalize t.makeDirectoriesUp above = first
        generalize t'.makeDirectoriesUp above = second
        obtain ⟨u, fault?⟩ := first
        obtain ⟨u', fault?'⟩ := second
        intro later (same : fault? = fault?')
        subst same
        cases fault? with
        | some fault => exact ⟨later, rfl⟩
        | none =>
          rcases later.makeDirectory (part :: above).reverse with
            ⟨fault, left, right⟩ | ⟨v, v', left, right, agree⟩
          · simp only [left, right, attempt]
            exact ⟨later, trivial⟩
          · simp only [left, right, attempt]
            exact ⟨agree, trivial⟩
      · exact ⟨agree, rfl⟩
    · rw [left, right]
      exact ⟨agree, rfl⟩

/-- The directories that are made for a path are the same. -/
theorem makeDirectories (agree : AgreeAt apart here rel t t') (path : Location) :
    AgreeAt apart here rel (t.makeDirectories path).1 (t'.makeDirectories path).1 ∧
      (t.makeDirectories path).2 = (t'.makeDirectories path).2 :=
  agree.makeDirectoriesUp path.reverse

end AgreeAt

namespace FileTree

theorem beside_ne {here : Location} {ending : Text} (named : ending ≠ []) : beside here ending ≠ here := by
  unfold beside
  intro same
  rcases List.eq_nil_or_concat here with rfl | ⟨above, name, rfl⟩
  · simp at same
  · simp at same
    exact named same

/-- What the names of the files beside a store end in. -/
def endings : List Text := [journalEnding, aheadEnding, indexEnding]

theorem beside_ne_of_mem {here : Location} {ending : Text} (known : ending ∈ endings) :
    beside here ending ≠ here :=
  beside_ne fun empty => by
    subst empty
    exact absurd known (by decide)

theorem isDirectory_iff {a b : Option FileItem}
    (kind : a.map FileItem.isDirectory = b.map FileItem.isDirectory) : a = some .directory ↔ b = some .directory := by
  rcases a with _ | (_ | _ | _) <;> rcases b with _ | (_ | _ | _) <;> simp_all [FileItem.isDirectory]

section Steps

variable {apart : Location → Prop} {here : Location} {rel : ItemRelation}

/-- The trees agree where the files beside a store stand. -/
def Clear (apart : Location → Prop) (here : Location) : Prop := ∀ ending ∈ endings, ¬apart (beside here ending)

theorem matches_fail {α β : Type} {values : α → β → Prop} (path : Location) (cause : FileFault.Cause) :
    Matches (AgreeAt apart here rel) values (fail path cause : Change α) (fail path cause) :=
  Matches.throw

theorem matches_item?_here :
    Matches (AgreeAt apart here rel) (fun a b => rel.holds a b ∧ (here.isBase → a = some .directory)) (item? here) (item? here) :=
  fun t _ agree => .done ⟨agree.there, fun base => itemAt?_of_isBase t base⟩ agree

theorem matches_item?_kind (l : Location) :
    Matches (AgreeAt apart here rel) (fun a b => a.map FileItem.isDirectory = b.map FileItem.isDirectory)
      (item? l) (item? l) :=
  fun _ _ agree => .done (agree.kinds.kinds l) agree

theorem matches_item?_beside (clear : Clear apart here) {ending : Text} (known : ending ∈ endings) :
    Matches (AgreeAt apart here rel) Eq (item? (beside here ending)) (item? (beside here ending)) :=
  fun _ _ agree => .done (agree.items (beside_ne_of_mem known) (clear ending known)) agree

theorem matches_clear {ending : Text} (known : ending ∈ endings) :
    Matches (AgreeAt apart here rel) Eq (FileTree.clear (beside here ending)) (FileTree.clear (beside here ending)) :=
  Matches.modify fun _ _ agree => agree.withoutOther (beside_ne_of_mem known)

theorem matches_place_beside {ending : Text} (known : ending ∈ endings) (item : FileItem) :
    Matches (AgreeAt apart here rel) Eq
      (modify fun t => t.place (beside here ending) item : Change PUnit)
      (modify fun t => t.place (beside here ending) item) :=
  Matches.modify fun _ _ agree => agree.placeOther (beside_ne_of_mem known) item

theorem matches_clearJournal (clear : Clear apart here) (path : Location) (name : Store.Name) (isEmpty : Bool) :
    Matches (AgreeAt apart here rel) Eq (clearJournal path here name isEmpty) (clearJournal path here name isEmpty) := by
  unfold clearJournal
  refine (matches_item?_beside clear (by decide)).bind fun item? _ same => ?_
  subst same
  cases item? with
  | none => exact Matches.pure rfl
  | some item =>
    cases item with
    | directory =>
      dsimp only
      split
      · exact Matches.pure rfl
      · exact matches_fail _ _
    | file _ | store _ =>
      dsimp only
      repeat' split
      all_goals first | exact Matches.pure rfl | exact matches_fail _ _ | exact matches_clear (by decide)

theorem matches_indexAhead (clear : Clear apart here) (path : Location) (name : Store.Name) :
    Matches (AgreeAt apart here rel) Eq (indexAhead path here name) (indexAhead path here name) := by
  unfold indexAhead
  split
  · exact matches_fail _ _
  · refine (matches_item?_beside clear (by decide)).bind fun ahead? _ same => ?_
    subst same
    refine Matches.guarded Iff.rfl (matches_place_beside (by decide) _) ?_
    refine (matches_item?_beside clear (by decide)).bind fun index? _ same => ?_
    subst same
    split
    · exact matches_place_beside (by decide) _
    · exact Matches.pure rfl

theorem matches_beginAhead (clear : Clear apart here) (path : Location) (name : Store.Name) (isEmpty : Bool) :
    Matches (AgreeAt apart here rel) Eq (beginAhead path here name isEmpty) (beginAhead path here name isEmpty) := by
  unfold beginAhead
  refine (matches_item?_beside clear (by decide)).bind fun item? _ same => ?_
  subst same
  cases item? with
  | none => exact Matches.pure rfl
  | some item =>
    cases item with
    | directory => exact matches_fail _ _
    | file _ | store _ =>
      dsimp only
      split
      · exact Matches.pure rfl
      · split
        · exact (matches_clear (by decide)).bind fun _ _ _ => Matches.pure rfl
        · exact (matches_indexAhead clear path name).bind fun _ _ _ => Matches.pure rfl

theorem matches_endAhead (clear : Clear apart here) (name : Store.Name) :
    Matches (AgreeAt apart here rel) Eq (endAhead here name) (endAhead here name) := by
  unfold endAhead
  dsimp only
  split
  · exact Matches.pure rfl
  · refine (matches_item?_beside clear (by decide)).bind fun index? _ same => ?_
    subst same
    split
    · exact Matches.pure rfl
    · refine (matches_clear (by decide)).bind fun _ _ _ => ?_
      exact Matches.guarded Iff.rfl (matches_clear (by decide)) (Matches.pure rfl)

theorem matches_makeStoreFile (path : Location) (access : Store.Access) :
    Matches (AgreeAt apart here rel) (fun a b => rel.holds (some a) (some b) ∧ here.isBase = false)
      (makeStoreFile path here access) (makeStoreFile path here access) := by
  unfold makeStoreFile
  refine matches_item?_here.bind fun item? item?' ⟨related, base⟩ => ?_
  have kind := rel.kind related
  have inner (other : item? ≠ some .directory) : here.isBase = false :=
    Bool.eq_false_iff.mpr fun isBase => other (base isBase)
  cases item? with
  | none =>
    cases item?' with
    | some b => cases kind
    | none =>
      refine (matches_item?_kind here.above).bind fun above? above?' same => ?_
      have same : above? = some .directory ↔ above?' = some .directory := isDirectory_iff same
      simp only [same]
      split
      · refine Matches.seq ?_ (Matches.pure ⟨rel.emptyFile related, inner nofun⟩)
        exact Matches.modify fun _ _ agree => agree.placeHere (inner nofun) (rel.emptyFile related)
      · exact matches_fail _ _
  | some a =>
    cases item?' with
    | none => cases kind
    | some b =>
      have kind : a.isDirectory = b.isDirectory := by simpa using kind
      cases a with
      | directory =>
        cases b with
        | directory => exact matches_fail _ _
        | file _ | store _ => cases kind
      | file _ | store _ =>
        cases b with
        | directory => cases kind
        | file _ | store _ => exact Matches.pure ⟨related, inner nofun⟩

theorem matches_settle (clear : Clear apart here) (inner : here.isBase = false) (path : Location) {a b : FileItem}
    (related : rel.holds (some a) (some b)) :
    Matches (AgreeAt apart here rel) (fun c d => rel.holds (some c) (some d) ∧ (c = a ↔ d = b)) (settle path here a)
      (settle path here b) := by
  unfold settle
  rw [rel.declaring related]
  dsimp only
  refine (matches_item?_beside clear (by decide)).bind fun journal? _ same => ?_
  subst same
  by_cases barred : Database.isWriteBarred (declaringBytes b)
  · simp only [barred, if_true]
    exact Matches.guarded (by simp) (matches_clear (by decide)) (matches_fail _ _)
  · simp only [if_neg barred]
    refine Matches.guarded (by simp [rel.settled related]) (matches_clear (by decide)) ?_
    refine Matches.seq ?_ (Matches.pure ⟨rel.settle related, rel.settled related⟩)
    exact Matches.modify fun _ _ agree => agree.placeHere inner (rel.settle related)

/-- What is held, related as by `HeldAlike`. -/
def HeldValues (rel : ItemRelation) (held held' : Held) : Prop := HeldAlike rel.holds (.ok held) (.ok held')

theorem matches_ofItem (path : Location) {a b : FileItem} (related : rel.holds (some a) (some b)) :
    Matches (AgreeAt apart here rel) (HeldValues rel) (liftM (Held.ofItem path a) : Change Held)
      (liftM (Held.ofItem path b)) := by
  intro t t' agree
  have held := rel.held path related
  show Paired _ _ (Held.ofItem path a, t) (Held.ofItem path b, t')
  revert held
  generalize Held.ofItem path a = left
  generalize Held.ofItem path b = right
  intro held
  cases held with
  | fault fault => exact .failed agree
  | bytes base fresh => exact .done (.bytes base fresh) agree
  | file f g base kept => exact .done (.file f g base kept) agree

theorem matches_readHeld (clear : Clear apart here) (inner : here.isBase = false) (path : Location)
    (name : Store.Name) {a b : FileItem} (related : rel.holds (some a) (some b)) :
    Matches (AgreeAt apart here rel) (HeldValues rel) (readHeld path here name a) (readHeld path here name b) := by
  unfold readHeld
  rw [rel.blank related, rel.declaring related]
  split
  · exact matches_ofItem path related
  · refine Matches.guarded Iff.rfl (matches_clearJournal clear path name _) ?_
    refine (matches_beginAhead clear path name _).bind fun isBegun _ same => ?_
    subst same
    refine Matches.guarded Iff.rfl (matches_indexAhead clear path name) ?_
    split
    · refine (matches_endAhead clear name).bind fun refusal? _ same => ?_
      subst same
      refine (matches_ofItem path related).bind fun held held' alike => ?_
      cases refusal? with
      | some cause => exact matches_fail _ _
      | none =>
        refine (matches_settle clear inner path related).bind fun c d ⟨settled, same⟩ => ?_
        by_cases unchanged : d = b
        · rw [if_pos unchanged, if_pos (same.mpr unchanged)]
          exact Matches.pure alike
        · rw [if_neg unchanged, if_neg fun c => unchanged (same.mp c)]
          exact matches_ofItem path settled
    · exact matches_ofItem path related

/-- The only place at which the store at a path can be, unless it is in no file or its path is no name. -/
def storePlace? (path : Location) : Option Location :=
  match (perform (storeName path) .empty).1 with
  | .ok name => if name.isUnfiled then none else some (paperLocation name.path)
  | .error _ => none

/-- The name of a store is read without the files. -/
theorem storeName_cases (path : Location) :
    (∃ fault, ∀ t, perform (storeName path) t = (.error fault, t)) ∨
      (∃ name, ∀ t, perform (storeName path) t = (.ok name, t)) := by
  unfold storeName
  cases Text.fileName path.text with
  | error fault => exact .inl ⟨_, fun _ => rfl⟩
  | ok bytes =>
    dsimp only
    split
    · exact .inl ⟨_, fun _ => rfl⟩
    · cases Store.Name.ofText path.text bytes with
      | error fault => exact .inl ⟨_, fun _ => rfl⟩
      | ok name => exact .inr ⟨name, fun _ => rfl⟩

theorem matches_storeName (path : Location) :
    Matches (AgreeAt apart here rel)
      (fun a b => a = b ∧ storePlace? path = if a.isUnfiled then none else some (paperLocation a.path))
      (storeName path) (storeName path) := by
  intro t t' agree
  rcases storeName_cases path with ⟨fault, read⟩ | ⟨name, read⟩
  · rw [read, read]
    exact .failed agree
  · rw [read, read]
    refine .done ⟨rfl, ?_⟩ agree
    unfold storePlace?
    rw [read]

/-- Two places and what is held there, related: no place and no bytes, or the one place and related contents. -/
def FoundAlike (path here : Location) (rel : ItemRelation) (found found' : Option Location × Held) : Prop :=
  (storePlace? path = none ∧ found = (none, .error []) ∧ found' = (none, .error [])) ∨
  (storePlace? path = some here ∧ found.1 = some here ∧ found'.1 = some here ∧ here.isBase = false ∧
    HeldValues rel found.2 found'.2)

theorem matches_findStore (clear : Clear apart here) {path : Location} {name : Store.Name}
    (leads : ∀ l, storePlace? path = some l → l = here)
    (named : storePlace? path = if name.isUnfiled then none else some (paperLocation name.path)) :
    Matches (AgreeAt apart here rel) (FoundAlike path here rel) (findStore path name) (findStore path name) := by
  unfold findStore
  split
  next unfiled =>
    rw [if_pos unfiled] at named
    exact Matches.pure (.inl ⟨named, rfl, rfl⟩)
  next filed =>
    rw [if_neg filed] at named
    refine Matches.get_bind fun t t' agree => ?_
    rw [agree.kinds.storeLocation? name.path]
    cases found : t'.storeLocation? name.path with
    | none => exact matches_fail _ _
    | some l =>
      have at_here : l = here := (storeLocation?_eq_some found).trans (leads _ named)
      subst at_here
      refine (matches_makeStoreFile path name.access).bind fun a b ⟨related, inner⟩ => ?_
      refine (matches_readHeld clear inner path name related).bind fun held held' alike => ?_
      exact Matches.pure (.inr ⟨by rw [named, leads _ named], rfl, rfl, inner, alike⟩)

theorem matches_prepareWrite (clear : Clear apart here) (path : Location) (name : Store.Name)
    {place? : Option Location} (at_here : ∀ l, place? = some l → l = here) (base : Bytes) :
    Matches (AgreeAt apart here rel) Eq (prepareWrite path name place? base) (prepareWrite path name place? base) := by
  unfold prepareWrite
  split
  · exact matches_fail _ _
  · cases place? with
    | none => exact Matches.pure rfl
    | some l =>
      rw [at_here l rfl]
      refine (matches_item?_beside clear (by decide)).bind fun journal? _ same => ?_
      subst same
      split
      · exact matches_fail _ _
      · exact matches_clear (by decide)

/-- Two stores that have been opened, related: under the same name, both in no file and without rows, or both at
the one place with related files that began with the same bytes. -/
structure OpenAlike (path here : Location) (rel : ItemRelation) (o o' : OpenStore) : Prop where
  name : o.name = o'.name
  place : o.place? = storePlace? path
  place' : o'.place? = storePlace? path
  base : o.file.base = o'.file.base
  unfiled : storePlace? path = none → o.file.rows = [] ∧ o'.file.rows = []
  filed : storePlace? path = some here → here.isBase = false ∧ rel.holds (some (.store o.file)) (some (.store o'.file))

/-- Related files are kept in related trees, also where the relation becomes another one. -/
theorem paired_keepStore {rel' : ItemRelation} (inner : here.isBase = false) {f g : Store.File}
    (related : rel'.holds (some (.store f)) (some (.store g))) {t t' : FileTree} (agree : AgreeAt apart here rel t t') :
    Paired (AgreeAt apart here rel') Eq (perform (keepStore (some here) f) t) (perform (keepStore (some here) g) t') :=
  .done rfl (agree.placeHere inner related)

/-- A store is opened in the same way in trees that agree. -/
theorem matches_openStore (clear : Clear apart here) {path : Location}
    (leads : ∀ l, storePlace? path = some l → l = here) :
    Matches (AgreeAt apart here rel) (OpenAlike path here rel) (openStore path) (openStore path) := by
  unfold openStore
  refine (matches_storeName path).bind fun name _ ⟨same, named⟩ => ?_
  subst same
  refine (matches_findStore clear leads named).bind fun found found' alike => ?_
  obtain ⟨place?, held⟩ := found
  obtain ⟨place?', held'⟩ := found'
  rcases alike with ⟨nowhere, left, right⟩ | ⟨there, left, right, inner, alike⟩
  · cases left
    cases right
    refine (matches_prepareWrite clear path name (fun l at_l => by cases at_l) []).seq ?_
    refine Matches.seq (Matches.pure rfl) (Matches.pure ?_)
    exact ⟨rfl, nowhere.symm, nowhere.symm, rfl, fun _ => ⟨rfl, rfl⟩, fun there => by
      rw [nowhere] at there; cases there⟩
  · dsimp only at left right
    subst left right
    have filed : storePlace? path ≠ none := by rw [there]; exact Option.some_ne_none _
    cases alike with
    | file f g base kept =>
      refine Matches.seq (fun t t' agree => paired_keepStore inner kept agree) (Matches.pure ?_)
      exact ⟨rfl, there.symm, there.symm, base, fun nowhere => absurd nowhere filed, fun _ => ⟨inner, kept⟩⟩
    | bytes base fresh =>
      refine (matches_prepareWrite clear path name (fun l at_l => (Option.some.inj at_l).symm) base).seq ?_
      refine Matches.seq (fun t t' agree => paired_keepStore inner fresh agree) (Matches.pure ?_)
      exact ⟨rfl, there.symm, there.symm, rfl, fun nowhere => absurd nowhere filed, fun _ => ⟨inner, fresh⟩⟩

/-- Rows are written in the same way in stores that have been opened in the same way. A write that fails leaves
the items related as they were; one that goes through relates them as the written files are related. -/
theorem paired_writeStore (clear : Clear apart here) {path : Location}
    (leads : ∀ l, storePlace? path = some l → l = here) {rel' : ItemRelation} {o o' : OpenStore}
    (alike : OpenAlike path here rel o o') {key key' : Text} {value value' : Store.Value}
    (put : rel.holds (some (.store o.file)) (some (.store o'.file)) →
      rel'.holds (some (.store (o.file.put key value))) (some (.store (o'.file.put key' value'))))
    {t t' : FileTree} (agree : AgreeAt apart here rel t t') :
    (∃ fault u u', perform (writeStore path o key value) t = (.error fault, u) ∧
      perform (writeStore path o' key' value') t' = (.error fault, u') ∧ AgreeAt apart here rel u u') ∨
    (∃ u u', perform (writeStore path o key value) t = (.ok ⟨⟩, u) ∧
      perform (writeStore path o' key' value') t' = (.ok ⟨⟩, u') ∧
      (storePlace? path = none ∧ AgreeAt apart here rel u u' ∨
        storePlace? path = some here ∧ AgreeAt apart here rel' u u')) := by
  have at_here (l : Location) (there : o.place? = some l) : l = here := leads l (alike.place.symm.trans there)
  have prepared := matches_prepareWrite clear path o.name at_here o.file.base t t' agree
  unfold writeStore
  rw [← alike.name, ← alike.base, alike.place', ← alike.place, perform_bind, perform_bind]
  revert prepared
  generalize perform (prepareWrite path o.name o.place? o.file.base) t = left
  generalize perform (prepareWrite path o.name o.place? o.file.base) t' = right
  intro prepared
  cases prepared with
  | failed agree => exact .inl ⟨_, _, _, rfl, rfl, agree⟩
  | @done _ _ u u' _ agree =>
    refine .inr ?_
    dsimp only
    rw [alike.place]
    cases there : storePlace? path with
    | none => exact ⟨u, u', rfl, rfl, .inl ⟨rfl, agree⟩⟩
    | some l =>
      obtain rfl : l = here := leads l there
      obtain ⟨inner, related⟩ := alike.filed there
      exact ⟨_, _, rfl, rfl, .inr ⟨rfl, agree.placeHere inner (put related)⟩⟩

end Steps

end FileTree

end AbiRecovery
