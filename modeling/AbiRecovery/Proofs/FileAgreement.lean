import AbiRecovery.FileTree.Store

/-!
# Trees of files that agree

Where a path leads depends on where there are directories and where there are files, and not on what the
files hold. So two trees in one directory whose locations have the same kinds are walked in the same way.
-/
namespace AbiRecovery

/-- Whether an item is a directory. -/
def FileItem.isDirectory : FileItem → Bool
  | .directory => true
  | .file _ | .store _ => false

namespace FileTree

@[simp]
theorem itemAt?_of_isBase (t : FileTree) {here : Location} (base : here.isBase) :
    t.itemAt? here = some .directory := by
  unfold itemAt?
  rw [if_pos base]

@[grind =]
theorem itemAt?_place (t : FileTree) (here l : Location) (item : FileItem) :
    (t.place here item).itemAt? l = if here = l ∧ l.isBase = false then some item else t.itemAt? l := by
  unfold itemAt? place
  rw [OrderedMap.get?_insert]
  cases l.isBase <;> simp

@[grind =]
theorem itemAt?_without (t : FileTree) (here l : Location) :
    (t.without here).itemAt? l = if here = l ∧ l.isBase = false then none else t.itemAt? l := by
  unfold itemAt? without
  rw [OrderedMap.get?_erase]
  cases l.isBase <;> simp

/-- What is at a location as far as paths go: nothing, a directory, or a file whatever it holds. -/
def kindAt? (t : FileTree) (here : Location) : Option Bool := (t.itemAt? here).map FileItem.isDirectory

theorem pathSize_eq {t t' : FileTree} (base : t.baseSizes = t'.baseSizes) (l : Location) : t.pathSize l = t'.pathSize l := by
  unfold pathSize
  rw [base]

/-- Two trees under one path with directories and files at the same locations. -/
structure SameKinds (t t' : FileTree) : Prop where
  kinds : ∀ l, t.kindAt? l = t'.kindAt? l
  base : t.baseSizes = t'.baseSizes

namespace SameKinds

variable {t t' : FileTree}

/-- At each location there is nothing, a directory, or some file in both trees. -/
theorem cases (same : SameKinds t t') (l : Location) :
    (t.itemAt? l = none ∧ t'.itemAt? l = none) ∨
    (t.itemAt? l = some .directory ∧ t'.itemAt? l = some .directory) ∨
    (∃ a b, t.itemAt? l = some a ∧ t'.itemAt? l = some b ∧ a.isDirectory = false ∧ b.isDirectory = false) := by
  have kinds := same.kinds l
  unfold kindAt? at kinds
  cases left : t.itemAt? l with
  | none =>
    rw [left] at kinds
    exact .inl ⟨rfl, Option.map_eq_none_iff.mp kinds.symm⟩
  | some a =>
    cases right : t'.itemAt? l with
    | none => simp [left, right] at kinds
    | some b =>
      have kinds : a.isDirectory = b.isDirectory := by simpa [left, right] using kinds
      cases a <;> cases b <;> simp_all [FileItem.isDirectory]

theorem follow (same : SameKinds t t') (parts : List Text) (l : Location) : t.follow l parts = t'.follow l parts := by
  induction parts generalizing l with
  | nil => rfl
  | cons part rest ih =>
    unfold FileTree.follow
    rcases same.cases l with ⟨left, right⟩ | ⟨left, right⟩ | ⟨a, b, left, right, file, file'⟩
    · rw [left, right]
    · rw [left, right, ih, ih]
    · rw [left, right]
      cases a <;> cases b <;> first | (cases file; done) | (cases file'; done) | rfl

theorem resolve (same : SameKinds t t') (path : Location) : t.resolve path = t'.resolve path := by
  unfold FileTree.resolve
  cases path with
  | nil => rfl
  | cons first rest => simp only [same.follow]

theorem storeStep? (same : SameKinds t t') (l : Location) (part : Text) :
    t.storeStep? l part = t'.storeStep? l part := by
  unfold FileTree.storeStep?
  rw [pathSize_eq same.base]
  rcases same.cases l with ⟨left, right⟩ | ⟨left, right⟩ | ⟨a, b, left, right, file, file'⟩
  · rw [left, right]
  · rw [left, right]
  · rw [left, right]
    cases a <;> cases b <;> first | (cases file; done) | (cases file'; done) | rfl

theorem storeLocation? (same : SameKinds t t') (path : Text) : t.storeLocation? path = t'.storeLocation? path := by
  unfold FileTree.storeLocation?
  rw [show t.storeStep? = t'.storeStep? from funext fun l => funext fun part => same.storeStep? l part,
    show t.pathSize = t'.pathSize from funext (pathSize_eq same.base)]

end SameKinds

/-- Where a part of the path of a store leads on paper. -/
def paperStep (here : Location) (part : Text) : Location := if part = Location.up then here.above else here ++ [part]

/-- Where the path of a store leads on paper, whatever the files are. -/
def paperLocation (path : Text) : Location :=
  match Location.ofText path with
  | first :: rest => if Location.roots.contains first then rest.foldl paperStep [Location.root]
      else (first :: rest).foldl paperStep []
  | [] => []

theorem foldlM_storeStep? {t : FileTree} {parts : List Text} {start l : Location}
    (found : parts.foldlM t.storeStep? start = some l) : l = parts.foldl paperStep start := by
  induction parts generalizing start with
  | nil => exact (Option.some.inj found).symm
  | cons part rest ih =>
    obtain ⟨next, step, found⟩ := Option.bind_eq_some_iff.mp found
    have paper : next = paperStep start part := by
      unfold storeStep? at step
      unfold paperStep
      split at step
      next up => rw [if_pos up]; exact (Option.some.inj step).symm
      next down =>
        rw [if_neg down]
        exact (Option.some.inj (Option.ite_none_left_eq_some.mp step).2).symm
    rw [ih found, paper, List.foldl_cons]

/-- The path of a store leads nowhere but to its place on paper. -/
theorem storeLocation?_eq_some {t : FileTree} {path : Text} {l : Location} (found : t.storeLocation? path = some l) :
    l = paperLocation path := by
  unfold storeLocation? at found
  obtain ⟨found, -⟩ := Option.filter_eq_some_iff.mp found
  unfold paperLocation
  cases parts : Location.ofText path with
  | nil =>
    rw [parts] at found
    exact foldlM_storeStep? found
  | cons first rest =>
    rw [parts] at found
    dsimp only at found ⊢
    split at found
    next root => rw [if_pos root]; exact foldlM_storeStep? found
    next inside => rw [if_neg inside]; exact foldlM_storeStep? found

/-- Two trees with the same items, but for the content of the files at some locations. -/
structure Agree (apart : Location → Prop) (t t' : FileTree) : Prop where
  kinds : SameKinds t t'
  items : ∀ l, ¬apart l → t.itemAt? l = t'.itemAt? l

namespace Agree

variable {apart : Location → Prop} {t t' t'' : FileTree}

theorem refl (t : FileTree) : Agree apart t t := ⟨⟨fun _ => rfl, rfl⟩, fun _ _ => rfl⟩

theorem symm (same : Agree apart t t') : Agree apart t' t :=
  ⟨⟨fun l => (same.kinds.kinds l).symm, same.kinds.base.symm⟩, fun l inside => (same.items l inside).symm⟩

theorem trans (first : Agree apart t t') (second : Agree apart t' t'') : Agree apart t t'' :=
  ⟨⟨fun l => (first.kinds.kinds l).trans (second.kinds.kinds l), first.kinds.base.trans second.kinds.base⟩,
    fun l inside => (first.items l inside).trans (second.items l inside)⟩

theorem mono {more : Location → Prop} (same : Agree apart t t') (fewer : ∀ l, apart l → more l) : Agree more t t' :=
  ⟨same.kinds, fun l inside => same.items l fun out => inside (fewer l out)⟩

/-- Items of one kind at one location, the same one unless the trees may differ there. -/
theorem place (same : Agree apart t t') (here : Location) {a b : FileItem} (kind : a.isDirectory = b.isDirectory)
    (item : ¬apart here → a = b) : Agree apart (t.place here a) (t'.place here b) := by
  constructor
  case kinds =>
    refine ⟨fun l => ?_, same.kinds.base⟩
    have before := same.kinds.kinds l
    unfold kindAt? at before ⊢
    rw [itemAt?_place, itemAt?_place]
    split
    · simpa using kind
    · exact before
  case items =>
    intro l inside
    rw [itemAt?_place, itemAt?_place]
    split
    next at_l => rw [item (at_l.1 ▸ inside)]
    next => exact same.items l inside

/-- The content of a file is changed where the trees may differ. -/
theorem update {here : Location} {a b : FileItem} (found : t.itemAt? here = some a)
    (kind : a.isDirectory = b.isDirectory) (outside : apart here) : Agree apart t (t.place here b) := by
  constructor
  case kinds =>
    refine ⟨fun l => ?_, rfl⟩
    unfold kindAt?
    rw [itemAt?_place]
    split
    next at_l => rw [← at_l.1, found, Option.map_some, Option.map_some, kind]
    next => rfl
  case items =>
    intro l inside
    rw [itemAt?_place, if_neg]
    rintro ⟨rfl, -⟩
    exact inside outside

theorem without (same : Agree apart t t') (here : Location) : Agree apart (t.without here) (t'.without here) := by
  constructor
  case kinds =>
    refine ⟨fun l => ?_, same.kinds.base⟩
    have before := same.kinds.kinds l
    unfold kindAt? at before ⊢
    rw [itemAt?_without, itemAt?_without]
    split
    · rfl
    · exact before
  case items =>
    intro l inside
    rw [itemAt?_without, itemAt?_without, same.items l inside]

end Agree

end FileTree

end AbiRecovery
