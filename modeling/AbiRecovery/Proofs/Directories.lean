import AbiRecovery.Proofs.FileAgreement

/-!
# Directories that stay

Where a path leads depends on the directories that it goes through. What adds directories leaves it leading there,
and a path for which the directories have been made needs no more of them.
-/
namespace AbiRecovery.FileTree

variable {t t' t'' : FileTree}

/-- Whether a location is a directory. -/
def HasDirectory (t : FileTree) (l : Location) : Prop := t.itemAt? l = some .directory

theorem not_hasDirectory {l : Location} {item? : Option FileItem} (there : t.itemAt? l = item?)
    (other : item? ≠ some .directory) : ¬t.HasDirectory l :=
  fun directory => other (there.symm.trans directory)

/-- A base is a directory in every tree. -/
theorem isBase_eq_false {l : Location} (free : ¬t.HasDirectory l) : l.isBase = false := by
  cases base : l.isBase with
  | false => rfl
  | true => exact absurd (itemAt?_of_isBase t base) free

/-- The second tree is the first one with more directories, where nothing has been. -/
def Grown (t t' : FileTree) : Prop := ∀ l, t'.itemAt? l = t.itemAt? l ∨ (t.itemAt? l = none ∧ t'.HasDirectory l)

namespace Grown

theorem refl (t : FileTree) : Grown t t := fun _ => .inl rfl

theorem trans (first : Grown t t') (second : Grown t' t'') : Grown t t'' := by
  intro l
  rcases second l with same | ⟨nothing, directory⟩
  · rcases first l with same' | ⟨nothing, directory⟩
    · exact .inl (same.trans same')
    · exact .inr ⟨nothing, same.trans directory⟩
  · rcases first l with same' | ⟨-, other⟩
    · exact .inr ⟨same'.symm.trans nothing, directory⟩
    · rw [other] at nothing
      cases nothing

theorem keeps (grown : Grown t t') {l : Location} (directory : t.HasDirectory l) : t'.HasDirectory l := by
  rcases grown l with same | ⟨nothing, -⟩
  · exact same.trans directory
  · rw [directory] at nothing
    cases nothing

theorem before (grown : Grown t t') {l : Location} (directory : t'.HasDirectory l) :
    t.HasDirectory l ∨ t.itemAt? l = none := by
  rcases grown l with same | ⟨nothing, -⟩
  · exact .inl (same.symm.trans directory)
  · exact .inr nothing

end Grown

/-- Two trees with the same directories. -/
def SameDirectories (t t' : FileTree) : Prop := ∀ l, t.HasDirectory l ↔ t'.HasDirectory l

namespace SameDirectories

theorem refl (t : FileTree) : SameDirectories t t := fun _ => Iff.rfl

theorem trans (first : SameDirectories t t') (second : SameDirectories t' t'') : SameDirectories t t'' :=
  fun l => (first l).trans (second l)

/-- A file is put where there is no directory. -/
theorem place {here : Location} {item : FileItem} (file : item ≠ .directory) (free : ¬t.HasDirectory here) :
    SameDirectories t (t.place here item) := by
  intro l
  unfold HasDirectory at free ⊢
  rw [itemAt?_place]
  split
  next at_l =>
    rw [← at_l.1]
    exact ⟨fun directory => absurd directory free, fun same => absurd (Option.some.inj same) file⟩
  next => exact Iff.rfl

/-- What is no directory is removed. -/
theorem without {here : Location} (free : ¬t.HasDirectory here) : SameDirectories t (t.without here) := by
  intro l
  unfold HasDirectory at free ⊢
  rw [itemAt?_without]
  split
  next at_l =>
    rw [← at_l.1]
    exact ⟨fun directory => absurd directory free, nofun⟩
  next => exact Iff.rfl

end SameDirectories

/-- The walk from the beginning of a path. -/
def walk (t : FileTree) (path : Location) : Except FileFault.Cause Location :=
  match path with
  | [] => .ok []
  | first :: rest => if Location.roots.contains first then t.follow [first] rest else t.follow [] path

/-- Either a path is no path in any tree, or it is walked. -/
theorem resolve_cases (path : Location) :
    (∃ fault, ∀ t : FileTree, t.resolve path = .error fault) ∨
      ∀ t : FileTree, t.resolve path = (t.walk path).mapError fun cause => ⟨cause, path⟩ := by
  unfold resolve
  cases Text.fileName path.text with
  | error fault => exact .inl ⟨_, fun _ => rfl⟩
  | ok bytes =>
    dsimp only
    split
    · exact .inl ⟨_, fun _ => rfl⟩
    · split
      · exact .inl ⟨_, fun _ => rfl⟩
      · exact .inr fun _ => rfl

/-- A path leads on where directories are kept. -/
theorem follow_of_directories (kept : ∀ l, t.HasDirectory l → t'.HasDirectory l) {parts : List Text} {l d : Location}
    (found : t.follow l parts = .ok d) : t'.follow l parts = .ok d := by
  induction parts generalizing l with
  | nil => exact found
  | cons part rest ih =>
    unfold follow at found ⊢
    cases here : t.itemAt? l with
    | none => rw [here] at found; cases found
    | some item =>
      rw [here] at found
      cases item with
      | file _ | store _ => cases found
      | directory =>
        rw [kept l here]
        dsimp only at found ⊢
        split at found
        · next up => rw [if_pos up]; exact ih found
        · next down =>
          split at found
          · cases found
          · next short => rw [if_neg down, if_neg short]; exact ih found

theorem walk_of_directories (kept : ∀ l, t.HasDirectory l → t'.HasDirectory l) {path d : Location}
    (found : t.walk path = .ok d) : t'.walk path = .ok d := by
  unfold walk at found ⊢
  cases path with
  | nil => exact found
  | cons first rest =>
    dsimp only at found ⊢
    split at found
    · next root => rw [if_pos root]; exact follow_of_directories kept found
    · next inside => rw [if_neg inside]; exact follow_of_directories kept found

theorem walk_of_resolve {path d : Location} (found : t.resolve path = .ok d) : t.walk path = .ok d := by
  rcases resolve_cases path with ⟨fault, never⟩ | walked
  · rw [never] at found
    cases found
  · rw [walked] at found
    cases walk : t.walk path with
    | error cause => rw [walk] at found; cases found
    | ok l => rw [walk] at found; exact congrArg Except.ok (Except.ok.inj found)

theorem resolve_of_directories (kept : ∀ l, t.HasDirectory l → t'.HasDirectory l) {path d : Location}
    (found : t.resolve path = .ok d) : t'.resolve path = .ok d := by
  rcases resolve_cases path with ⟨fault, never⟩ | walked
  · rw [never] at found
    cases found
  · rw [walked, walk_of_directories kept (walk_of_resolve found)]
    rfl

/-- Where a path goes through directories that are not there yet, something on it is missing. -/
theorem follow_before (before : ∀ l, t'.HasDirectory l → t.HasDirectory l ∨ t.itemAt? l = none) {parts : List Text}
    {l d : Location} (found : t'.follow l parts = .ok d) : t.follow l parts = .ok d ∨ t.follow l parts = .error .missing := by
  induction parts generalizing l with
  | nil => exact .inl found
  | cons part rest ih =>
    unfold follow at found ⊢
    cases here : t'.itemAt? l with
    | none => rw [here] at found; cases found
    | some item =>
      rw [here] at found
      cases item with
      | file _ | store _ => cases found
      | directory =>
        rcases before l here with directory | nothing
        · rw [directory]
          dsimp only at found ⊢
          split at found
          · next up => rw [if_pos up]; exact ih found
          · next down =>
            split at found
            · cases found
            · next short => rw [if_neg down, if_neg short]; exact ih found
        · rw [nothing]
          exact .inr rfl

theorem resolve_before (before : ∀ l, t'.HasDirectory l → t.HasDirectory l ∨ t.itemAt? l = none) {path d : Location}
    (found : t'.resolve path = .ok d) : t.resolve path = .ok d ∨ t.resolve path = .error ⟨.missing, path⟩ := by
  have walked' := walk_of_resolve found
  rcases resolve_cases path with ⟨fault, never⟩ | walked
  · rw [never] at found
    cases found
  · rw [walked]
    have reached : t.walk path = .ok d ∨ t.walk path = .error .missing := by
      unfold walk at walked' ⊢
      cases path with
      | nil => exact .inl walked'
      | cons first rest =>
        dsimp only at walked' ⊢
        split at walked'
        · next root => rw [if_pos root]; exact follow_before before walked'
        · next inside => rw [if_neg inside]; exact follow_before before walked'
    rcases reached with same | missing
    · exact .inl (by rw [same]; rfl)
    · exact .inr (by rw [missing]; rfl)

/-- A path leads to a directory. -/
def LeadsToDirectory (t : FileTree) (path : Location) : Prop := ∃ d, t.resolve path = .ok d ∧ t.HasDirectory d

theorem LeadsToDirectory.of_directories {path : Location} (leads : t.LeadsToDirectory path)
    (kept : ∀ l, t.HasDirectory l → t'.HasDirectory l) : t'.LeadsToDirectory path := by
  obtain ⟨d, found, directory⟩ := leads
  exact ⟨d, resolve_of_directories kept found, kept d directory⟩

theorem find?_eq {path d : Location} (found : t.resolve path = .ok d) : t.find? path = .ok (d, t.itemAt? d) := by
  unfold find?
  rw [found]
  rfl

/-- Making a directory adds it if it is missing. -/
theorem makeDirectory_ok {path : Location} (made : t.makeDirectory path = .ok t') :
    Grown t t' ∧ t'.LeadsToDirectory path := by
  unfold makeDirectory at made
  cases found : t.resolve path with
  | error fault =>
    unfold find? at made
    rw [found] at made
    cases made
  | ok d =>
    rw [find?_eq found] at made
    cases item : t.itemAt? d with
    | none =>
      rw [item] at made
      obtain rfl := Except.ok.inj made
      have inner : d.isBase = false := isBase_eq_false fun directory => by
        rw [HasDirectory, item] at directory
        cases directory
      have grown : Grown t (t.place d .directory) := by
        intro l
        unfold HasDirectory
        rw [itemAt?_place]
        split
        next at_l => exact .inr ⟨at_l.1 ▸ item, rfl⟩
        next => exact .inl rfl
      refine ⟨grown, d, resolve_of_directories (fun _ => grown.keeps) found, ?_⟩
      unfold HasDirectory
      rw [itemAt?_place, if_pos ⟨rfl, inner⟩]
    | some a =>
      rw [item] at made
      cases a with
      | file _ | store _ => cases made
      | directory =>
        obtain rfl := Except.ok.inj made
        exact ⟨.refl t, d, found, item⟩

theorem makeDirectoriesUp_ok {parts : List Text} (made : t.makeDirectoriesUp parts = (t', none)) :
    Grown t t' ∧ t'.LeadsToDirectory parts.reverse := by
  induction parts generalizing t' with
  | nil =>
    cases made
    exact ⟨.refl t, [], by rfl, itemAt?_of_isBase t (by rfl)⟩
  | cons part above ih =>
    unfold makeDirectoriesUp at made
    cases first : t.makeDirectory (part :: above).reverse with
    | ok u =>
      rw [first] at made
      cases made
      exact makeDirectory_ok first
    | error fault =>
      rw [first] at made
      dsimp only at made
      split at made
      next missing =>
        cases upper : t.makeDirectoriesUp above with
        | mk u fault? =>
          rw [upper] at made
          cases fault? with
          | some fault => cases made
          | none =>
            dsimp only at made
            cases last : u.makeDirectory (part :: above).reverse with
            | error fault => rw [last] at made; cases made
            | ok v =>
              rw [last] at made
              cases made
              obtain ⟨grown, leads⟩ := makeDirectory_ok last
              exact ⟨(ih upper).1.trans grown, leads⟩
      next => cases made

/-- Directories that have been made are there. -/
theorem makeDirectories_ok {path : Location} (made : t.makeDirectories path = (t', none)) :
    Grown t t' ∧ t'.LeadsToDirectory path := by
  have both := makeDirectoriesUp_ok made
  rwa [List.reverse_reverse] at both

/-- Directories that are there need not be made. -/
theorem makeDirectories_of_leads {path : Location} (leads : t.LeadsToDirectory path) :
    t.makeDirectories path = (t, none) := by
  obtain ⟨d, found, directory⟩ := leads
  unfold makeDirectories
  cases up : path.reverse with
  | nil => rfl
  | cons part above =>
    have whole : (part :: above).reverse = path := by rw [← up, List.reverse_reverse]
    unfold makeDirectoriesUp makeDirectory
    rw [whole, find?_eq found, directory]

end AbiRecovery.FileTree
