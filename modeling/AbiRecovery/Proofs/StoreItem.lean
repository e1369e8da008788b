import AbiRecovery.Proofs.Settling
import AbiRecovery.Proofs.StoreOpening
import Mathlib.Logic.Relation

/-!
# What stands at the place of a store

Three relations of the items at the place of a store that last while it is opened: that they are the same; that
they are the same and hold only tables of some kind; and that they are stores that began with the same bytes, the
second one with given rows. The second one also lasts while the log is written into the file of the store: behind
the pages of a store its lines are not read as rows, and a file that begins with them is no database.
-/
namespace AbiRecovery

open FileTree Store

/-- Bytes that begin like a line of the log. -/
def Log.IsLine (bytes : Bytes) : Prop := bytes.head? = some 0x7b

/-- A property of what stands at the place of a store that lasts while it is opened, and while lines of the log are added. -/
structure ItemInvariant where
  holds : Option FileItem → Prop
  directory : holds none → holds (some .directory)
  emptyFile : holds none → holds (some (.file []))
  settle {item : FileItem} : holds (some item) → holds (some (settledItem item))
  file {item : FileItem} {f : Store.File} (path : Location) :
    holds (some item) → Held.ofItem path item = .ok (.ok f) → holds (some (.store f))
  bytes {item : FileItem} {base : Bytes} (path : Location) :
    holds (some item) → Held.ofItem path item = .ok (.error base) → holds (some (.store ⟨base, [], []⟩))
  logged {item : FileItem} {line : Bytes} : holds (some item) → Log.IsLine line → holds (some (item.extended line))

namespace ItemRelation

/-- The items are the same and have a property. -/
def both (P : ItemInvariant) : ItemRelation where
  holds a b := a = b ∧ P.holds a
  kind related := by rw [related.1]
  directory related := ⟨rfl, P.directory related.2⟩
  emptyFile related := ⟨rfl, P.emptyFile related.2⟩
  blank related := by rw [Option.some.inj related.1]
  declaring related := by rw [Option.some.inj related.1]
  settle related := ⟨by rw [Option.some.inj related.1], P.settle related.2⟩
  settled related := by rw [Option.some.inj related.1]
  held path related := by
    obtain ⟨same, holds⟩ := related
    rw [← Option.some.inj same]
    cases held : Held.ofItem path _ with
    | error fault => exact .fault fault
    | ok held' =>
      cases held' with
      | error base => exact .bytes base ⟨rfl, P.bytes path holds held⟩
      | ok f => exact .file f f rfl ⟨rfl, P.file path holds held⟩

/-- The items are the same. -/
def identical : ItemRelation :=
  both ⟨fun _ => True, id, id, id, fun _ _ _ => trivial, fun _ _ _ => trivial, fun _ _ => trivial⟩

/-- Both items are stores that began with the same bytes, and the second one has the given rows. -/
def stores (rows : Table) : ItemRelation where
  holds a b := ∃ f g, a = some (.store f) ∧ b = some (.store g) ∧ f.base = g.base ∧ g.rows = rows
  kind related := by
    obtain ⟨f, g, rfl, rfl, -⟩ := related
    rfl
  directory related := by obtain ⟨f, g, absent, -⟩ := related; cases absent
  emptyFile related := by obtain ⟨f, g, absent, -⟩ := related; cases absent
  blank related := by
    obtain ⟨f, g, left, right, -⟩ := related
    cases left
    cases right
    rfl
  declaring related := by
    obtain ⟨f, g, left, right, base, -⟩ := related
    cases left
    cases right
    exact base
  settle related := by
    obtain ⟨f, g, left, right, base, kept⟩ := related
    cases left
    cases right
    exact ⟨_, _, rfl, rfl, congrArg settledBytes base, kept⟩
  settled related := by
    obtain ⟨f, g, left, right, base, -⟩ := related
    cases left
    cases right
    obtain ⟨base, written, rows⟩ := f
    obtain ⟨base', written', rows'⟩ := g
    dsimp only at base
    subst base
    simp [settledItem]
  held path related := by
    obtain ⟨f, g, left, right, base, kept⟩ := related
    cases left
    cases right
    exact .file f g base ⟨f, g, rfl, rfl, base, kept⟩

end ItemRelation

namespace FileItem

/-- What may become of an item before its rows are written: it is settled, or a line of the log is added. -/
inductive Turns : FileItem → FileItem → Prop where
  | settled (item : FileItem) : Turns item (settledItem item)
  | logged (item : FileItem) {line : Bytes} (written : Log.IsLine line) : Turns item (item.extended line)

/-- Whatever is read of an item, now or after it has been settled and lines of the log have been added, is a table of a
kind. -/
def HoldsOnly (kind : Table → Prop) (item : FileItem) : Prop :=
  ∀ later, Relation.ReflTransGen Turns item later → ∀ path f, Held.ofItem path later = .ok (.ok f) → kind f.rows

variable {kind : Table → Prop}

theorem HoldsOnly.of_turns {item later : FileItem} (holds : HoldsOnly kind item) (turns : Turns item later) :
    HoldsOnly kind later :=
  fun _ more => holds _ (.head turns more)

theorem holdsOnly_directory : HoldsOnly kind .directory := by
  intro later turned
  have same : later = .directory := by
    induction turned with
    | refl => rfl
    | tail _ step ih => subst ih; cases step <;> rfl
  intro path f held
  rw [same] at held
  cases held

/-- A store holds its rows. -/
theorem holdsOnly_store (f : Store.File) : HoldsOnly kind (.store f) ↔ kind f.rows := by
  constructor
  · exact fun holds => holds _ .refl [] f rfl
  · intro holds later turned
    have same : ∃ f', later = .store f' ∧ f'.rows = f.rows := by
      induction turned with
      | refl => exact ⟨f, rfl, rfl⟩
      | tail _ step ih =>
        obtain ⟨f', rfl, rows⟩ := ih
        cases step with
        | settled => exact ⟨_, rfl, rows⟩
        | logged written => exact ⟨_, rfl, rows⟩
    obtain ⟨f', rfl, rows⟩ := same
    intro path g held
    cases held
    exact rows ▸ holds

theorem ofBytes_ne_store {content : Bytes} (other : content.head? ≠ Database.magic.head?) (f : Store.File) :
    Held.ofBytes content ≠ .ok (.ok f) := by
  unfold Held.ofBytes
  split
  · nofun
  · rw [Database.Image.ofFile_of_head? other]
    nofun

/-- A file that does not begin like a database stays one, whatever is logged into it, and holds no store. -/
theorem holdsOnly_file {content : Bytes} (other : content.head? ≠ Database.magic.head?) : HoldsOnly kind (.file content) := by
  intro later turned
  have same : ∃ content', later = .file content' ∧ content'.head? ≠ Database.magic.head? := by
    induction turned with
    | refl => exact ⟨content, rfl, other⟩
    | tail _ step ih =>
      obtain ⟨content', rfl, other⟩ := ih
      cases step with
      | settled =>
        refine ⟨content', congrArg FileItem.file (settledBytes_eq_self fun i read => ?_), other⟩
        rw [Database.Image.ofFile_of_head? other] at read
        cases read
      | logged written =>
        refine ⟨content' ++ _, rfl, ?_⟩
        cases content' with
        | nil =>
          have begins : ([] ++ _ : Bytes).head? = some 0x7b := written
          rw [begins, Database.head?_magic]
          decide
        | cons byte content' => exact other
  obtain ⟨content', rfl, other⟩ := same
  intro path f held
  cases known : Held.ofBytes content' with
  | error fault =>
    rw [Held.ofItem, known] at held
    cases held
  | ok held' =>
    rw [Held.ofItem, known] at held
    exact (ofBytes_ne_store other f (known.trans (congrArg Except.ok (Except.ok.inj held)))).elim

theorem holdsOnly_empty : HoldsOnly kind (.file []) := holdsOnly_file (by rw [Database.head?_magic]; nofun)

end FileItem

namespace ItemInvariant

/-- That an item, if there is one, holds only tables of a kind to which the empty table belongs. -/
def holdsOnly (kind : Table → Prop) (empty : kind []) : ItemInvariant where
  holds item? := ∀ item, item? = some item → item.HoldsOnly kind
  directory _ item here := by cases here; exact FileItem.holdsOnly_directory
  emptyFile _ item here := by cases here; exact FileItem.holdsOnly_empty
  settle holds item here := by cases here; exact (holds _ rfl).of_turns (.settled _)
  file path holds held item here := by
    cases here
    exact (FileItem.holdsOnly_store _).mpr (holds _ rfl _ .refl path _ held)
  bytes path _ _ item here := by
    cases here
    exact (FileItem.holdsOnly_store _).mpr empty
  logged holds written item here := by cases here; exact (holds _ rfl).of_turns (.logged _ written)

/-- That an item is a store with a table of a kind. -/
def isStore (kind : Table → Prop) : ItemInvariant where
  holds item? := ∃ f, item? = some (.store f) ∧ kind f.rows
  directory := nofun
  emptyFile := nofun
  settle holds := by
    obtain ⟨f, here, rows⟩ := holds
    cases here
    exact ⟨_, rfl, rows⟩
  file path holds held := by
    obtain ⟨f, here, rows⟩ := holds
    cases here
    cases held
    exact ⟨_, rfl, rows⟩
  bytes path holds held := by
    obtain ⟨f, here, rows⟩ := holds
    cases here
    cases held
  logged holds _ := by
    obtain ⟨f, here, rows⟩ := holds
    cases here
    exact ⟨_, rfl, rows⟩

/-- A store with a table of a kind holds only such tables. -/
theorem holdsOnly_of_isStore {kind more : Table → Prop} {empty : more []} (implied : ∀ t, kind t → more t)
    {item? : Option FileItem} (holds : (isStore kind).holds item?) : (holdsOnly more empty).holds item? := by
  obtain ⟨f, rfl, rows⟩ := holds
  rintro item here
  cases here
  exact (FileItem.holdsOnly_store f).mpr (implied _ rows)

end ItemInvariant

end AbiRecovery
