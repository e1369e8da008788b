import AbiRecovery.Json.Dump
import AbiRecovery.Proofs.JsonPrinting

/-!
# Which values are written

Of the values without fractions those are written in which no number is too long and no container stands too deep, and no
others.
-/
namespace AbiRecovery.Json

/-- Values with whole numbers only and without a key that stands twice in an object. -/
inductive Whole : Json → Prop where
  | null : Whole .null
  | bool {b : Bool} : Whole (.bool b)
  | int {n : Int} : Whole (.int n)
  | str {t : Text} : Whole (.str t)
  | arr {items : List Json} (each : ∀ item ∈ items, Whole item) : Whole (.arr items)
  | obj {members : List (Text × Json)} (each : ∀ entry ∈ members, Whole entry.2)
      (distinct : (members.map Prod.fst).Nodup) : Whole (.obj members)

mutual

/-- How many containers stand inside each other. -/
def depth : Json → Nat
  | .arr items => itemsDepth items + 1
  | .obj members => membersDepth members + 1
  | .null | .bool _ | .int _ | .float _ | .str _ => 0

def itemsDepth : List Json → Nat
  | [] => 0
  | item :: items => max (depth item) (itemsDepth items)

def membersDepth : List (Text × Json) → Nat
  | [] => 0
  | (_, value) :: members => max (depth value) (membersDepth members)

end

variable {room : Nat} {value : Json} {items : List Json} {members : List (Text × Json)}

theorem itemsDepth_le_iff : itemsDepth items ≤ room ↔ ∀ item ∈ items, depth item ≤ room := by
  induction items with
  | nil => simp [itemsDepth]
  | cons item items ih => rw [itemsDepth, Nat.max_le, ih, List.forall_mem_cons]

theorem membersDepth_le_iff : membersDepth members ≤ room ↔ ∀ entry ∈ members, depth entry.2 ≤ room := by
  induction members with
  | nil => simp [membersDepth]
  | cons entry members ih => rw [membersDepth, Nat.max_le, ih, List.forall_mem_cons]

theorem itemsFault?_eq_none_iff : itemsFault? room items = none ↔ ∀ item ∈ items, writeFault? room item = none := by
  induction items with
  | nil => simp [itemsFault?]
  | cons item items ih => rw [itemsFault?, Option.or_eq_none_iff, ih, List.forall_mem_cons]

theorem membersFault?_eq_none_iff :
    membersFault? room members = none ↔ ∀ entry ∈ members, writeFault? room entry.2 = none := by
  induction members with
  | nil => simp [membersFault?]
  | cons entry members ih => rw [membersFault?, Option.or_eq_none_iff, ih, List.forall_mem_cons]

/-- A value is refused for nothing but a number that is too long or a container that stands too deep. -/
theorem writeFault?_eq_none_iff (whole : Whole value) : writeFault? room value = none ↔ Exact value ∧ depth value ≤ room := by
  induction whole generalizing room with
  | null => exact iff_of_true (by rw [writeFault?]) ⟨.null, by simp [depth]⟩
  | bool => exact iff_of_true (by rw [writeFault?]) ⟨.bool, by simp [depth]⟩
  | str => exact iff_of_true (by rw [writeFault?]) ⟨.str, by simp [depth]⟩
  | @int n =>
    have known : Exact (.int n) ↔ IsShort n := ⟨fun | .int short => short, .int⟩
    rw [writeFault?, known, ← isLong_eq_false_iff]
    simp [depth]
  | @arr items each ih =>
    have known : Exact (.arr items) ↔ ∀ item ∈ items, Exact item := ⟨fun | .arr each => each, .arr⟩
    cases room with
    | zero => simp [writeFault?, depth]
    | succ room =>
      rw [writeFault?, itemsFault?_eq_none_iff, known, depth, Nat.add_le_add_iff_right, itemsDepth_le_iff, ← forall₂_and]
      exact forall₂_congr fun item member => ih item member
  | @obj members each distinct ih =>
    have known : Exact (.obj members) ↔ ∀ entry ∈ members, Exact entry.2 := ⟨fun | .obj each _ => each, fun each => .obj each distinct⟩
    cases room with
    | zero => simp [writeFault?, depth]
    | succ room =>
      rw [writeFault?, membersFault?_eq_none_iff, known, depth, Nat.add_le_add_iff_right, membersDepth_le_iff, ← forall₂_and]
      exact forall₂_congr fun entry member => ih entry member

end AbiRecovery.Json
