import AbiRecovery.Program

/-!
# The index of a program

The regions, labels and guards of a program, arranged once for the many look-ups that follow jumps.
Every look-up answers as reading the lists of the program does (`Index.regionAt?_eq`,
`Index.isGuarded_eq`), and the regions that it finds are regions of the program.
-/
namespace AbiRecovery

namespace Program

abbrev Member (p : Program) : Type := { r : Region // r ∈ p.regions }

/-- The regions of a program by the offsets that they start at. -/
def members (p : Program) : OrderedMap Nat p.Member := p.regions.attach.map fun r => (r.val.start, r)

/-- The regions, labels and guards of a program, arranged for look-up. -/
structure Index (p : Program) where
  regions : Std.HashMap Nat p.Member
  labels : Std.HashMap Nat Nat
  guards : Std.HashMap Nat Nat

def index (p : Program) : p.Index := ⟨p.members.index, p.labels.index, p.guards.index⟩

/-- The regions by their starts hold at an offset what starts there. -/
theorem get?_members (p : Program) (start : Nat) :
    (p.members.get? start).map Subtype.val = p.regionStarting? start := by
  have scan : ∀ rs : List p.Member,
      (OrderedMap.get? (rs.map fun r => (r.val.start, r)) start).map Subtype.val =
        (rs.map Subtype.val).find? fun r => r.start = start := by
    intro rs
    induction rs with
    | nil => rfl
    | cons r rest ih =>
      by_cases here : r.val.start = start
      · simp [OrderedMap.get?, here]
      · simp only [List.map_cons, OrderedMap.get?, here, if_false, ih, decide_false,
          List.find?_cons_of_neg, Bool.false_eq_true, not_false_eq_true]
  rw [members, scan, List.attach_map_subtype_val, regionStarting?]

namespace Index

variable {p : Program}

/-- The region that a label belongs to, as a region of the program. -/
def memberAt? (i : p.Index) (offset : Nat) : Option p.Member := i.labels[offset]?.bind (i.regions[·]?)

def regionAt? (i : p.Index) (offset : Nat) : Option Region := (i.memberAt? offset).map Subtype.val

/-- Whether a label is guarded against attached value. -/
def isGuarded (i : p.Index) (offset : Nat) : Bool := i.guards.contains offset

/-- The index finds the regions of labels that the program has. -/
@[simp]
theorem regionAt?_eq (p : Program) (offset : Nat) : p.index.regionAt? offset = p.regionAt? offset := by
  simp only [regionAt?, memberAt?, index, OrderedMap.getElem?_index, Option.map_bind, Program.regionAt?]
  exact congrArg _ (funext fun start => p.get?_members start)

/-- The index finds the guards of the program. -/
@[simp]
theorem isGuarded_eq (p : Program) (offset : Nat) : p.index.isGuarded offset = p.guards.contains offset := by
  simp [isGuarded, index]

end Index

end Program

end AbiRecovery
