import AbiRecovery.Proofs.RecoveredEntries
import Mathlib.Logic.Relation

/-!
# The record of a scan only grows

What one turn of a scan may change, from any state that the scan comes to. The region that was opened last
is the only open one, and the only one that a turn touches (`Scan.Grows`): it is ended, or it gains tags and
jumps. Regions, labels and guards gain at most one entry each, at the offset of the instruction, and never
lose or change one, since no earlier entry stands at that offset. So a region that has ended stays as it is
to the end of the scan (`Scan.Extends`).
-/
namespace AbiRecovery

namespace OrderedMap

variable {κ ν : Type}

/-- A map with at most one entry more, which has the key and comes last. No entry had that key before. -/
inductive AddsAt (key : κ) (m : OrderedMap κ ν) : OrderedMap κ ν → Prop where
  | nothing : AddsAt key m m
  | entry (value : ν) (fresh : key ∉ m.keys) : AddsAt key m (m ++ [(key, value)])

theorem AddsAt.begins {m m' : OrderedMap κ ν} {key : κ} (adds : AddsAt key m m') : m <+: m' := by
  cases adds with
  | nothing => exact List.prefix_refl _
  | entry value fresh => exact List.prefix_append _ _

variable [DecidableEq κ]

/-- What has been read is read again. -/
theorem AddsAt.get? {m m' : OrderedMap κ ν} {key k : κ} {value : ν} (adds : AddsAt key m m')
    (found : m.get? k = some value) : m'.get? k = some value := by
  cases adds with
  | nothing => exact found
  | entry value fresh => rw [get?_append, found, Option.some_or]

/-- A key that is there keeps its place, and a new one comes last. -/
theorem keys_prefix_insert (m : OrderedMap κ ν) (key : κ) (value : ν) : m.keys <+: (m.insert key value).keys := by
  rw [keys_insert]
  split
  · exact List.prefix_refl _
  · exact List.prefix_append _ _

end OrderedMap

open OrderedMap

/-- What an instruction at `offset` may make of the region it is met in: it ends the region, or adds tags and jumps. -/
inductive Region.Becomes (offset : Nat) (r : Region) : Region → Prop where
  | ended : r.Becomes offset { r with last? := some (offset - 1) }
  | grown {tags : NumberSet} (kept : ∀ tag ∈ r.tags, tag ∈ tags) (jumps : Array Nat) :
      r.Becomes offset { r with tags, jumps := r.jumps ++ jumps }

namespace Scan

/-- The regions by their starts. -/
def regionTable (s : Scan) : OrderedMap Nat Region := s.program.regions.map fun r => (r.start, r)

/-- A turn of a scan: the cursor takes an instruction, and the scan makes its step. -/
structure Turn (before after : Cursor × Scan) : Prop where
  more : before.1.hasMore
  taken : after.1 = before.1.take.2
  stepped : before.2.step after.1 before.1.take.1 = .ok after.2

/-- What a scan of code comes to, turn by turn. -/
def Reached (code : Bytes) : Cursor × Scan → Prop := Relation.ReflTransGen Turn (.start code window, .start)

/-- The current region was opened last, and it is the only open one. -/
structure Ordered (s : Scan) : Prop where
  latest : s.program.regions.getLast? = some s.current
  increasing : s.program.regions.Pairwise fun a b => a.step < b.step ∧ a.start < b.start
  unended : ∀ r ∈ s.program.regions, r.last? = none ↔ r = s.current

/-- What an instruction at `offset` may change in what has been recorded. -/
structure Grows (offset : Nat) (s s' : Scan) : Prop where
  /-- Every region but the current one stays as it is. -/
  frozen : ∀ start r, start ≠ s.current.start → s.regionTable.get? start = some r → s'.regionTable.get? start = some r
  /-- The current one keeps its place, and at most one region is opened. -/
  regions : ∃ r, s.current.Becomes offset r ∧ AddsAt offset (s.regionTable.insert s.current.start r) s'.regionTable
  labels : AddsAt offset s.labels.toList s'.labels.toList
  guards : AddsAt offset s.guards.toList s'.guards.toList
  topics : s.topics.toList <+: s'.topics.toList
  selectors : s.selectors.keys <+: s'.selectors.keys

/-- What has been recorded is still there later, and a region that has ended is as it was. -/
structure Extends (s s' : Scan) : Prop where
  frozen : ∀ start r, s.regionTable.get? start = some r → r.last?.isSome → s'.regionTable.get? start = some r
  regions : s.regionTable.keys <+: s'.regionTable.keys
  labels : s.labels.toList <+: s'.labels.toList
  guards : s.guards.toList <+: s'.guards.toList
  topics : s.topics.toList <+: s'.topics.toList
  selectors : s.selectors.keys <+: s'.selectors.keys

variable {code : Bytes} {n : Nat} {i : Instruction}

/-! ## Turns -/

/-- After `n` instructions a scan has the cursor that has taken them and the state after them. -/
def placeAfter (code : Bytes) (n : Nat) : Cursor × Scan := (.past code window n, after (decode code) n)

theorem turn_placeAfter (inside : n < (decode code).length) : Turn (placeAfter code n) (placeAfter code (n + 1)) := by
  have here := List.getElem?_eq_getElem inside
  have taken : (Cursor.past code window n).take = ((decode code)[n].opcode, Cursor.past code window (n + 1)) :=
    Cursor.take_past here
  constructor
  case more => simpa [placeAfter] using inside
  case taken => simp only [placeAfter, taken]
  case stepped =>
    simp only [placeAfter, taken]
    rw [step_past (Nat.le_refl _) here, after_succ here]

/-- The only turn from there is the one to the next instruction. -/
theorem eq_placeAfter_of_turn {later : Cursor × Scan} (turn : Turn (placeAfter code n) later) :
    n < (decode code).length ∧ later = placeAfter code (n + 1) := by
  have inside : n < (decode code).length := by simpa [placeAfter] using turn.more
  have next := turn_placeAfter inside
  have cursor : later.1 = (placeAfter code (n + 1)).1 := turn.taken.trans next.taken.symm
  have stepped := turn.stepped
  rw [cursor, next.stepped] at stepped
  exact ⟨inside, Prod.ext cursor (Except.ok.inj stepped).symm⟩

theorem turns_placeAfter {m : Nat} (before : n ≤ m) (inside : m ≤ (decode code).length) :
    Relation.ReflTransGen Turn (placeAfter code n) (placeAfter code m) := by
  induction m, before using Nat.le_induction with
  | base => exact .refl
  | succ m _ ih => exact (ih (Nat.le_of_succ_le inside)).tail (turn_placeAfter inside)

theorem reached_placeAfter (inside : n ≤ (decode code).length) : Reached code (placeAfter code n) :=
  turns_placeAfter (Nat.zero_le n) inside

/-- A scan comes to the states after its instructions, and to no others. -/
theorem Reached.exists_eq {point : Cursor × Scan} (reached : Reached code point) :
    ∃ n ≤ (decode code).length, point = placeAfter code n := by
  induction reached with
  | refl => exact ⟨0, Nat.zero_le _, rfl⟩
  | tail _ turn ih =>
    obtain ⟨n, _, rfl⟩ := ih
    obtain ⟨inside, rfl⟩ := eq_placeAfter_of_turn turn
    exact ⟨n + 1, inside, rfl⟩

/-- A scan of code goes on from there to the program that it finds. -/
theorem turns_to_last (inside : n ≤ (decode code).length) :
    ∃ last, Relation.ReflTransGen Turn (placeAfter code n) last ∧ last.1.hasMore = false ∧
      Program.ofCode code = .ok last.2.program :=
  ⟨placeAfter code (decode code).length, turns_placeAfter inside (Nat.le_refl _), by simp [placeAfter], ofCode_eq code⟩

/-! ## Regions in order -/

theorem ended_after (is : Decoding) (n : Nat) : ∀ r ∈ (after is n).closed.toList, r.last?.isSome := by
  induction n with
  | zero => exact fun r member => absurd member (by simp [after, start])
  | succ n ih =>
    cases here : is[n]? with
    | none =>
      rw [after, here]
      exact ih
    | some i =>
      rw [after_succ here]
      cases opens : is.opensRegion n with
      | false => simpa [next, opens] using ih
      | true =>
        intro r member
        rcases (by simpa [next, opens] using member : r ∈ (after is n).closed ∨ r = _) with earlier | rfl
        · exact ih r (by simpa using earlier)
        · rfl

theorem ordered_after (inside : n ≤ (decode code).length) : (after (decode code) n).Ordered := by
  constructor
  case latest => exact List.getLast?_concat
  case increasing => exact regions_increasing code n inside
  case unended =>
    intro r member
    have opened := (ends_after code n inside).2
    constructor
    · intro unended
      rcases List.mem_append.mp member with closed | current
      · have ended := ended_after (decode code) n r closed
        rw [unended] at ended
        cases ended
      · exact List.mem_singleton.mp current
    · rintro rfl
      exact opened

theorem keys_regionTable (s : Scan) : s.regionTable.keys = s.program.regions.map Region.start := by
  unfold regionTable keys
  rw [List.map_map]
  rfl

namespace Ordered

variable {s : Scan}

theorem nodup_keys (ordered : s.Ordered) : s.regionTable.keys.Nodup := by
  rw [keys_regionTable]
  exact List.pairwise_map.mpr (ordered.increasing.imp fun before => Nat.ne_of_lt before.2)

theorem get?_current (ordered : s.Ordered) : s.regionTable.get? s.current.start = some s.current :=
  get?_of_mem ordered.nodup_keys
    (List.mem_map_of_mem (f := fun r : Region => (r.start, r)) (List.mem_of_getLast? ordered.latest))

end Ordered

/-! ## What a turn changes -/

/-- The table with another region in the place of the current one. -/
theorem insert_regionTable {s : Scan} (ordered : s.Ordered) (r : Region) :
    s.regionTable.insert s.current.start r =
      (s.closed.toList.map fun r => (r.start, r)) ++ [(s.current.start, r)] := by
  have split : s.regionTable = (s.closed.toList.map fun r => (r.start, r)) ++ [(s.current.start, s.current)] := by
    simp [regionTable, program]
  have distinct := ordered.nodup_keys
  rw [split] at distinct ⊢
  unfold keys at distinct
  rw [List.map_append] at distinct
  have absent : s.current.start ∉ OrderedMap.keys (s.closed.toList.map fun r => (r.start, r)) :=
    fun earlier => (List.nodup_append.mp distinct).2.2 _ earlier _ List.mem_cons_self rfl
  rw [insert_append absent, OrderedMap.insert, if_pos rfl]

theorem keys_insert_regionTable {s : Scan} (ordered : s.Ordered) (r : Region) :
    (s.regionTable.insert s.current.start r).keys = s.regionTable.keys := by
  have known : s.current.start ∈ s.regionTable.keys := List.mem_map_of_mem (f := Prod.fst) (mem_of_get? ordered.get?_current)
  rw [keys_insert, if_pos known]

theorem regionTable_next_of_opens {s : Scan} (ordered : s.Ordered) {is : Decoding} (opens : is.opensRegion n) :
    (s.next is n i).regionTable =
      s.regionTable.insert s.current.start { s.current with last? := some (i.offset - 1) } ++
        [(i.offset, .opened i.offset n)] := by
  rw [insert_regionTable ordered]
  simp [regionTable, program, next, opens, Region.opened]

theorem regionTable_next_of_not_opens {s : Scan} (ordered : s.Ordered) {is : Decoding}
    (continues : is.opensRegion n = false) :
    (s.next is n i).regionTable = s.regionTable.insert s.current.start (annotated is s.inTable n i s.current) := by
  rw [insert_regionTable ordered]
  simp [regionTable, program, next, continues, annotated]

theorem becomes_annotated (is : Decoding) (inTable : Bool) (n : Nat) (i : Instruction) (r : Region) :
    r.Becomes i.offset (annotated is inTable n i r) := by
  refine .grown (fun tag kept => ?_) _
  split
  · exact NumberSet.mem_insert.mpr (.inr kept)
  · exact kept

/-- Regions begin before the instruction that opens the next one. -/
theorem start_lt_of_opens (here : (decode code)[n]? = some i) (opens : (decode code).opensRegion n) {r : Region}
    (member : r ∈ (after (decode code) n).regions) : r.start < i.offset := by
  have inside := (List.getElem?_eq_some_iff.mp here).1
  have pair := List.mem_map_of_mem (f := fun r : Region => (r.step, r.start)) member
  rw [starts_after n (Nat.le_of_lt inside)] at pair
  obtain ⟨m, opened, same⟩ := List.mem_map.mp pair
  have before : m < n := by
    rcases List.mem_cons.mp opened with rfl | later
    · exact Decoding.pos_of_opens opens
    · exact List.mem_range.mp (List.mem_filter.mp later).1
  rw [offset_eq_startOf here, ← (Prod.mk.inj same).2]
  exact startOf_lt_startOf before inside

/-- Instructions with smaller numbers begin elsewhere. -/
theorem offset_not_mem_map (here : (decode code)[n]? = some i) {numbers : List Nat} (below : ∀ m ∈ numbers, m < n) :
    i.offset ∉ numbers.map (startOf code) := by
  have inside := (List.getElem?_eq_some_iff.mp here).1
  intro listed
  obtain ⟨m, member, same⟩ := List.mem_map.mp listed
  have before := startOf_lt_startOf (below m member) inside
  rw [offset_eq_startOf here] at same
  exact Nat.ne_of_lt before same

variable (here : (decode code)[n]? = some i)

include here

theorem regions_grow :
    ∃ r, (after (decode code) n).current.Becomes i.offset r ∧
      AddsAt i.offset ((after (decode code) n).regionTable.insert (after (decode code) n).current.start r)
        ((after (decode code) n).next (decode code) n i).regionTable := by
  have ordered := ordered_after (Nat.le_of_lt (List.getElem?_eq_some_iff.mp here).1)
  cases opens : (decode code).opensRegion n with
  | true =>
    refine ⟨_, .ended, ?_⟩
    rw [regionTable_next_of_opens ordered opens]
    refine .entry _ fun listed => ?_
    rw [keys_insert_regionTable ordered, keys_regionTable] at listed
    obtain ⟨r, member, same⟩ := List.mem_map.mp listed
    exact Nat.ne_of_lt (start_lt_of_opens here opens member) same
  | false =>
    refine ⟨_, becomes_annotated (decode code) (after (decode code) n).inTable n i _, ?_⟩
    rw [regionTable_next_of_not_opens ordered opens]
    exact .nothing

theorem labels_grow :
    AddsAt i.offset (after (decode code) n).labels.toList ((after (decode code) n).next (decode code) n i).labels.toList := by
  unfold next
  dsimp only
  cases (decode code).has n .jumpdest with
  | false => exact .nothing
  | true =>
    rw [if_pos rfl, Array.toList_push]
    refine .entry _ ?_
    rw [labels_after n (Nat.le_of_lt (List.getElem?_eq_some_iff.mp here).1), keys, List.map_map]
    exact offset_not_mem_map here fun m member => (Decoding.mem_labelsBelow.mp member).1

theorem guards_grow :
    AddsAt i.offset (after (decode code) n).guards.toList ((after (decode code) n).next (decode code) n i).guards.toList := by
  unfold next
  dsimp only
  cases (decode code).isGuarded n with
  | false => exact .nothing
  | true =>
    rw [if_pos rfl, Array.toList_push]
    refine .entry _ ?_
    rw [guards_after n (Nat.le_of_lt (List.getElem?_eq_some_iff.mp here).1), keys, List.map_map]
    exact offset_not_mem_map here fun m member => List.mem_range.mp (List.mem_filter.mp member).1

/-- The state after one more instruction has grown from the one before. -/
theorem grows_next : (after (decode code) n).Grows i.offset ((after (decode code) n).next (decode code) n i) := by
  obtain ⟨r, becomes, adds⟩ := regions_grow here
  constructor
  case frozen =>
    intro start other different found
    refine adds.get? ?_
    rw [get?_insert, if_neg (Ne.symm different), found]
  case regions => exact ⟨r, becomes, adds⟩
  case labels => exact labels_grow here
  case guards => exact guards_grow here
  case topics =>
    unfold next
    dsimp only
    split
    · exact ⟨_, Array.toList_push.symm⟩
    · exact List.prefix_refl _
  case selectors =>
    unfold next
    dsimp only
    split
    · exact keys_prefix_insert _ _ _
    · exact List.prefix_refl _

omit here

/-! ## Runs -/

theorem Extends.refl (s : Scan) : s.Extends s :=
  ⟨fun _ _ found _ => found, List.prefix_refl _, List.prefix_refl _, List.prefix_refl _, List.prefix_refl _,
    List.prefix_refl _⟩

theorem Extends.trans {s t u : Scan} (first : s.Extends t) (second : t.Extends u) : s.Extends u where
  frozen start r found ended := second.frozen start r (first.frozen start r found ended) ended
  regions := first.regions.trans second.regions
  labels := first.labels.trans second.labels
  guards := first.guards.trans second.guards
  topics := first.topics.trans second.topics
  selectors := first.selectors.trans second.selectors

/-- A region that has ended is not the current one, so a turn leaves it as it is. -/
theorem Extends.of_grows {offset : Nat} {s s' : Scan} (grows : s.Grows offset s') (ordered : s.Ordered)
    (opened : s.current.last? = none) : s.Extends s' := by
  constructor
  case frozen =>
    intro start r found ended
    refine grows.frozen start r ?_ found
    rintro rfl
    rw [ordered.get?_current] at found
    obtain rfl := Option.some.inj found
    rw [opened] at ended
    cases ended
  case regions =>
    obtain ⟨r, _, adds⟩ := grows.regions
    exact (keys_prefix_insert _ _ _).trans (adds.begins.map _)
  case labels => exact grows.labels.begins
  case guards => exact grows.guards.begins
  case topics => exact grows.topics
  case selectors => exact grows.selectors

theorem extends_of_turns {point later : Cursor × Scan} (reached : Reached code point)
    (turns : Relation.ReflTransGen Turn point later) : point.2.Extends later.2 := by
  induction turns with
  | refl => exact .refl _
  | tail turns turn ih =>
    obtain ⟨n, inside, rfl⟩ := Reached.exists_eq (reached.trans turns)
    obtain ⟨inside, rfl⟩ := eq_placeAfter_of_turn turn
    have here := List.getElem?_eq_getElem inside
    have ordered := ordered_after (Nat.le_of_lt inside)
    have opened := (ends_after code n (Nat.le_of_lt inside)).2
    have grows := grows_next here
    rw [← after_succ here] at grows
    exact ih.trans (.of_grows grows ordered opened)

end Scan

/-- Whatever a scan comes to, its current region was opened last and is the only open one. Where bytes are left there
is a next turn; it changes no region but the current one, and adds at most one region, one label and one guard, at the
offset of its instruction. Nothing that has been recorded is lost or moved, and no region that has ended is changed,
in any number of turns; and they lead to the program that is found. -/
theorem scan_only_grows {code : Bytes} {point : Cursor × Scan} (reached : Scan.Reached code point) :
    point.2.Ordered ∧
      (point.1.hasMore → ∃ later, Scan.Turn point later) ∧
      (∀ later, Scan.Turn point later → point.2.Grows later.1.position.toNat later.2) ∧
      (∀ later, Relation.ReflTransGen Scan.Turn point later → point.2.Extends later.2) ∧
      ∃ last, Relation.ReflTransGen Scan.Turn point last ∧ last.1.hasMore = false ∧
        Program.ofCode code = .ok last.2.program := by
  refine ⟨?_, ?_, ?_, fun later => Scan.extends_of_turns reached, ?_⟩
  all_goals obtain ⟨n, inside, rfl⟩ := reached.exists_eq
  · exact Scan.ordered_after inside
  · intro more
    exact ⟨_, Scan.turn_placeAfter (by simpa [Scan.placeAfter] using more)⟩
  · intro later turn
    obtain ⟨inside, rfl⟩ := Scan.eq_placeAfter_of_turn turn
    have here := List.getElem?_eq_getElem inside
    have offset : (Scan.placeAfter code (n + 1)).1.position.toNat = (decode code)[n].offset := by
      show (Cursor.past code Scan.window (n + 1)).position.toNat = _
      rw [Cursor.position_past here, Int.toNat_natCast]
    have grows := Scan.grows_next here
    rw [← Scan.after_succ here] at grows
    rw [offset]
    exact grows
  · exact Scan.turns_to_last inside

/-- A region that is about to be ended by the next label. -/
def threeRegions : Bytes := [0x00, 0x5b, 0x54, 0x00, 0x5b]

theorem scan_only_grows_over_three_regions :
    ∃ point, Scan.Reached threeRegions point ∧ point.2.Ordered ∧
      point.2.program.regions.map Region.start = [0, 1] ∧
      ∃ later, Scan.Turn point later ∧ point.2.Grows 4 later.2 ∧
        later.2.program.regions.map (fun r => (r.start, r.last?)) = [(0, some 0), (1, some 3), (4, none)] := by
  have reached : Scan.Reached threeRegions (Scan.placeAfter threeRegions 4) := Scan.reached_placeAfter (by decide +kernel)
  have turn : Scan.Turn (Scan.placeAfter threeRegions 4) (Scan.placeAfter threeRegions 5) :=
    Scan.turn_placeAfter (by decide +kernel)
  have offset : (Scan.placeAfter threeRegions 5).1.position.toNat = 4 := by decide +kernel
  obtain ⟨ordered, -, grows, -⟩ := scan_only_grows reached
  exact ⟨_, reached, ordered, by decide +kernel, _, turn, offset ▸ grows _ turn, by decide +kernel⟩

end AbiRecovery
