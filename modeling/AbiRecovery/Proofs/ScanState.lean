import AbiRecovery.Proofs.CursorPast
import AbiRecovery.Proofs.Landmark
import AbiRecovery.Scan

/-!
# The states of a scan

The step of a scan in closed form. `Scan.next` gives every field of the state after an instruction as
an expression in the landmarks at that instruction and the state before; `step_past` says that the
scan does just that, and `ofCode_eq` that scanning code never fails and ends in the state after the
last of its instructions. All laws about scans start from here.
-/
namespace AbiRecovery

namespace Scan

/-- The text under which the constant of a comparison is recorded. -/
def selectorText (constant : Bytes) : Text := Hex.encodeMarked (constant.padLeft selectorWidth)

/-- The targets that number `n` adds to its region: a jump its own, if it is pushed, and a conditional
jump in the dispatch table once more. -/
def jumpsAt (is : Decoding) (inTable : Bool) (n : Nat) : List Nat :=
  match is.staticTarget? n with
  | some target => if inTable && is.has n .jumpi then [target, target] else [target]
  | none => []

/-- What an instruction that opens no region adds to its region. -/
def annotated (is : Decoding) (inTable : Bool) (n : Nat) (i : Instruction) (r : Region) : Region :=
  { r with
    tags := if tellingOpcodes.contains i.opcode then r.tags.insert i.opcode.byte.toNat else r.tags
    jumps := r.jumps ++ (jumpsAt is inTable n).toArray }

/-- The state after instruction `i`, which is number `n`. -/
def next (is : Decoding) (n : Nat) (i : Instruction) (s : Scan) : Scan where
  closed :=
    if is.opensRegion n then s.closed.push { s.current with last? := some (i.offset - 1) } else s.closed
  current :=
    if is.opensRegion n then .opened i.offset n else annotated is s.inTable n i s.current
  labels :=
    if is.has n .jumpdest then
      s.labels.push (i.offset, if is.opensRegion n then i.offset else s.current.start)
    else s.labels
  guards := if is.isGuarded n then s.guards.push (i.offset, n) else s.guards
  selectors :=
    match if s.inTable then is.entryAt? n else none with
    | some (constant, target) => s.selectors.insert (selectorText constant) target
    | none => s.selectors
  topics :=
    if i.opcode.isLog && !s.lastPush32.isEmpty then s.topics.push (Hex.encodeMarked s.lastPush32)
    else s.topics
  inTable :=
    if is.opensRegion n then
      if s.resumePoints.contains i.offset then is.beginsTable n else s.inTable && s.selectors.isEmpty
    else s.inTable
  resumePoints :=
    if is.opensRegion n then s.resumePoints.erase i.offset
    else
      match if s.inTable then is.resumeTarget? n else none with
      | some target => s.resumePoints.insert target
      | none => s.resumePoints
  lastPush32 := if i.opcode = .push32 then i.operand else s.lastPush32

variable {code : Bytes} {capacity n : Nat} {i : Instruction} {s : Scan}

/-! ## The step -/

theorem operand_of_pushedBefore? (count : Nat) {constant : Bytes} (kept : count + 1 ≤ capacity)
    (inside : n < (decode code).length) (pushed : (decode code).pushedBefore? n count = some constant) :
    (Cursor.past code capacity (n + 1)).operand (-((count + 1 : Nat) : Int)) = .ok constant := by
  obtain ⟨j, found, rfl⟩ := Option.map_eq_some_iff.mp pushed
  exact Cursor.operand_before count kept inside (Option.filter_eq_some_iff.mp found).1

theorem any_isPush_before? (is : Decoding) (n count : Nat) :
    ((is.before? n count).map Instruction.opcode).any Opcode.isPush = (is.pushedBefore? n count).isSome := by
  unfold Decoding.pushedBefore?
  cases is.before? n count with
  | none => rfl
  | some j => cases push : j.opcode.isPush <;> simp [push, Option.filter]

theorem opcode_before?_eq (is : Decoding) (n count : Nat) (op : Opcode) :
    decide ((is.before? n count).map Instruction.opcode = some op) = is.hasBefore n count op := by
  unfold Decoding.hasBefore
  cases is.before? n count with
  | none => rfl
  | some j => simp

theorem pushedTarget?_past (wide : 2 ≤ capacity) (inside : n < (decode code).length) :
    pushedTarget? (Cursor.past code capacity (n + 1)) =
      .ok (((decode code).pushedBefore? n 1).map Bytes.toNat) := by
  unfold pushedTarget?
  rw [Cursor.back?_past 1 wide inside]
  simp only [bind, Except.bind, any_isPush_before?]
  cases pushed : (decode code).pushedBefore? n 1 with
  | none => rfl
  | some operand =>
    have read : (Cursor.past code capacity (n + 1)).operand (-2) = .ok operand :=
      operand_of_pushedBefore? 1 wide inside pushed
    rw [read]
    rfl

/-- What an instruction tells about its region is read off the landmarks. -/
theorem annotate_past (wide : 2 ≤ capacity) (here : (decode code)[n]? = some i) :
    s.annotate (Cursor.past code capacity (n + 1)) i.opcode =
      .ok { s with current := annotated (decode code) false n i s.current } := by
  have inside := (List.getElem?_eq_some_iff.mp here).1
  have jump := Decoding.has_eq here .jump
  have jumpi := Decoding.has_eq here .jumpi
  have tagged : ∀ t : Scan, t.addTag i.opcode = { t with current := { t.current with
      tags := if tellingOpcodes.contains i.opcode then t.current.tags.insert i.opcode.byte.toNat
        else t.current.tags } } := by
    intro t
    unfold addTag
    split <;> rfl
  unfold annotate
  rw [pushedTarget?_past wide inside]
  by_cases jumps : i.opcode = .jump ∨ i.opcode = .jumpi
  · have target : (decode code).staticTarget? n = ((decode code).pushedBefore? n 1).map Bytes.toNat := by
      unfold Decoding.staticTarget?
      rw [jump, jumpi]
      exact if_pos (by simpa using jumps)
    rw [if_pos (by simpa using jumps)]
    simp only [bind, Except.bind, annotated, jumpsAt, target]
    cases ((decode code).pushedBefore? n 1).map Bytes.toNat with
    | none => simp [tagged, pure, Except.pure]
    | some t => simp [tagged, addJump, pure, Except.pure]
  · have target : (decode code).staticTarget? n = none := by
      unfold Decoding.staticTarget?
      rw [jump, jumpi]
      exact if_neg (by simpa using jumps)
    rw [if_neg (by simpa using jumps), tagged]
    simp [annotated, jumpsAt, target, pure, Except.pure]

/-- A conditional jump in the dispatch table is an entry, a way to another part, or neither. -/
theorem readEntry_past {target : Bytes} (wide : window ≤ capacity) (here : (decode code)[n]? = some i)
    (branches : i.opcode = .jumpi) (pushed : (decode code).pushedBefore? n 1 = some target) :
    s.readEntry (Cursor.past code capacity (n + 1)) target.toNat =
      .ok { s.addJump target.toNat with
        selectors :=
          match (decode code).entryAt? n with
          | some (constant, target) => s.selectors.insert (selectorText constant) target
          | none => s.selectors
        resumePoints :=
          match (decode code).resumeTarget? n with
          | some target => s.resumePoints.insert target
          | none => s.resumePoints } := by
  have inside := (List.getElem?_eq_some_iff.mp here).1
  have room : 5 ≤ capacity := wide
  have jump : (decode code).has n .jump = false := by
    rw [Decoding.has_eq here, branches]
    rfl
  have jumpi : (decode code).has n .jumpi = true := by
    rw [Decoding.has_eq here, branches]
    rfl
  unfold readEntry
  rw [Cursor.back?_past 2 (by omega) inside, Cursor.back?_past 3 (by omega) inside,
    Cursor.back?_past 4 room inside]
  simp only [bind, Except.bind, any_isPush_before?, opcode_before?_eq, Decoding.entryAt?,
    Decoding.resumeTarget?, jump, jumpi, pushed, Bool.false_or, Bool.true_and, Option.bind_some,
    Option.map_some]
  cases equality : (decode code).hasBefore n 2 .eq with
  | true =>
    have less := Decoding.hasBefore_of_ne equality (show Opcode.eq ≠ .lt by decide)
    have greater := Decoding.hasBefore_of_ne equality (show Opcode.eq ≠ .gt by decide)
    simp only [less, greater, Bool.true_and, Bool.or_false, Bool.false_and]
    cases first : (decode code).pushedBefore? n 3 with
    | some constant =>
      have read : (Cursor.past code capacity (n + 1)).operand (-4) = .ok constant :=
        operand_of_pushedBefore? 3 (by omega) inside first
      rw [read]
      rfl
    | none =>
      cases copied : (decode code).hasBefore n 3 .dup2 with
      | false => rfl
      | true =>
        cases second : (decode code).pushedBefore? n 4 with
        | none => rfl
        | some constant =>
          have read : (Cursor.past code capacity (n + 1)).operand (-5) = .ok constant :=
            operand_of_pushedBefore? 4 room inside second
          rw [read]
          rfl
  | false =>
    simp only [Bool.false_and, Bool.false_eq_true, if_false]
    split <;> rfl

/-- An instruction inside the dispatch table. -/
theorem readTable_past (wide : window ≤ capacity) (here : (decode code)[n]? = some i) :
    s.readTable (Cursor.past code capacity (n + 1)) i.opcode =
      .ok { s with
        current := { s.current with
          jumps := s.current.jumps ++
            (if (decode code).has n .jumpi then ((decode code).staticTarget? n).toList else []).toArray }
        selectors :=
          match (decode code).entryAt? n with
          | some (constant, target) => s.selectors.insert (selectorText constant) target
          | none => s.selectors
        resumePoints :=
          match (decode code).resumeTarget? n with
          | some target => s.resumePoints.insert target
          | none => s.resumePoints } := by
  have inside := (List.getElem?_eq_some_iff.mp here).1
  have room : 2 ≤ capacity := Nat.le_trans (by decide) wide
  have jump := Decoding.has_eq here .jump
  have jumpi := Decoding.has_eq here .jumpi
  unfold readTable
  rw [pushedTarget?_past room inside]
  by_cases jumps : i.opcode = .jump
  · have straight : i.opcode ≠ .jumpi := by rw [jumps]; decide
    have no_entry : (decode code).entryAt? n = none := by simp [Decoding.entryAt?, jumpi, straight]
    have target : (decode code).resumeTarget? n = ((decode code).pushedBefore? n 1).map Bytes.toNat := by
      simp [Decoding.resumeTarget?, jump, jumps]
    rw [if_pos jumps]
    simp only [bind, Except.bind, no_entry, target, jumpi, straight, decide_false, Bool.false_eq_true, if_false]
    cases ((decode code).pushedBefore? n 1).map Bytes.toNat with
    | none => simp [pure, Except.pure]
    | some t => simp [pure, Except.pure, addResumePoint]
  · rw [if_neg jumps]
    by_cases branches : i.opcode = .jumpi
    · have target : (decode code).staticTarget? n = ((decode code).pushedBefore? n 1).map Bytes.toNat := by
        simp [Decoding.staticTarget?, jumpi, branches]
      rw [if_pos branches, target]
      simp only [bind, Except.bind, jumpi, branches, decide_true, if_true]
      cases pushed : (decode code).pushedBefore? n 1 with
      | none =>
        have no_entry : (decode code).entryAt? n = none := by simp [Decoding.entryAt?, pushed]
        have no_target : (decode code).resumeTarget? n = none := by simp [Decoding.resumeTarget?, pushed]
        simp [no_entry, no_target, pure, Except.pure]
      | some operand =>
        simp only [Option.map_some]
        rw [readEntry_past wide here branches pushed]
        simp [addJump]
    · have no_entry : (decode code).entryAt? n = none := by simp [Decoding.entryAt?, jumpi, branches]
      have no_target : (decode code).resumeTarget? n = none := by
        simp [Decoding.resumeTarget?, jump, jumps, jumpi, branches]
      rw [if_neg branches]
      simp [no_entry, no_target, jumpi, branches, pure, Except.pure]

/-! The look ahead from a label goes by offsets. It reads opcodes only: a label has no operand, and as
long as the pattern fits neither have the instructions after it. -/

theorem opcodeAt_startOf_eq (m : Nat) {op : Opcode} (running : op ≠ .stop) :
    decide ((Cursor.past code capacity n).opcodeAt (startOf code m) = op) = (decode code).has m op := by
  rw [Cursor.opcodeAt_startOf]
  unfold Decoding.has
  cases (decode code)[m]? with
  | none => exact decide_eq_false running.symm
  | some j => rfl

theorem startOf_succ_of_has {m : Nat} {op : Opcode} (has : (decode code).has m op)
    (bare : op.pushWidth = 0) : startOf code (m + 1) = startOf code m + 1 := by
  obtain ⟨j, there, rfl⟩ := Decoding.has_iff.mp has
  rw [startOf_succ_of_pushWidth_eq_zero there bare, offset_eq_startOf there]

theorem beginsTable_past (label : (decode code).has n .jumpdest) :
    [Opcode.dup1, .calldataload].contains
        ((Cursor.past code capacity (n + 1)).opcodeAt (startOf code n + 1)) =
      (decode code).beginsTable n := by
  rw [← startOf_succ_of_has label (by decide)]
  have copy : decide ((Cursor.past code capacity (n + 1)).opcodeAt (startOf code (n + 1)) = .dup1) =
      (decode code).has (n + 1) .dup1 := opcodeAt_startOf_eq (n + 1) (by decide)
  have load : decide ((Cursor.past code capacity (n + 1)).opcodeAt (startOf code (n + 1)) = .calldataload) =
      (decode code).has (n + 1) .calldataload := opcodeAt_startOf_eq (n + 1) (by decide)
  unfold Decoding.beginsTable
  rw [← copy, ← load]
  simp

theorem guardFollows_past (label : (decode code).has n .jumpdest) :
    guardFollows (Cursor.past code capacity (n + 1)) (startOf code n) = (decode code).isGuarded n := by
  have first : startOf code (n + 1) = startOf code n + 1 := startOf_succ_of_has label (by decide)
  unfold guardFollows Decoding.isGuarded
  rw [label, Bool.true_and, ← first, opcodeAt_startOf_eq (n + 1) (by decide)]
  cases value : (decode code).has (n + 1) .callvalue with
  | false => rfl
  | true =>
    have second : startOf code (n + 2) = startOf code n + 2 := by
      rw [startOf_succ_of_has value (by decide), first]
    rw [← second, opcodeAt_startOf_eq (n + 2) (by decide)]
    cases copy : (decode code).has (n + 2) .dup1 with
    | false => rfl
    | true =>
      have third : startOf code (n + 3) = startOf code n + 3 := by
        rw [startOf_succ_of_has copy (by decide), second]
      rw [← third, opcodeAt_startOf_eq (n + 3) (by decide)]

theorem openRegion_past (label : (decode code).has n .jumpdest) (step : Nat) :
    s.openRegion (Cursor.past code capacity (n + 1)) (startOf code n) step =
      { s with
        closed := s.closed.push { s.current with last? := some (startOf code n - 1) }
        current := .opened (startOf code n) step
        inTable :=
          if s.resumePoints.contains (startOf code n) then (decode code).beginsTable n
          else s.inTable && s.selectors.isEmpty
        resumePoints := s.resumePoints.erase (startOf code n) } := by
  unfold openRegion
  rw [beginsTable_past label]
  cases resumed : s.resumePoints.contains (startOf code n) with
  | true => simp only [resumed, if_true]
  | false =>
    have kept : s.resumePoints.erase (startOf code n) = s.resumePoints :=
      List.erase_of_not_mem (by simpa using resumed)
    simp only [resumed, kept, Bool.false_eq_true, if_false]

theorem annotated_eq_self {is : Decoding} {inTable : Bool} (r : Region) (straight : is.staticTarget? n = none)
    (silent : tellingOpcodes.contains i.opcode = false) : annotated is inTable n i r = r := by
  unfold annotated jumpsAt
  rw [straight, silent]
  simp

/-- A label. -/
theorem atLabel_past (wide : 2 ≤ capacity) (here : (decode code)[n]? = some i) (label : i.opcode = .jumpdest) :
    s.atLabel (Cursor.past code capacity (n + 1)) = .ok (s.next (decode code) n i) := by
  have inside := (List.getElem?_eq_some_iff.mp here).1
  have has : (decode code).has n .jumpdest = true := by rw [Decoding.has_eq here, decide_eq_true label]
  have quiet : annotated (decode code) s.inTable n i s.current = s.current :=
    annotated_eq_self _ (Decoding.staticTarget?_of_label has) (by rw [label]; decide)
  have no_log : i.opcode.isLog = false := by rw [label]; decide
  have no_push : i.opcode ≠ .push32 := by rw [label]; decide
  have opens : ((((decode code).before? n 1).map Instruction.opcode).any fun op => op.isHalt || op = .jump) =
      (decode code).opensRegion n := by
    unfold Decoding.opensRegion
    rw [has, Bool.true_and]
    cases (decode code).before? n 1 with
    | none => rfl
    | some j => simp [Opcode.fallsThrough]
  unfold atLabel next
  rw [Cursor.back?_past 1 wide inside, Cursor.position_past here, Cursor.step_past]
  simp only [bind, Except.bind, pure, Except.pure, opens, Int.toNat_natCast, offset_eq_startOf here,
    guardFollows_past has, has, quiet, no_log, no_push, Decoding.entryAt?_of_label has,
    Decoding.resumeTarget?_of_label has, Bool.false_and, if_false, if_true, ite_self, Bool.false_eq_true]
  cases (decode code).opensRegion n with
  | false => cases (decode code).isGuarded n <;> rfl
  | true =>
    simp only [openRegion_past has, if_true]
    cases (decode code).isGuarded n <;> rfl

/-! ## Instructions that are no label -/

/-- Only a label opens a region, is recorded, or is guarded. -/
theorem next_of_no_label {is : Decoding} (other : is.has n .jumpdest = false) :
    s.next is n i =
      { s with
        current := annotated is s.inTable n i s.current
        selectors :=
          match if s.inTable then is.entryAt? n else none with
          | some (constant, target) => s.selectors.insert (selectorText constant) target
          | none => s.selectors
        topics :=
          if i.opcode.isLog && !s.lastPush32.isEmpty then s.topics.push (Hex.encodeMarked s.lastPush32)
          else s.topics
        resumePoints :=
          match if s.inTable then is.resumeTarget? n else none with
          | some target => s.resumePoints.insert target
          | none => s.resumePoints
        lastPush32 := if i.opcode = .push32 then i.operand else s.lastPush32 } := by
  have opens : is.opensRegion n = false := by simp [Decoding.opensRegion, other]
  have guarded : is.isGuarded n = false := by simp [Decoding.isGuarded, other]
  simp only [next, opens, guarded, other, Bool.false_eq_true, if_false]

/-- What is neither a label nor a jump can only tag its region, log a topic, or push one. -/
theorem next_of_no_jump {is : Decoding} (other : is.has n .jumpdest = false)
    (jump : is.has n .jump = false) (jumpi : is.has n .jumpi = false) :
    s.next is n i =
      { s with
        current := annotated is s.inTable n i s.current
        topics :=
          if i.opcode.isLog && !s.lastPush32.isEmpty then s.topics.push (Hex.encodeMarked s.lastPush32)
          else s.topics
        lastPush32 := if i.opcode = .push32 then i.operand else s.lastPush32 } := by
  have no_entry : is.entryAt? n = none := by simp [Decoding.entryAt?, jumpi]
  have no_target : is.resumeTarget? n = none := by simp [Decoding.resumeTarget?, jump, jumpi]
  rw [next_of_no_label other]
  simp only [no_entry, no_target, ite_self]

theorem not_telling_of_isLog {op : Opcode} (logs : op.isLog) : tellingOpcodes.contains op = false := by
  have none_logs : ∀ other ∈ tellingOpcodes, other.isLog = false := by decide
  cases telling : tellingOpcodes.contains op with
  | false => rfl
  | true =>
    have member := none_logs op (List.contains_iff_mem.mp telling)
    rw [logs] at member
    cases member

theorem ne_of_isLog {op other : Opcode} (logs : op.isLog) (silent : other.isLog = false) : op ≠ other := by
  rintro rfl
  rw [logs] at silent
  cases silent

/-- Reading the dispatch table adds the target of a conditional jump once more. -/
theorem annotated_inTable (is : Decoding) (n : Nat) (i : Instruction) (r : Region) :
    annotated is true n i r =
      { annotated is false n i r with
        jumps := (annotated is false n i r).jumps ++
          (if is.has n .jumpi then (is.staticTarget? n).toList else []).toArray } := by
  unfold annotated jumpsAt
  cases is.staticTarget? n with
  | none => simp
  | some target =>
    have twice : r.jumps ++ #[target, target] = (r.jumps.push target).push target := Array.ext' (by simp)
    cases is.has n .jumpi <;> simp [twice]

/-- One step of the scan, in closed form. It never fails, and it looks at nothing but landmarks. -/
theorem step_past (wide : window ≤ capacity) (here : (decode code)[n]? = some i) :
    s.step (Cursor.past code capacity (n + 1)) i.opcode = .ok (s.next (decode code) n i) := by
  have room : 2 ≤ capacity := Nat.le_trans (by decide) wide
  have inside := (List.getElem?_eq_some_iff.mp here).1
  have absent : ∀ {op : Opcode}, i.opcode ≠ op → (decode code).has n op = false := by
    intro op different
    rw [Decoding.has_eq here, decide_eq_false different]
  have straight : i.opcode ≠ .jump → i.opcode ≠ .jumpi → (decode code).staticTarget? n = none := by
    intro jump jumpi
    simp [Decoding.staticTarget?, absent jump, absent jumpi]
  unfold step
  by_cases constant : i.opcode = .push32
  · have operand : (Cursor.past code capacity (n + 1)).operand (-1) = .ok i.operand :=
      Cursor.operand_before 0 (by omega) inside here
    have jump : i.opcode ≠ .jump := by rw [constant]; decide
    have jumpi : i.opcode ≠ .jumpi := by rw [constant]; decide
    have label : i.opcode ≠ .jumpdest := by rw [constant]; decide
    have no_log : i.opcode.isLog = false := by rw [constant]; decide
    have silent : tellingOpcodes.contains i.opcode = false := by rw [constant]; decide
    rw [if_pos constant, operand, next_of_no_jump (absent label) (absent jump) (absent jumpi),
      annotated_eq_self _ (straight jump jumpi) silent, if_pos constant]
    simp [no_log, bind, Except.bind, pure, Except.pure]
  · rw [if_neg constant]
    by_cases logs : (i.opcode.isLog && !s.lastPush32.isEmpty) = true
    · have is_log := (Bool.and_eq_true_iff.mp logs).1
      have jump : i.opcode ≠ .jump := ne_of_isLog is_log (by decide)
      have jumpi : i.opcode ≠ .jumpi := ne_of_isLog is_log (by decide)
      have label : i.opcode ≠ .jumpdest := ne_of_isLog is_log (by decide)
      rw [if_pos logs, next_of_no_jump (absent label) (absent jump) (absent jumpi),
        annotated_eq_self _ (straight jump jumpi) (not_telling_of_isLog is_log), if_pos logs,
        if_neg constant]
      rfl
    · rw [if_neg logs]
      by_cases label : i.opcode = .jumpdest
      · rw [if_pos label]
        exact atLabel_past room here label
      · rw [if_neg label, annotate_past room here, next_of_no_label (absent label), if_neg logs,
          if_neg constant]
        simp only [bind, Except.bind]
        cases table : s.inTable with
        | false => simp [pure, Except.pure]
        | true => simp [readTable_past wide here, annotated_inTable]

/-! ## The run -/

/-- The state after the first `n` instructions. -/
def after (is : Decoding) : Nat → Scan
  | 0 => start
  | n + 1 =>
    match is[n]? with
    | some i => (after is n).next is n i
    | none => after is n

theorem after_succ {is : Decoding} (here : is[n]? = some i) : after is (n + 1) = (after is n).next is n i := by
  rw [after, here]

/-- The scan of the instructions from number `n` on ends in the state after the last of them. -/
theorem run_past (wide : window ≤ capacity) (n : Nat) (inside : n ≤ (decode code).length) :
    (after (decode code) n).run (Cursor.past code capacity n) =
      .ok (after (decode code) (decode code).length) := by
  rw [run]
  by_cases more : n < (decode code).length
  · have here := List.getElem?_eq_getElem more
    rw [dif_pos (by simpa using more)]
    simp only [Cursor.take_past here, step_past wide here, ← after_succ here]
    exact run_past wide (n + 1) more
  · have ended : n = (decode code).length := Nat.le_antisymm inside (Nat.le_of_not_lt more)
    rw [dif_neg (by simpa using more), ended]
termination_by (decode code).length - n

end Scan

/-- What the state after the last instruction of code holds. -/
def Program.scanned (code : Bytes) : Program := (Scan.after (decode code) (decode code).length).program

/-- A scan never fails, and it ends after the last instruction. -/
theorem ofCode_eq (code : Bytes) : Program.ofCode code = .ok (Program.scanned code) := by
  unfold Program.ofCode
  rw [Cursor.start_eq_past]
  exact congrArg (Scan.program <$> ·) (Scan.run_past (Nat.le_refl _) 0 (Nat.zero_le _))

end AbiRecovery
