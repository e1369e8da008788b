import AbiRecovery.Proofs.ScanState

/-!
# Looking back over everything

A scan that forgets nothing: its looks back go to the list of all instructions taken so far, and where
there are not so many it finds none. It needs no cursor and cannot fail. `Remembers` gathers what a
step asks of the history of a cursor; whoever answers this for five instructions makes the scan take
the step of the one that forgets nothing (`step_of_remembers`), and a cursor does that in every run and
for every capacity from five on (`remembers_past`).
-/
namespace AbiRecovery

/-- Code, and all the instructions that have been taken from it. -/
structure Transcript where
  code : Bytes
  taken : Decoding

namespace Transcript

/-- The instruction `count` back, counted from one, if so many have been taken. -/
def back? (t : Transcript) (count : Nat) : Option Instruction := t.taken.before? t.taken.length count

def opcode? (t : Transcript) (count : Nat) : Option Opcode := (t.back? count).map Instruction.opcode

/-- The constant that the instruction `count` back pushes, if it is a push. -/
def pushed? (t : Transcript) (count : Nat) : Option Bytes :=
  ((t.back? count).filter fun i => i.opcode.isPush).map Instruction.operand

def target? (t : Transcript) : Option Nat := (t.pushed? 2).map Bytes.toNat

/-- What looks ahead goes by offsets and asks nothing of a history, so a cursor without one serves. -/
def reader (t : Transcript) : Cursor := .start t.code 0

def atLabel (t : Transcript) (i : Instruction) (s : Scan) : Scan :=
  let step := t.taken.length - 1
  let s := if (t.opcode? 2).any fun op => op.isHalt || op = .jump then s.openRegion t.reader i.offset step else s
  let s := { s with labels := s.labels.push (i.offset, s.current.start) }
  if Scan.guardFollows t.reader i.offset then { s with guards := s.guards.push (i.offset, step) } else s

def annotate (t : Transcript) (op : Opcode) (s : Scan) : Scan :=
  match if op = .jump || op = .jumpi then t.target? else none with
  | some target => (s.addJump target).addTag op
  | none => s.addTag op

def readEntry (t : Transcript) (target : Nat) (s : Scan) : Scan :=
  let s := s.addJump target
  match if t.opcode? 3 = some .eq then t.pushed? 4 else none with
  | some constant => s.addSelector constant target
  | none =>
    match if t.opcode? 3 = some .eq && t.opcode? 4 = some .dup2 then t.pushed? 5 else none with
    | some constant => s.addSelector constant target
    | none =>
      if (t.opcode? 3 = some .lt || t.opcode? 3 = some .gt) && t.opcode? 5 = some .dup1 then
        s.addResumePoint target
      else s

def readTable (t : Transcript) (op : Opcode) (s : Scan) : Scan :=
  match t.target? with
  | some target =>
    if op = .jump then s.addResumePoint target
    else if op = .jumpi then t.readEntry target s
    else s
  | none => s

/-- One instruction, which has just been taken. -/
def step (t : Transcript) (i : Instruction) (s : Scan) : Scan :=
  if i.opcode = .push32 then { s with lastPush32 := i.operand }
  else if i.opcode.isLog && !s.lastPush32.isEmpty then
    { s with topics := s.topics.push (Hex.encodeMarked s.lastPush32) }
  else if i.opcode = .jumpdest then t.atLabel i s
  else
    let s := t.annotate i.opcode s
    if s.inTable then t.readTable i.opcode s else s

/-- The states after each of the instructions that are still to be taken. -/
def states (t : Transcript) (s : Scan) : Decoding → List Scan
  | [] => []
  | i :: left =>
    let t := { t with taken := t.taken ++ [i] }
    t.step i s :: t.states (t.step i s) left

/-- The first `n` instructions of code. -/
def past (code : Bytes) (n : Nat) : Transcript := ⟨code, (decode code).take n⟩

variable {code : Bytes} {capacity n : Nat} {i : Instruction}

theorem length_taken_past (inside : n < (decode code).length) : (past code (n + 1)).taken.length = n + 1 := by
  unfold past
  rw [List.length_take, Nat.min_eq_left inside]

theorem back?_past (count : Nat) (inside : n < (decode code).length) :
    (past code (n + 1)).back? (count + 1) = (decode code).before? n count := by
  unfold back? Decoding.before?
  rw [length_taken_past inside]
  by_cases enough : count ≤ n
  · rw [if_pos (by omega), if_pos enough, Nat.add_sub_add_right]
    exact List.getElem?_take_of_lt (by omega)
  · rw [if_neg (by omega), if_neg enough]

theorem any_isPush_opcode? (t : Transcript) (count : Nat) :
    (t.opcode? count).any Opcode.isPush = (t.pushed? count).isSome := by
  unfold opcode? pushed?
  cases t.back? count with
  | none => rfl
  | some j => cases push : j.opcode.isPush <;> simp [push, Option.filter]

/-- The states of a scan that forgets nothing, one after each instruction of code. -/
def scanStates (code : Bytes) : List Scan := (past code 0).states .start (decode code)

end Transcript

/-- A cursor that has just taken `i` answers as the transcript does, as far back as the scan looks. -/
structure Remembers (c : Cursor) (t : Transcript) (i : Instruction) : Prop where
  reads : c.code = t.code.toArray
  position : c.position = i.offset
  number : c.step = (t.taken.length - 1 : Nat)
  operand : c.operand (-1) = .ok i.operand
  back : ∀ count < Scan.window, c.back? (count + 1) = .ok (t.opcode? (count + 1))
  constant : ∀ count < Scan.window, ∀ operand, t.pushed? (count + 1) = some operand →
    c.operand (-((count + 1 : Nat) : Int)) = .ok operand

theorem remembers_past {code : Bytes} {capacity n : Nat} {i : Instruction} (wide : Scan.window ≤ capacity)
    (here : (decode code)[n]? = some i) :
    Remembers (Cursor.past code capacity (n + 1)) (Transcript.past code (n + 1)) i := by
  have inside := (List.getElem?_eq_some_iff.mp here).1
  constructor
  case reads => rfl
  case position => exact Cursor.position_past here
  case number =>
    rw [Cursor.step_past, Transcript.length_taken_past inside]
    rfl
  case operand => exact Cursor.operand_before 0 (Nat.le_trans (by decide) wide) inside here
  case back =>
    intro count near
    rw [Cursor.back?_past count (by omega) inside, Transcript.opcode?, Transcript.back?_past count inside]
  case constant =>
    intro count near operand pushed
    unfold Transcript.pushed? at pushed
    rw [Transcript.back?_past count inside] at pushed
    exact Scan.operand_of_pushedBefore? count (by omega) inside pushed

namespace Remembers

variable {c : Cursor} {t : Transcript} {i : Instruction} (remembers : Remembers c t i) (s : Scan)

include remembers

theorem opcodeAt_eq (offset : Nat) : c.opcodeAt offset = t.reader.opcodeAt offset := by
  unfold Cursor.opcodeAt
  rw [remembers.reads]
  rfl

theorem atLabel_eq : s.atLabel c = .ok (t.atLabel i s) := by
  have step : c.step.toNat = t.taken.length - 1 := by rw [remembers.number, Int.toNat_natCast]
  have guard : Scan.guardFollows c i.offset = Scan.guardFollows t.reader i.offset := by
    unfold Scan.guardFollows
    simp only [remembers.opcodeAt_eq]
  have opens : s.openRegion c i.offset (t.taken.length - 1) =
      s.openRegion t.reader i.offset (t.taken.length - 1) := by
    unfold Scan.openRegion
    rw [remembers.opcodeAt_eq]
  unfold Scan.atLabel
  rw [remembers.back 1 (by decide), remembers.position, Int.toNat_natCast, step]
  simp only [bind, Except.bind, pure, Except.pure, guard, opens]
  unfold Transcript.atLabel
  cases Scan.guardFollows t.reader i.offset <;> rfl

theorem pushedTarget?_eq : Scan.pushedTarget? c = .ok t.target? := by
  unfold Scan.pushedTarget? Transcript.target?
  rw [remembers.back 1 (by decide)]
  simp only [bind, Except.bind, t.any_isPush_opcode?]
  cases pushed : t.pushed? 2 with
  | none => rfl
  | some operand =>
    have read : c.operand (-2) = .ok operand := remembers.constant 1 (by decide) operand pushed
    rw [read]
    rfl

theorem annotate_eq (op : Opcode) : s.annotate c op = .ok (t.annotate op s) := by
  unfold Scan.annotate Transcript.annotate
  rw [remembers.pushedTarget?_eq]
  split
  · simp only [bind, Except.bind]
    cases t.target? <;> rfl
  · rfl

/-- Every operand that is read was seen to be a push before, so none is asked for in vain. -/
theorem readEntry_eq (target : Nat) : s.readEntry c target = .ok (t.readEntry target s) := by
  unfold Scan.readEntry Transcript.readEntry
  rw [remembers.back 2 (by decide), remembers.back 3 (by decide), remembers.back 4 (by decide)]
  simp only [bind, Except.bind, t.any_isPush_opcode?]
  by_cases equality : t.opcode? 3 = some .eq
  · cases first : t.pushed? 4 with
    | some constant =>
      have read : c.operand (-4) = .ok constant := remembers.constant 3 (by decide) constant first
      rw [read]
      simp [equality, pure, Except.pure]
    | none =>
      by_cases copied : t.opcode? 4 = some .dup2
      · cases second : t.pushed? 5 with
        | some constant =>
          have read : c.operand (-5) = .ok constant := remembers.constant 4 (by decide) constant second
          rw [read]
          simp [equality, copied, pure, Except.pure]
        | none =>
          simp only [equality, copied, Option.isSome_none, Bool.and_false, Bool.false_eq_true, if_false, ite_self]
          split <;> rfl
      · simp only [equality, copied, decide_false, Option.isSome_none, Bool.and_false, Bool.false_and,
          Bool.false_eq_true, if_false, ite_self]
        split <;> rfl
  · simp only [equality, decide_false, Bool.false_and, Bool.false_eq_true, if_false]
    split <;> rfl

theorem readTable_eq (op : Opcode) : s.readTable c op = .ok (t.readTable op s) := by
  unfold Scan.readTable Transcript.readTable
  rw [remembers.pushedTarget?_eq]
  simp only [bind, Except.bind]
  by_cases jumps : op = .jump
  · rw [if_pos jumps]
    cases t.target? with
    | none => rfl
    | some target => simp [jumps, pure, Except.pure]
  · rw [if_neg jumps]
    by_cases branches : op = .jumpi
    · rw [if_pos branches]
      cases t.target? with
      | none => rfl
      | some target =>
        have other : ¬Opcode.jumpi = .jump := by decide
        simp only [branches, other, if_true, if_false, remembers.readEntry_eq]
    · rw [if_neg branches]
      cases t.target? with
      | none => rfl
      | some target => simp [jumps, branches, pure, Except.pure]

/-- Whoever remembers five instructions makes the scan take the step of the one that forgets nothing. -/
theorem step_eq : s.step c i.opcode = .ok (t.step i s) := by
  unfold Scan.step Transcript.step
  rw [remembers.operand, remembers.atLabel_eq, remembers.annotate_eq]
  simp only [bind, Except.bind]
  by_cases constant : i.opcode = .push32
  · rw [if_pos constant, if_pos constant]
    rfl
  rw [if_neg constant, if_neg constant]
  by_cases logs : (i.opcode.isLog && !s.lastPush32.isEmpty) = true
  · rw [if_pos logs, if_pos logs]
    rfl
  rw [if_neg logs, if_neg logs]
  by_cases label : i.opcode = .jumpdest
  · rw [if_pos label, if_pos label]
  rw [if_neg label, if_neg label, remembers.readTable_eq]
  cases (t.annotate i.opcode s).inTable <;> rfl

end Remembers

/-! ## Runs -/

namespace Transcript

variable {code : Bytes} {capacity n : Nat} {i : Instruction}

theorem step_past (wide : Scan.window ≤ capacity) (here : (decode code)[n]? = some i) (s : Scan) :
    s.step (Cursor.past code capacity (n + 1)) i.opcode = .ok ((past code (n + 1)).step i s) :=
  (remembers_past wide here).step_eq s

/-- Before instruction `i` the states to come are the one after it and those after that one. -/
theorem states_past (here : (decode code)[n]? = some i) (s : Scan) :
    (past code n).states s ((decode code).drop n) =
      (past code (n + 1)).step i s ::
        (past code (n + 1)).states ((past code (n + 1)).step i s) ((decode code).drop (n + 1)) := by
  obtain ⟨inside, rfl⟩ := List.getElem?_eq_some_iff.mp here
  have taken : (decode code).take n ++ [(decode code)[n]] = (decode code).take (n + 1) := by
    rw [List.take_add_one, here, Option.toList_some]
  rw [List.drop_eq_getElem_cons inside, states]
  simp only [past, taken]

theorem states_past_of_length_le (ended : (decode code).length ≤ n) (s : Scan) :
    (past code n).states s ((decode code).drop n) = [] := by
  rw [List.drop_of_length_le ended, states]

/-- A scan with room for five instructions goes through the states of the one that forgets nothing. -/
theorem traceFrom_past (wide : Scan.window ≤ capacity) (n : Nat) (s : Scan) (done : List Scan) :
    Scan.traceFrom (fun _ _ s => s) s (Cursor.past code capacity n) done =
      .ok (done.reverse ++ (past code n).states s ((decode code).drop n)) := by
  rw [Scan.traceFrom]
  by_cases more : n < (decode code).length
  · have here := List.getElem?_eq_getElem more
    rw [dif_pos (by simpa using more)]
    simp only [Cursor.take_past here, step_past wide here]
    rw [traceFrom_past wide (n + 1), states_past here, List.reverse_cons, List.append_assoc, List.singleton_append]
  · rw [dif_neg (by simpa using more), states_past_of_length_le (Nat.le_of_not_lt more), List.append_nil]
termination_by (decode code).length - n

theorem run_past (wide : Scan.window ≤ capacity) (n : Nat) (s : Scan) :
    s.run (Cursor.past code capacity n) = .ok (((past code n).states s ((decode code).drop n)).getLastD s) := by
  rw [Scan.run]
  by_cases more : n < (decode code).length
  · have here := List.getElem?_eq_getElem more
    rw [dif_pos (by simpa using more)]
    simp only [Cursor.take_past here, step_past wide here]
    rw [run_past wide (n + 1), states_past here, List.getLastD_cons]
  · rw [dif_neg (by simpa using more), states_past_of_length_le (Nat.le_of_not_lt more)]
    rfl
termination_by (decode code).length - n

end Transcript

/-- A history of five instructions is enough. With any longer one a scan goes through the same states, one
after each instruction, and finds the same program; they are the states of a scan that looks back over all
instructions so far, and no step fails. -/
theorem scan_needs_five (code : Bytes) (size : Int) (wide : 5 ≤ size) (held : size ≤ SizeLimit.greatest) :
    ∃ capacity, Cursor.capacityFor size = .ok capacity ∧
      Scan.traceFrom (fun _ _ s => s) .start (.start code capacity) [] = .ok (Transcript.scanStates code) ∧
      Scan.trace (fun _ _ s => s) code = .ok (Transcript.scanStates code) ∧
      Scan.program <$> Scan.start.run (.start code capacity) =
        .ok ((Transcript.scanStates code).getLastD .start).program ∧
      Program.ofCode code = .ok ((Transcript.scanStates code).getLastD .start).program := by
  have room : Scan.window ≤ (max size 1).toNat := by
    have least : Scan.window = 5 := rfl
    omega
  have five : Scan.window ≤ Scan.window := Nat.le_refl _
  have traced : ∀ {capacity : Nat}, Scan.window ≤ capacity →
      Scan.traceFrom (fun _ _ s => s) .start (.start code capacity) [] = .ok (Transcript.scanStates code) :=
    fun wide => Transcript.traceFrom_past wide 0 .start []
  have scanned : ∀ {capacity : Nat}, Scan.window ≤ capacity →
      Scan.program <$> Scan.start.run (.start code capacity) =
        .ok ((Transcript.scanStates code).getLastD .start).program := by
    intro capacity wide
    have run : Scan.start.run (.start code capacity) = .ok ((Transcript.scanStates code).getLastD .start) :=
      Transcript.run_past wide 0 .start
    exact congrArg (Scan.program <$> ·) run
  exact ⟨_, Cursor.capacityFor_of_le held, traced room, traced five, scanned room, scanned five⟩

/-- An entry of the dispatch table that is known by the instruction five back. -/
def swappedEntry : Bytes := [0x63, 0xaa, 0xbb, 0xcc, 0xdd, 0x81, 0x14, 0x60, 0x0a, 0x57]

theorem scan_needs_five_of_seven :
    (5 : Int) ≤ 7 ∧ (7 : Int) ≤ SizeLimit.greatest ∧
      ∃ capacity p, Cursor.capacityFor 7 = .ok capacity ∧
        Scan.program <$> Scan.start.run (.start swappedEntry capacity) = .ok p ∧
        Program.ofCode swappedEntry = .ok p ∧ p.selectors = [(Text.ofString "0xaabbccdd", 0x0a)] := by
  have wide : (5 : Int) ≤ 7 := by decide
  have held : (7 : Int) ≤ SizeLimit.greatest := by decide
  obtain ⟨capacity, kept, _, _, found, same⟩ := scan_needs_five swappedEntry 7 wide held
  have entry : ((Transcript.scanStates swappedEntry).getLastD .start).program.selectors =
      [(Text.ofString "0xaabbccdd", 0x0a)] := by
    decide +kernel
  exact ⟨wide, held, capacity, _, kept, found, same, entry⟩

/-- A history of more than the greatest size is refused, so no scan begins with it. -/
theorem no_scan_beyond_greatest :
    ¬ ∃ capacity, Cursor.capacityFor 9223372036854775808 = .ok capacity ∧
      ∃ s, Scan.start.run (.start [0x00] capacity) = .ok s := by
  have refused : Cursor.capacityFor 9223372036854775808 = .error .noSize :=
    Cursor.capacityFor_of_lt (by decide)
  rintro ⟨capacity, kept, _⟩
  rw [refused] at kept
  cases kept

end AbiRecovery
