import AbiRecovery.Proofs.CursorPast

/-!
# The history of a cursor

A cursor is moved and asked in any order. What it answers then is told by the number of instructions that it has taken
and by linear decoding (`cursor_answers_by_decoding`): as far back as its capacity reaches it knows where each
instruction stands, what it is and what its operand is, and beyond that it refuses. It answers so if it keeps no
more offsets than its capacity and forgets the oldest one for each new one (`Cursor.runForgetting_eq`).
-/
namespace AbiRecovery

namespace Cursor

/-- Something that is done with a cursor: a move, or a question. -/
inductive Action where
  | take
  | hasMore
  | step
  | position
  | depth
  | capacity
  | offset (place : Place)
  | opcode (place : Place)
  | operand (place : Place)
  deriving DecidableEq, Repr

/-- What comes of it. -/
inductive Reply where
  | taken (op : Opcode)
  | flag (holds : Bool)
  | number (n : Int)
  | offset (result : Except LookbackFault Nat)
  | opcode (result : Except LookbackFault Opcode)
  | operand (result : Except LookbackFault Bytes)

/-- One action. -/
def act (c : Cursor) : Action → Reply × Cursor
  | .take => (.taken c.take.1, c.take.2)
  | .hasMore => (.flag c.hasMore, c)
  | .step => (.number c.step, c)
  | .position => (.number c.position, c)
  | .depth => (.number c.depth, c)
  | .capacity => (.number c.capacity, c)
  | .offset place => (.offset (c.offset place), c)
  | .opcode place => (.opcode (c.opcode place), c)
  | .operand place => (.operand (c.operand place), c)

/-- Actions one after another, with their replies. -/
def run (c : Cursor) : List Action → List Reply × Cursor
  | [] => ([], c)
  | action :: actions =>
    let (reply, c) := c.act action
    let (replies, c) := c.run actions
    (reply :: replies, c)

/-- How many of the actions take an instruction from bytes. -/
def takes (c : Cursor) : List Action → Nat
  | [] => 0
  | action :: actions => (if action = .take ∧ c.hasMore then 1 else 0) + (c.act action).2.takes actions

/-! ## A cursor that forgets -/

/-- The cursor without the offsets that its capacity has no room for. -/
def forget (c : Cursor) : Cursor := { c with history := c.history.take c.capacity }

/-- Actions one after another, each of which is followed by forgetting. -/
def runForgetting (c : Cursor) : List Action → List Reply × Cursor
  | [] => ([], c)
  | action :: actions =>
    let (reply, c) := c.act action
    let (replies, c) := c.forget.runForgetting actions
    (reply :: replies, c)

theorem length_history_forget_le (c : Cursor) : c.forget.history.length ≤ c.capacity := List.length_take_le _ _

theorem refusal_forget (c : Cursor) (step : Int) : c.forget.refusal step = c.refusal step := by
  unfold refusal
  rfl

theorem offset_forget (c : Cursor) (place : Place) : c.forget.offset place = c.offset place := by
  unfold offset
  by_cases back : place < 0
  · have depth : c.forget.depth = c.depth := rfl
    rw [if_pos back, if_pos back, depth, refusal_forget]
    by_cases kept : place.natAbs ≤ c.depth
    · have within : place.natAbs - 1 < c.capacity := by
        have positive : 0 < place.natAbs := Int.natAbs_pos.mpr (Int.ne_of_lt back)
        have deep : c.depth ≤ c.capacity := Nat.min_le_right _ _
        omega
      have same : c.forget.history[place.natAbs - 1]? = c.history[place.natAbs - 1]? :=
        List.getElem?_take_of_lt within
      rw [same]
    · simp only [kept, if_false]
      cases c.forget.history[place.natAbs - 1]? <;> cases c.history[place.natAbs - 1]? <;> rfl
  · rw [if_neg back, if_neg back]

theorem position_forget {c : Cursor} (room : 0 < c.capacity) : c.forget.position = c.position := by
  obtain ⟨more, same⟩ := Nat.exists_eq_add_one_of_ne_zero (Nat.ne_of_gt room)
  unfold position forget
  rw [same]
  cases c.history <;> rfl

/-- A new offset drives out the oldest one, which nobody could ask for. -/
theorem take_cons_take (offset capacity : Nat) (history : List Nat) :
    (offset :: history.take capacity).take capacity = (offset :: history).take capacity := by
  cases capacity with
  | zero => rfl
  | succ capacity => rw [List.take_succ_cons, List.take_succ_cons, List.take_take, Nat.min_eq_left (Nat.le_succ _)]

theorem forget_forget (c : Cursor) : c.forget.forget = c.forget := by
  unfold forget
  rw [List.take_take, Nat.min_self]

theorem forget_start (code : Bytes) (capacity : Nat) : (start code capacity).forget = start code capacity := by
  unfold forget start
  rw [List.take_nil]

theorem take_forget (c : Cursor) : c.forget.take.1 = c.take.1 ∧ c.forget.take.2.forget = c.take.2.forget := by
  have same : c.forget.hasMore = c.hasMore := rfl
  unfold take
  rw [same]
  cases c.hasMore with
  | false => exact ⟨rfl, c.forget_forget⟩
  | true =>
    refine ⟨rfl, ?_⟩
    have remembered := take_cons_take c.next c.capacity c.history
    simp only [if_true, forget, remembered]
    rfl

/-- A cursor that has forgotten replies as one that has not, and what it remembers after that is the same. -/
theorem act_forget {c : Cursor} (room : 0 < c.capacity) (action : Action) :
    (c.forget.act action).1 = (c.act action).1 ∧ (c.forget.act action).2.forget = (c.act action).2.forget := by
  have opcode (place : Place) : c.forget.opcode place = c.opcode place := by
    unfold Cursor.opcode
    rw [offset_forget]
    rfl
  have operand (place : Place) : c.forget.operand place = c.operand place := by
    unfold Cursor.operand
    rw [offset_forget]
    rfl
  cases action with
  | take => exact ⟨congrArg Reply.taken c.take_forget.1, c.take_forget.2⟩
  | hasMore | step | depth | capacity => exact ⟨rfl, c.forget_forget⟩
  | position => exact ⟨congrArg Reply.number (position_forget room), c.forget_forget⟩
  | offset place => exact ⟨congrArg Reply.offset (offset_forget c place), c.forget_forget⟩
  | opcode place => exact ⟨congrArg Reply.opcode (opcode place), c.forget_forget⟩
  | operand place => exact ⟨congrArg Reply.operand (operand place), c.forget_forget⟩

theorem capacity_act (c : Cursor) (action : Action) : (c.act action).2.capacity = c.capacity := by
  cases action with
  | take =>
    unfold act take
    cases c.hasMore <;> rfl
  | _ => rfl

/-- A cursor that forgets replies to any actions as one that does not. -/
theorem runForgetting_forget (actions : List Action) {c : Cursor} (room : 0 < c.capacity) :
    c.forget.runForgetting actions = ((c.run actions).1, (c.run actions).2.forget) := by
  induction actions generalizing c with
  | nil => rfl
  | cons action actions ih =>
    obtain ⟨reply, kept⟩ := act_forget room action
    have room' : 0 < (c.act action).2.capacity := by rwa [capacity_act]
    simp only [runForgetting, run, reply, kept, ih room']

/-! ## Actions and decoding -/

variable {code : Bytes} {capacity k : Nat}

/-- What is not a move, and what is one with no bytes left, leaves the cursor as it is. -/
theorem act_of_stays {c : Cursor} {action : Action} (stays : action = .take → c.hasMore = false) :
    (c.act action).2 = c := by
  cases action with
  | take =>
    unfold act take
    rw [stays rfl]
    rfl
  | _ => rfl

theorem act_past (code : Bytes) (capacity k : Nat) (action : Action) :
    ((past code capacity k).act action).2 =
      past code capacity (k + if action = .take ∧ (past code capacity k).hasMore then 1 else 0) := by
  by_cases moves : action = .take ∧ (past code capacity k).hasMore
  · obtain ⟨rfl, more⟩ := moves
    have here := List.getElem?_eq_getElem (of_decide_eq_true (hasMore_past ▸ more))
    rw [if_pos ⟨rfl, more⟩]
    show (past code capacity k).take.2 = _
    rw [take_past here]
  · rw [if_neg moves]
    exact act_of_stays fun isTake => by simpa [isTake] using moves

/-- After any actions a cursor has taken as many instructions as there were takes from bytes. -/
theorem run_past (actions : List Action) (k : Nat) :
    ((past code capacity k).run actions).2 = past code capacity (k + (past code capacity k).takes actions) := by
  induction actions generalizing k with
  | nil => rfl
  | cons action actions ih =>
    simp only [run, takes, act_past, ih, Nat.add_assoc]

/-- There are no more takes from bytes than instructions. -/
theorem takes_past_le (actions : List Action) {k : Nat} (inside : k ≤ (decode code).length) :
    k + (past code capacity k).takes actions ≤ (decode code).length := by
  induction actions generalizing k with
  | nil => exact inside
  | cons action actions ih =>
    rw [takes, act_past, ← Nat.add_assoc]
    refine ih ?_
    split
    next moves => exact of_decide_eq_true (hasMore_past ▸ moves.2)
    next => exact inside

theorem refusal_of_lt {c : Cursor} {count : Nat} (short : count < Text.leastLong) :
    c.refusal (-(count : Int)) = .beyond (-(count : Int)) c.depth c.capacity := by
  have told : Text.isLong (-(count : Int)) = false :=
    decide_eq_false (by rwa [Int.natAbs_neg, Int.natAbs_natCast, Nat.not_le])
  rw [refusal, told]
  rfl

theorem refusal_of_le {c : Cursor} {count : Nat} (long : Text.leastLong ≤ count) :
    c.refusal (-(count : Int)) = .untold := by
  have untold : Text.isLong (-(count : Int)) = true := decide_eq_true (by rwa [Int.natAbs_neg, Int.natAbs_natCast])
  rw [refusal, untold]
  rfl

/-- Beyond its depth a cursor refuses. -/
theorem offset_beyond {c : Cursor} {count : Nat} (deep : c.depth < count) :
    c.offset (-(count : Int)) = .error (c.refusal (-(count : Int))) := by
  have negative : (-(count : Int)) < 0 := by omega
  have steps : (-(count : Int)).natAbs = count := by omega
  unfold offset
  rw [if_pos negative, steps]
  cases c.history[count - 1]? with
  | none => rfl
  | some offset => exact if_neg (Nat.not_le_of_lt deep)

end Cursor

/-- What a cursor over code answers that has taken `k` instructions and remembers `capacity` of them at most. -/
structure Cursor.AnswersAfter (code : Bytes) (capacity k : Nat) (c : Cursor) : Prop where
  step : c.step = (k : Int) - 1
  depth : c.depth = min k capacity
  /-- The latest instruction is the one at the position. -/
  position : c.position = if k = 0 then -1 else (startOf code (k - 1) : Int)
  /-- Within the depth everything is known about the instruction that stands there. -/
  known : ∀ count, 1 ≤ count → count ≤ c.depth → ∃ i, (decode code)[k - count]? = some i ∧
    c.offset (-(count : Int)) = .ok i.offset ∧ c.opcode (-(count : Int)) = .ok i.opcode ∧
      c.operand (-(count : Int)) = .ok i.operand
  /-- Beyond the depth every question is refused, with the number of the step if it is not too long to be told. -/
  refused : ∀ count : Nat, c.depth < count → ∃ fault : LookbackFault,
    c.offset (-(count : Int)) = .error fault ∧ c.opcode (-(count : Int)) = .error fault ∧
      c.operand (-(count : Int)) = .error fault ∧
      (count < Text.leastLong → fault = .beyond (-(count : Int)) c.depth capacity) ∧
      (Text.leastLong ≤ count → fault = .untold)
  /-- A move takes the next instruction, and where there is none it is `STOP`. -/
  next : c.take.1 = ((decode code)[k]?.map Instruction.opcode).getD .stop
  ended : c.hasMore = false ↔ k = (decode code).length

theorem Cursor.answersAfter_past {code : Bytes} (capacity : Nat) {k : Nat} (inside : k ≤ (decode code).length) :
    AnswersAfter code capacity k (past code capacity k) := by
  constructor
  case step => rfl
  case depth => rfl
  case position =>
    cases k with
    | zero => rfl
    | succ k =>
      have here := List.getElem?_eq_getElem inside
      rw [position_past here, if_neg (Nat.succ_ne_zero k), offset_eq_startOf here, Nat.add_sub_cancel]
  case known =>
    intro count positive within
    have taken : count ≤ k := Nat.le_trans within (Nat.min_le_left _ _)
    have kept : count ≤ capacity := Nat.le_trans within (Nat.min_le_right _ _)
    have there := List.getElem?_eq_getElem (l := decode code) (i := k - count) (by omega)
    exact ⟨_, there, offset_back positive taken kept inside there, opcode_back positive taken kept inside there,
      operand_back positive taken kept inside there⟩
  case refused =>
    intro count beyond
    have refused := offset_beyond beyond
    refine ⟨_, refused, ?_, ?_, refusal_of_lt, refusal_of_le⟩
    · rw [opcode, refused]
      rfl
    · rw [operand, refused]
      rfl
  case next =>
    cases here : (decode code)[k]? with
    | some i => rw [take_past here]; rfl
    | none =>
      have ended : (past code capacity k).hasMore = false := by
        simpa using List.getElem?_eq_none_iff.mp here
      unfold take
      rw [ended]
      rfl
  case ended =>
    rw [hasMore_past, decide_eq_false_iff_not]
    omega

/-- Whatever has been done with a cursor, its answers are told by the number of instructions that it has taken: as far
back as its size reaches, a size below one counting as one, they are those of linear decoding, and beyond that they are
refused. Only a take from bytes moves it. All the time it need not remember more than the latest offsets, as many as
it has room for, to reply as it does. -/
theorem cursor_answers_by_decoding (code : Bytes) (size : Int) (held : size ≤ SizeLimit.greatest)
    (actions : List Cursor.Action) :
    ∃ capacity : Nat, Cursor.capacityFor size = .ok capacity ∧ (capacity : Int) = max size 1 ∧
      let start := Cursor.start code capacity
      let c := (start.run actions).2
      Cursor.AnswersAfter code capacity (start.takes actions) c ∧
      (c.hasMore = false → c.take.1 = .stop) ∧
      (∀ action, (action = .take → c.hasMore = false) → (c.act action).2 = c) ∧
      start.runForgetting actions = ((start.run actions).1, c.forget) ∧ c.forget.history.length ≤ capacity := by
  have room := Cursor.pos_of_capacityFor (Cursor.capacityFor_of_le held)
  refine ⟨(max size 1).toNat, Cursor.capacityFor_of_le held, by omega, ?_⟩
  intro start c
  have reached : c = .past code (max size 1).toNat (start.takes actions) := by
    have run : c = .past code (max size 1).toNat (0 + start.takes actions) := Cursor.run_past actions 0
    rwa [Nat.zero_add] at run
  have inside : start.takes actions ≤ (decode code).length := by
    have bound : 0 + start.takes actions ≤ (decode code).length := Cursor.takes_past_le actions (Nat.zero_le _)
    rwa [Nat.zero_add] at bound
  have answers := Cursor.answersAfter_past (max size 1).toNat inside
  rw [← reached] at answers
  refine ⟨answers, fun ended => ?_, fun action => Cursor.act_of_stays, ?_, ?_⟩
  · rw [answers.next, answers.ended.mp ended, List.getElem?_eq_none (Nat.le_refl _)]
    rfl
  · have same := Cursor.runForgetting_forget actions (c := start) room
    rwa [Cursor.forget_start] at same
  · rw [reached]
    exact Cursor.length_history_forget_le _

/-- An addition, a full push, a multiplication, and a push that the end of the code cuts short. -/
def fourInstructions : Bytes := [0x01, 0x60, 0xaa, 0x02, 0x61, 0x05]

theorem cursor_answers_by_decoding_of_two :
    let actions : List Cursor.Action :=
      [.opcode (-1), .take, .position, .take, .operand (-1), .take, .offset (-3), .take, .take, .hasMore]
    let c := ((Cursor.start fourInstructions 2).run actions).2
    (2 : Int) ≤ SizeLimit.greatest ∧ Cursor.capacityFor 2 = .ok 2 ∧ c.depth = 2 ∧
      Cursor.AnswersAfter fourInstructions 2 4 c ∧ c.take.1 = .stop ∧ (c.act .take).2 = c ∧
      (Cursor.start fourInstructions 2).runForgetting actions =
        (((Cursor.start fourInstructions 2).run actions).1, c.forget) := by
  intro actions c
  have held : (2 : Int) ≤ SizeLimit.greatest := by decide
  obtain ⟨capacity, kept, size, answers, stops, stays, forgetting, -⟩ := cursor_answers_by_decoding fourInstructions 2 held actions
  obtain rfl : capacity = 2 := by omega
  have ended : c.hasMore = false := by decide
  have taken : (Cursor.start fourInstructions 2).takes actions = 4 := by decide
  exact ⟨held, kept, by decide, taken ▸ answers, stops ended, stays .take fun _ => ended, forgetting⟩

/-- There is no cursor that remembers more than the greatest size. -/
theorem no_cursor_beyond_greatest :
    ¬ ∃ capacity, Cursor.capacityFor 9223372036854775808 = .ok capacity ∧
      (Cursor.start [0x00] capacity).step = -1 ∧ (Cursor.start [0x00] capacity).depth = 0 := by
  have refused : Cursor.capacityFor 9223372036854775808 = .error .noSize :=
    Cursor.capacityFor_of_lt (by decide)
  rintro ⟨capacity, kept, -⟩
  rw [refused] at kept
  cases kept

end AbiRecovery
