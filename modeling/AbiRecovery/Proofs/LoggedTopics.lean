import AbiRecovery.Proofs.SelectorWidth

/-!
# Which constants are logged as topics

A scan remembers the operand of the latest `PUSH32`, across jumps and regions, and reports it at every log. So the
topics of code are told by its instructions alone, log by log (`topics_exact`). That a constant has been seen is tested
by its text not being empty. No constant of code has an empty text where a log is met: only the operand of the last
instruction is cut off, and a log stands behind what it reports.
-/
namespace AbiRecovery

namespace Decoding

/-- The nearest `PUSH32` before number `n`. -/
def latestPush32? (is : Decoding) (n : Nat) : Option Instruction :=
  ((is.take n).filter fun i => i.opcode = .push32).getLast?

/-- The topic that number `n` reports: a log the operand of the nearest `PUSH32` before it. -/
def topicAt? (is : Decoding) (n : Nat) : Option Text :=
  if is[n]?.any fun i => i.opcode.isLog then
    (is.latestPush32? n).map fun constant => Hex.encodeMarked constant.operand
  else none

/-- The topics that the instructions below number `n` report. -/
def topicsBelow (is : Decoding) (n : Nat) : List Text := (List.range n).filterMap is.topicAt?

variable {is : Decoding} {n : Nat} {i constant : Instruction}

theorem latestPush32?_succ (here : is[n]? = some i) :
    is.latestPush32? (n + 1) = if i.opcode = .push32 then some i else is.latestPush32? n := by
  unfold latestPush32?
  rw [List.take_add_one, here, Option.toList_some, List.filter_append, List.getLast?_append]
  by_cases pushed : i.opcode = .push32
  · simp [pushed]
  · simp [pushed]

/-- The nearest `PUSH32` stands before. -/
theorem exists_of_latestPush32? (nearest : is.latestPush32? n = some constant) :
    ∃ k < n, is[k]? = some constant ∧ constant.opcode = .push32 := by
  obtain ⟨among, pushed⟩ := List.mem_filter.mp (List.mem_of_getLast? nearest)
  obtain ⟨k, here⟩ := List.mem_iff_getElem?.mp among
  rw [List.getElem?_take, Option.ite_none_right_eq_some] at here
  obtain ⟨before, here⟩ := here
  exact ⟨k, before, here, of_decide_eq_true pushed⟩

theorem topicAt?_eq_some_iff {topic : Text} :
    is.topicAt? n = some topic ↔
      (∃ i, is[n]? = some i ∧ i.opcode.isLog) ∧
        ∃ constant, is.latestPush32? n = some constant ∧ Hex.encodeMarked constant.operand = topic := by
  unfold topicAt?
  rw [Option.ite_none_right_eq_some, Option.any_eq_true, Option.map_eq_some_iff]

theorem topicsBelow_succ (is : Decoding) (n : Nat) :
    is.topicsBelow (n + 1) = is.topicsBelow n ++ (is.topicAt? n).toList := by
  unfold topicsBelow
  rw [List.range_succ, List.filterMap_append]
  cases reported : is.topicAt? n <;> simp [reported]

end Decoding

variable {code : Bytes} {n : Nat} {i constant : Instruction}

/-- A `PUSH32` that stands before another instruction has its 32 bytes. -/
theorem length_operand_of_latestPush32? (nearest : (decode code).latestPush32? n = some constant)
    (inside : n < (decode code).length) : constant.operand.length = 32 := by
  obtain ⟨k, before, here, pushed⟩ := Decoding.exists_of_latestPush32? nearest
  rw [operand_length_eq_pushWidth here (Nat.lt_of_le_of_lt before inside), pushed]
  rfl

namespace Scan

/-- After `n` instructions the operand of the latest `PUSH32` is remembered. -/
theorem lastPush32_after (n : Nat) (inside : n ≤ (decode code).length) :
    (after (decode code) n).lastPush32 = ((decode code).latestPush32? n).elim [] Instruction.operand := by
  induction n with
  | zero => rfl
  | succ n ih =>
    have here := List.getElem?_eq_getElem (Nat.lt_of_succ_le inside)
    rw [after_succ here, Decoding.latestPush32?_succ here]
    dsimp only [next]
    rw [ih (Nat.le_of_succ_le inside)]
    split <;> rfl

/-- A log adds the topic that is remembered, and there is one if a `PUSH32` stands before. -/
theorem topics_next (here : (decode code)[n]? = some i) :
    ((after (decode code) n).next (decode code) n i).topics.toList =
      (after (decode code) n).topics.toList ++ ((decode code).topicAt? n).toList := by
  have inside := (List.getElem?_eq_some_iff.mp here).1
  unfold Decoding.topicAt?
  dsimp only [next]
  rw [here, Option.any_some, lastPush32_after n (Nat.le_of_lt inside)]
  cases nearest : (decode code).latestPush32? n with
  | none => simp
  | some constant =>
    have whole := length_operand_of_latestPush32? nearest inside
    have present : constant.operand.isEmpty = false := by
      rw [List.isEmpty_eq_false_iff, ← List.length_pos_iff, whole]
      decide
    cases logs : i.opcode.isLog <;> simp [present]

theorem topics_after (n : Nat) (inside : n ≤ (decode code).length) :
    (after (decode code) n).topics.toList = (decode code).topicsBelow n := by
  induction n with
  | zero => rfl
  | succ n ih =>
    have here := List.getElem?_eq_getElem (Nat.lt_of_succ_le inside)
    rw [after_succ here, topics_next here, ih (Nat.le_of_succ_le inside), Decoding.topicsBelow_succ]

end Scan

/-- The topics of code are the operands that its logs report, one for each log that has a `PUSH32` before it, in the
order of the code. Each is written with the two digits of each of 32 bytes, and a log after 32 zeros reports them too. -/
theorem topics_exact (code : Bytes) :
    ∃ p, Program.ofCode code = .ok p ∧ p.topics = (decode code).topicsBelow (decode code).length ∧
      (∀ topic ∈ p.topics, topic.IsMarkedHex 32) ∧
      ∀ n log constant, (decode code)[n]? = some log → log.opcode.isLog →
        (decode code).latestPush32? n = some constant → constant.operand = List.replicate 32 0 →
        Text.ofChars ('0' :: 'x' :: List.replicate 64 '0') ∈ p.topics := by
  have found : (Program.scanned code).topics = (decode code).topicsBelow (decode code).length :=
    Scan.topics_after _ (Nat.le_refl _)
  refine ⟨_, ofCode_eq code, found, ?_, ?_⟩
  · intro topic listed
    rw [found] at listed
    obtain ⟨n, among, reported⟩ := List.mem_filterMap.mp listed
    obtain ⟨-, constant, nearest, rfl⟩ := Decoding.topicAt?_eq_some_iff.mp reported
    have written := Hex.isMarkedHex_encodeMarked constant.operand
    rwa [length_operand_of_latestPush32? nearest (List.mem_range.mp among)] at written
  · intro n log constant here logs nearest zeros
    rw [found]
    refine List.mem_filterMap.mpr ⟨n, List.mem_range.mpr (List.getElem?_eq_some_iff.mp here).1, ?_⟩
    refine Decoding.topicAt?_eq_some_iff.mpr ⟨⟨log, here, logs⟩, constant, nearest, ?_⟩
    rw [zeros]
    decide

end AbiRecovery
