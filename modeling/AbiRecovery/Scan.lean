import AbiRecovery.Cursor
import AbiRecovery.Program

/-!
# Scanning code

One pass over the instructions, with a look back at the latest five. The dispatch table of a contract
compares the selector of a call with constants; the scan reads the constants in the first region and
in the regions where the table continues. Targets that are computed at run time stay unknown, so a
region that is reached in no other way keeps only what it shows by itself.
-/
namespace AbiRecovery

/-- The state of a scan between two instructions. -/
structure Scan where
  /-- The regions that have ended, in order. -/
  closed : Array Region
  /-- The region that the next instruction belongs to. -/
  current : Region
  labels : Array (Nat × Nat)
  guards : Array (Nat × Nat)
  selectors : OrderedMap Text Nat
  topics : Array Text
  /-- Whether comparisons are read as entries of the dispatch table. -/
  inTable : Bool
  /-- Offsets where the dispatch table may continue. -/
  resumePoints : NumberSet
  /-- The operand of the latest `PUSH32`. -/
  lastPush32 : Bytes
  deriving DecidableEq, Repr

namespace Scan

/-- How many instructions the longest pattern has: a selector, `DUP2`, `EQ`, a target, `JUMPI`. -/
def window : Nat := 5

def selectorWidth : Int := 4

/-- The opcodes that tell something about the region they occur in. -/
def tellingOpcodes : List Opcode :=
  [.stop, .return_, .calldataload, .calldatasize, .calldatacopy, .sload, .sstore, .revert]

/-- Before the first instruction the entry region is open and the dispatch table is expected in it. -/
def start : Scan := ⟨#[], .opened 0 0, #[], #[], [], #[], true, [], []⟩

/-- What has been found so far. -/
def program (s : Scan) : Program :=
  ⟨s.closed.toList ++ [s.current], s.labels.toList, s.selectors, s.guards.toList, s.topics.toList⟩

/-- Records a pushed jump target in the current region. -/
def addJump (s : Scan) (target : Nat) : Scan :=
  { s with current := { s.current with jumps := s.current.jumps.push target } }

/-- Records a telling opcode in the current region. -/
def addTag (s : Scan) (op : Opcode) : Scan :=
  if tellingOpcodes.contains op then
    { s with current := { s.current with tags := s.current.tags.insert op.byte.toNat } }
  else s

/-- Records a selector. One that begins with zero bytes is pushed without them. -/
def addSelector (s : Scan) (constant : Bytes) (target : Nat) : Scan :=
  { s with selectors := s.selectors.insert (Hex.encodeMarked (constant.padLeft selectorWidth)) target }

/-- Marks an offset as a place where the dispatch table may continue. -/
def addResumePoint (s : Scan) (target : Nat) : Scan :=
  { s with resumePoints := s.resumePoints.insert target }

/-- Ends the current region before `offset` and opens the next one there. The dispatch table stays
expected until a selector has been found; at a marked offset it is expected again if the region begins
as a part of the table does. -/
def openRegion (s : Scan) (c : Cursor) (offset step : Nat) : Scan :=
  let s := { s with
    closed := s.closed.push { s.current with last? := some (offset - 1) }
    current := .opened offset step
    inTable := s.inTable && s.selectors.isEmpty }
  if s.resumePoints.contains offset then
    { s with
      resumePoints := s.resumePoints.erase offset
      inTable := [Opcode.dup1, .calldataload].contains (c.opcodeAt (offset + 1)) }
  else s

/-- Whether a label is followed by `CALLVALUE DUP1 ISZERO`. No operand lies between these, so they
stand at the next three offsets. -/
def guardFollows (c : Cursor) (offset : Nat) : Bool :=
  c.opcodeAt (offset + 1) = .callvalue && c.opcodeAt (offset + 2) = .dup1 && c.opcodeAt (offset + 3) = .iszero

/-- A label. After an instruction that never falls through it opens a region. -/
def atLabel (s : Scan) (c : Cursor) : Except LookbackFault Scan := do
  let offset := c.position.toNat
  let step := c.step.toNat
  let before ← c.back? 2
  let s := if before.any fun op => op.isHalt || op = .jump then s.openRegion c offset step else s
  let s := { s with labels := s.labels.push (offset, s.current.start) }
  return if guardFollows c offset then { s with guards := s.guards.push (offset, step) } else s

/-- The constant that the instruction before a jump pushes. -/
def pushedTarget? (c : Cursor) : Except LookbackFault (Option Nat) := do
  let before ← c.back? 2
  if before.any Opcode.isPush then
    let operand ← c.operand (-2)
    return some operand.toNat
  else return none

/-- Records what an instruction tells about its region. -/
def annotate (s : Scan) (c : Cursor) (op : Opcode) : Except LookbackFault Scan := do
  if op = .jump || op = .jumpi then
    match ← pushedTarget? c with
    | some target => return (s.addJump target).addTag op
    | none => return s.addTag op
  else return s.addTag op

/-- A conditional jump with a pushed target inside the dispatch table. An equality test of a constant
is an entry, whichever of the two operands is pushed first; a test for order leads to another part of
the table. -/
def readEntry (s : Scan) (c : Cursor) (target : Nat) : Except LookbackFault Scan := do
  let s := s.addJump target
  let test ← c.back? 3
  let before ← c.back? 4
  if test = some .eq && before.any Opcode.isPush then
    let constant ← c.operand (-4)
    return s.addSelector constant target
  let beforeThat ← c.back? 5
  if test = some .eq && before = some .dup2 && beforeThat.any Opcode.isPush then
    let constant ← c.operand (-5)
    return s.addSelector constant target
  if (test = some .lt || test = some .gt) && beforeThat = some .dup1 then
    return s.addResumePoint target
  return s

def readTable (s : Scan) (c : Cursor) (op : Opcode) : Except LookbackFault Scan := do
  if op = .jump then
    match ← pushedTarget? c with
    | some target => return s.addResumePoint target
    | none => return s
  else if op = .jumpi then
    match ← pushedTarget? c with
    | some target => s.readEntry c target
    | none => return s
  else return s

/-- One instruction, which the cursor has just taken. -/
def step (s : Scan) (c : Cursor) (op : Opcode) : Except LookbackFault Scan := do
  if op = .push32 then
    let operand ← c.operand (-1)
    return { s with lastPush32 := operand }
  else if op.isLog && !s.lastPush32.isEmpty then
    return { s with topics := s.topics.push (Hex.encodeMarked s.lastPush32) }
  else if op = .jumpdest then
    s.atLabel c
  else
    let s ← s.annotate c op
    if s.inTable then s.readTable c op else return s

/-- Scans the instructions that a cursor still takes. -/
def run (s : Scan) (c : Cursor) : Except LookbackFault Scan :=
  if _more : c.hasMore then
    let taken := c.take
    match s.step taken.2 taken.1 with
    | .ok s => s.run taken.2
    | .error fault => .error fault
  else .ok s
termination_by c.code.size - c.next
decreasing_by
  have sameCode : c.take.2.code = c.code := by simp [Cursor.take, _more]
  rw [sameCode]
  exact Cursor.take_next_lt _more

/-- What a view sees after every instruction, after what it has seen in `done`, last first. -/
def traceFrom {α : Type} (view : Cursor → Opcode → Scan → α) (s : Scan) (c : Cursor) (done : List α) :
    Except LookbackFault (List α) :=
  if _more : c.hasMore then
    let taken := c.take
    match s.step taken.2 taken.1 with
    | .ok s => traceFrom view s taken.2 (view taken.2 taken.1 s :: done)
    | .error fault => .error fault
  else .ok done.reverse
termination_by c.code.size - c.next
decreasing_by
  have sameCode : c.take.2.code = c.code := by simp [Cursor.take, _more]
  rw [sameCode]
  exact Cursor.take_next_lt _more

/-- What a view of the cursor, the instruction and the state sees after every instruction of code. -/
def trace {α : Type} (view : Cursor → Opcode → Scan → α) (code : Bytes) : Except LookbackFault (List α) :=
  traceFrom view start (.start code window) []

end Scan

def Program.ofCode (code : Bytes) : Except LookbackFault Program :=
  Scan.program <$> Scan.start.run (.start code Scan.window)

end AbiRecovery
