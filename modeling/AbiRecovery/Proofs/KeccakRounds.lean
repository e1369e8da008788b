import AbiRecovery.Keccak

/-!
# Keccak-256 with numerals between its steps

A lane of the permutation reads eleven lanes of the state before it. The evaluation here hands on the lanes of a whole
state as numerals before the next step reads them, so that a step is evaluated once, however many lanes read it. It
comes to the same digest.
-/
namespace AbiRecovery.Keccak

/-- Lanes by their column and their row. -/
abbrev Lanes : Type := Nat → Nat → UInt64

variable {α : Type}

/-- Hands on a number as a numeral: the choice of the branch evaluates it. -/
def withNumeral (n : Nat) (next : Nat → α) : α :=
  match n with
  | 0 => next 0
  | m + 1 => next m.succ

/-- Hands on lanes as numerals. -/
def withLanes : List UInt64 → (List UInt64 → α) → α
  | [], next => next []
  | lane :: lanes, next =>
    withNumeral lane.toNat fun n => withLanes lanes fun lanes => next (UInt64.ofNat n :: lanes)

/-- Hands on the lanes of the first row. -/
def withRow (lane : Nat → UInt64) (next : (Nat → UInt64) → α) : α :=
  withLanes ((List.range 5).map lane) fun lanes => next fun x => lanes.getD (x % 5) 0

/-- Hands on the lanes of a state. -/
def withState (lane : Lanes) (next : Lanes → α) : α :=
  withRow (lane · 0) fun a => withRow (lane · 1) fun b => withRow (lane · 2) fun c => withRow (lane · 3) fun d =>
    withRow (lane · 4) fun e => next fun x y => [a, b, c, d, e].getD (y % 5) a x

/-- Carries out the rounds with the given constants. -/
def withRounds : List UInt64 → Lanes → (Lanes → α) → α
  | [], lane, next => next lane
  | constant :: constants, lane, next =>
    withRow (fun x => lane x 0 ^^^ lane x 1 ^^^ lane x 2 ^^^ lane x 3 ^^^ lane x 4) fun parity =>
    withState (fun x y => lane x y ^^^ parity (x + 4) ^^^ rotate (parity (x + 1)) 1) fun lane =>
    withState (fun x y => rotate (lane (x + 3 * y) x) (rotations.lane (x + 3 * y) x)) fun lane =>
    withState (fun x y => lane x y ^^^ (~~~ lane (x + 1) y &&& lane (x + 2) y)) fun lane =>
    withState (fun x y => if x + 5 * y = 0 then lane 0 0 ^^^ constant else lane x y) fun lane =>
    withRounds constants lane next

/-- Adds the next blocks of padded bytes. -/
def withBlocks : Nat → Lanes → Bytes → (Lanes → α) → α
  | 0, lane, _, next => next lane
  | count + 1, lane, bytes, next =>
    withState (fun x y => if x + 5 * y < rate / 8
        then lane x y ^^^ laneOfBytes (((bytes.take rate).drop (8 * (x + 5 * y))).take 8) else lane x y) fun lane =>
    withRounds roundConstants lane fun lane => withBlocks count lane (bytes.drop rate) next

/-- The digest, with numerals between the steps. -/
def evaluatedHash (bytes : Bytes) : Bytes :=
  withBlocks (bytes.length / rate + 1) (fun _ _ => 0) (bytes ++ padding bytes.length) fun lane =>
    ((List.range 4).map (lane · 0)).flatMap bytesOfLane

theorem withNumeral_eq (n : Nat) (next : Nat → α) : withNumeral n next = next n := by
  cases n <;> rfl

theorem withLanes_eq (lanes : List UInt64) (next : List UInt64 → α) : withLanes lanes next = next lanes := by
  induction lanes generalizing next with
  | nil => rfl
  | cons lane lanes ih => rw [withLanes, withNumeral_eq, ih, UInt64.ofNat_toNat]

theorem withRow_eq (lane : Nat → UInt64) (next : (Nat → UInt64) → α) :
    withRow lane next = next fun x => lane (x % 5) := by
  unfold withRow
  rw [withLanes_eq]
  refine congrArg next (funext fun x => ?_)
  simp [Nat.mod_lt]

namespace State

variable (state : State)

theorem getElem_eq_lane {i : Nat} (bound : i < 25) : state[i] = state.lane (i % 5) (i / 5) := by
  have place : i % 5 % 5 + 5 * (i / 5 % 5) = i := by omega
  exact (getElem_congr_idx place).symm

theorem getElem_ofLanes (lane : Lanes) {i : Nat} (bound : i < 25) : (ofLanes lane)[i] = lane (i % 5) (i / 5) := by
  simp [ofLanes]

theorem lane_ofLanes (lane : Lanes) (x y : Nat) : (ofLanes lane).lane x y = lane (x % 5) (y % 5) := by
  have column : (x % 5 + 5 * (y % 5)) % 5 = x % 5 := by omega
  have row : (x % 5 + 5 * (y % 5)) / 5 = y % 5 := by omega
  have place : x % 5 + 5 * (y % 5) < 25 := by omega
  calc (ofLanes lane).lane x y = (ofLanes lane)[x % 5 + 5 * (y % 5)] := rfl
    _ = lane (x % 5) (y % 5) := by rw [getElem_ofLanes, column, row]

end State

theorem withState_eq (lane : Lanes) (next : Lanes → α) : withState lane next = next (State.ofLanes lane).lane := by
  unfold withState
  simp only [withRow_eq]
  refine congrArg next (funext fun x => funext fun y => ?_)
  rw [State.lane_ofLanes]
  have bound := Nat.mod_lt y (y := 5) (by decide)
  generalize y % 5 = row at bound ⊢
  match row, bound with
  | 0, _ | 1, _ | 2, _ | 3, _ | 4, _ => rfl

theorem theta_eq (state : State) : theta state =
    State.ofLanes fun x y => state.lane x y ^^^ state.parity ((x + 4) % 5) ^^^ rotate (state.parity ((x + 1) % 5)) 1 := by
  have parity (x : Nat) : (Vector.ofFn fun x : Fin 5 => state.parity x.val).get ⟨x % 5, by omega⟩ = state.parity (x % 5) :=
    Vector.getElem_ofFn (Nat.mod_lt x (by decide))
  simp only [theta, parity]

theorem iota_eq (constant : UInt64) (state : State) : iota constant state =
    State.ofLanes fun x y => if x + 5 * y = 0 then state.lane 0 0 ^^^ constant else state.lane x y := by
  refine Vector.ext fun i bound => ?_
  have place : i % 5 + 5 * (i / 5) = i := by omega
  rw [State.getElem_ofLanes _ bound, place, ← state.getElem_eq_lane bound]
  unfold iota
  rw [Vector.getElem_set]
  by_cases first : i = 0
  · rw [if_pos first.symm, if_pos first, state.getElem_eq_lane]
  · rw [if_neg (Ne.symm first), if_neg first]

theorem withRounds_eq (constants : List UInt64) (state : State) (next : Lanes → α) :
    withRounds constants state.lane next =
      next (constants.foldl (fun state constant => iota constant (chi (rhoPi (theta state)))) state).lane := by
  induction constants generalizing state with
  | nil => rfl
  | cons constant constants ih =>
    rw [withRounds, withRow_eq, withState_eq, withState_eq, withState_eq, withState_eq, ih, List.foldl_cons, iota_eq,
      theta_eq]
    rfl

theorem absorb_eq (state : State) (block : Bytes) : absorb state block =
    permute (State.ofLanes fun x y => if x + 5 * y < rate / 8
      then state.lane x y ^^^ laneOfBytes ((block.drop (8 * (x + 5 * y))).take 8) else state.lane x y) := by
  refine congrArg permute (Vector.ext fun i bound => ?_)
  have place : i % 5 + 5 * (i / 5) = i := by omega
  rw [State.getElem_ofLanes _ bound, place, ← state.getElem_eq_lane bound, Vector.getElem_ofFn]
  rfl

theorem withBlocks_eq (count : Nat) (state : State) (bytes : Bytes) (next : Lanes → α) :
    withBlocks count state.lane bytes next = next (absorbBlocks count state bytes).lane := by
  induction count generalizing state bytes with
  | zero => rfl
  | succ count ih =>
    rw [withBlocks, withState_eq, withRounds_eq, ih, absorbBlocks, absorb_eq, permute]

theorem evaluatedHash_eq (bytes : Bytes) : evaluatedHash bytes = hash bytes := by
  have empty : (fun _ _ => 0) = State.lane (Vector.replicate 25 0) := by
    funext x y
    simp [State.lane, Vector.get]
  unfold evaluatedHash hash
  rw [empty, withBlocks_eq]
  refine congrArg (List.flatMap bytesOfLane) (List.ext_getElem (by simp) fun i _ bound => ?_)
  have first : i < 4 := by simpa using bound
  have row : i / 5 = 0 := by omega
  have column : i % 5 = i := by omega
  rw [List.getElem_map, List.getElem_range, List.getElem_take, Vector.getElem_toList, State.getElem_eq_lane, row, column]

end AbiRecovery.Keccak
