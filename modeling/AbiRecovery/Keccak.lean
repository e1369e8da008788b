import AbiRecovery.Hex

/-!
# Keccak-256

The sponge over the permutation of 25 lanes of 64 bits, with a rate of 136 bytes and the padding
`01 … 80` in which the first and the last byte may be one. The result has 32 bytes.
-/
namespace AbiRecovery.Keccak

/-- The state: lane `(x, y)` stands at `x + 5 * y`. -/
abbrev State : Type := Vector UInt64 25

/-- Rotates a lane to the left by less than 64 bits. -/
def rotate (lane : UInt64) (by_ : UInt64) : UInt64 :=
  if by_ = 0 then lane else (lane <<< by_) ||| (lane >>> (64 - by_))

/-- The lane at column `x` and row `y`, both taken modulo five. -/
def State.lane (state : State) (x y : Nat) : UInt64 :=
  state.get ⟨x % 5 + 5 * (y % 5), by omega⟩

/-- The state whose lane at column `x` and row `y` is given. -/
def State.ofLanes (lane : Nat → Nat → UInt64) : State :=
  Vector.ofFn fun i => lane (i.val % 5) (i.val / 5)

def State.parity (state : State) (x : Nat) : UInt64 :=
  state.lane x 0 ^^^ state.lane x 1 ^^^ state.lane x 2 ^^^ state.lane x 3 ^^^ state.lane x 4

/-- Adds to every lane the parities of two neighbouring columns. -/
def theta (state : State) : State :=
  let parities : Vector UInt64 5 := Vector.ofFn fun x => state.parity x.val
  let parity (x : Nat) : UInt64 := parities.get ⟨x % 5, by omega⟩
  State.ofLanes fun x y => state.lane x y ^^^ parity (x + 4) ^^^ rotate (parity (x + 1)) 1

def rotations : State :=
  #v[0, 1, 62, 28, 27, 36, 44, 6, 55, 20, 3, 10, 43, 25, 39, 41, 45, 15, 21, 8, 18, 2, 61, 56, 14]

/-- Rotates the lanes and moves them to their new places. -/
def rhoPi (state : State) : State :=
  State.ofLanes fun x y => rotate (state.lane (x + 3 * y) x) (rotations.lane (x + 3 * y) x)

/-- Combines every lane with its two right neighbours. -/
def chi (state : State) : State :=
  State.ofLanes fun x y => state.lane x y ^^^ (~~~ state.lane (x + 1) y &&& state.lane (x + 2) y)

/-- Adds a round's constant to the first lane. -/
def iota (constant : UInt64) (state : State) : State :=
  state.set 0 (state[0] ^^^ constant)

def roundConstants : List UInt64 :=
  [0x0000000000000001, 0x0000000000008082, 0x800000000000808A, 0x8000000080008000,
   0x000000000000808B, 0x0000000080000001, 0x8000000080008081, 0x8000000000008009,
   0x000000000000008A, 0x0000000000000088, 0x0000000080008009, 0x000000008000000A,
   0x000000008000808B, 0x800000000000008B, 0x8000000000008089, 0x8000000000008003,
   0x8000000000008002, 0x8000000000000080, 0x000000000000800A, 0x800000008000000A,
   0x8000000080008081, 0x8000000000008080, 0x0000000080000001, 0x8000000080008008]

def permute (state : State) : State :=
  roundConstants.foldl (fun state constant => iota constant (chi (rhoPi (theta state)))) state

def rate : Nat := 136

/-- The bytes that complete the last block. -/
def padding (length : Nat) : Bytes :=
  match rate - length % rate with
  | 0 => []
  | 1 => [0x81]
  | missing + 2 => 0x01 :: List.replicate missing 0 ++ [0x80]

/-- The lane of eight bytes, least significant first. -/
def laneOfBytes (bytes : Bytes) : UInt64 :=
  bytes.foldr (fun byte lane => lane <<< 8 ||| byte.toUInt64) 0

/-- The eight bytes of a lane, least significant first. -/
def bytesOfLane (lane : UInt64) : Bytes :=
  (List.range 8).map fun i => (lane >>> (8 * i).toUInt64).toUInt8

/-- Adds a block to the state and permutes. -/
def absorb (state : State) (block : Bytes) : State :=
  permute (Vector.ofFn fun i =>
    if i.val < rate / 8 then state[i] ^^^ laneOfBytes ((block.drop (8 * i.val)).take 8) else state[i])

/-- Adds the next `count` blocks of padded bytes. -/
def absorbBlocks : Nat → State → Bytes → State
  | 0, state, _ => state
  | count + 1, state, bytes => absorbBlocks count (absorb state (bytes.take rate)) (bytes.drop rate)

def hash (bytes : Bytes) : Bytes :=
  let state := absorbBlocks (bytes.length / rate + 1) (Vector.replicate 25 0) (bytes ++ padding bytes.length)
  (state.toList.take 4).flatMap bytesOfLane

end AbiRecovery.Keccak
