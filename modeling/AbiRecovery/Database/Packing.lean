/-!
# Sharing cells out among pages

The cells of neighbouring pages are shared out anew: first from the left, each page as full as it can be,
then from the right, until neighbours are about as full as each other. Between two pages of a tree whose
cells hold rows all cells stay on pages; in other trees the cell between two pages goes to the page above.
-/
namespace AbiRecovery.Database

/-- Cells shared out among pages. -/
structure Packing where
  /-- The sizes of all cells. -/
  sizes : Array Nat
  /-- How many bytes of cells and their pointers a page can hold. -/
  space : Nat
  /-- Whether the cell between two pages goes to the page above. -/
  lifts : Bool
  /-- For each page the number of cells before its end. -/
  ends : Array Nat
  /-- For each page the bytes of its cells and their pointers. -/
  loads : Array Int

namespace Packing

def cellSize (p : Packing) (i : Nat) : Int := p.sizes.getD i 0

/-- The bytes of a cell and its pointer. -/
def weight (p : Packing) (i : Nat) : Int := if i < p.sizes.size then 2 + p.cellSize i else 0

/-- The number of cells before the end of a page. -/
def endOf (p : Packing) (i : Nat) : Nat := p.ends.getD i 0

def load (p : Packing) (i : Nat) : Int := p.loads.getD i 0

def addLoad (p : Packing) (i : Nat) (bytes : Int) : Packing := { p with loads := p.loads.modify i (· + bytes) }

def setEnd (p : Packing) (i e : Nat) : Packing := { p with ends := p.ends.setIfInBounds i e }

/-- Moves cells from the end of a page to the next one while they do not fit; a page is added at the end if
there is none. -/
def shrink (p : Packing) (i : Nat) : (fuel : Nat) → Packing
  | 0 => p
  | fuel + 1 =>
    if p.load i ≤ p.space then p
    else
      let p := if i + 1 < p.loads.size then p
        else { p with loads := p.loads.push 0, ends := p.ends.push p.sizes.size }
      let last := p.endOf i
      let gained := if p.lifts then p.weight last else p.weight (last - 1)
      (((p.addLoad i (-p.weight (last - 1))).addLoad (i + 1) gained).setEnd i (last - 1)).shrink i fuel

/-- Moves cells from the next page to the end of a page while they fit. -/
def grow (p : Packing) (i : Nat) : (fuel : Nat) → Packing
  | 0 => p
  | fuel + 1 =>
    let last := p.endOf i
    if p.sizes.size ≤ last || p.load i + p.weight last > p.space then p
    else
      let given := if p.lifts then p.weight (last + 1) else p.weight last
      (((p.addLoad i (p.weight last)).addLoad (i + 1) (-given)).setEnd i (last + 1)).grow i fuel

/-- Fills the pages from one on, from the left; the pages after the one with the last cell go. -/
def fill (p : Packing) (i : Nat) : (fuel : Nat) → Packing
  | 0 => p
  | fuel + 1 =>
    if p.loads.size ≤ i then p
    else
      let p := (p.shrink i (p.sizes.size + 1)).grow i (p.sizes.size + 1)
      let p := if p.sizes.size ≤ p.endOf i then { p with loads := p.loads.take (i + 1), ends := p.ends.take (i + 1) }
        else p
      p.fill (i + 1) fuel

/-- Moves cells from the end of a page to the next one until that is about as full; `left` cells stand
before the end. -/
def level (p : Packing) (i : Nat) : (left : Nat) → Packing
  | 0 => p
  | r + 1 =>
    let given := p.cellSize r
    let gained := if p.lifts then p.cellSize (r + 1) else given
    let pointer : Int := if i + 2 = p.loads.size then 0 else 2
    if p.load (i + 1) ≠ 0 && p.load (i + 1) + gained + 2 > p.load i - (given + pointer) then p
    else (((p.addLoad (i + 1) (gained + 2)).addLoad i (-(given + 2))).setEnd i r).level i r

def levelAll (p : Packing) : (pages : Nat) → Packing
  | 0 => p
  | i + 1 => (p.level i (p.endOf i)).levelAll i

def run (p : Packing) : Packing :=
  let p := p.fill 0 (p.sizes.size + p.loads.size + 1)
  p.levelAll (p.loads.size - 1)

end Packing

end AbiRecovery.Database
