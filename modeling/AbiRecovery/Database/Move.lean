import AbiRecovery.Database.Page

/-!
# Moving cells between pages

When cells are shared out anew, a page keeps the cells that it has already: those that leave are freed, and
those that come are put where there is room. If there is not room enough in one piece, all cells of the
page are stacked anew.
-/
namespace AbiRecovery.Database

/-- A cell on its way. -/
structure Mover where
  bytes : ByteArray
  /-- The page that it comes from, by its place among its neighbours, and where on it; none for a cell that
  had no room on a page. -/
  home? : Option (Nat × Nat)

namespace Page

/-- Frees the space of cells that come from the page with the given place among its neighbours, and counts
them. A cell right before the one that was to be freed last is freed together with it; `held` is that
space, not freed yet. -/
def freeMovers (p : Page) (self : Nat) (held : Nat × Nat) (count : Nat) : List Mover → Page × Nat
  | [] => (if held.2 = 0 then p else p.free held.1 held.2, count)
  | mover :: rest => match mover.home? with
    | some (home, place) =>
      if home ≠ self then p.freeMovers self held count rest
      else if held.2 ≠ 0 && place + mover.bytes.size = held.1 then
        p.freeMovers self (place, held.2 + mover.bytes.size) (count + 1) rest
      else
        let p := if held.2 = 0 then p else p.free held.1 held.2
        p.freeMovers self (place, mover.bytes.size) (count + 1) rest
    | none => p.freeMovers self held count rest

/-- A page while cells are put on it. -/
structure Filling where
  page : Page
  /-- Where the cells begin. -/
  top : Nat
  /-- Whether all cells so far have found room. -/
  fits : Bool

namespace Filling

/-- Puts cells on a page, with their places from a pointer on; the pointers of all cells end at `stop`. -/
def put (f : Filling) (stop pointer : Nat) : List Mover → Filling
  | [] => f
  | mover :: rest =>
    if !f.fits then f
    else match (if f.page.hasBlocks then f.page.block? mover.bytes.size else none) with
      | some (p, place) =>
        let page := (p.write place mover.bytes).writeNumber 2 pointer place
        ({ f with page } : Filling).put stop (pointer + 2) rest
      | none =>
        if f.top < stop + mover.bytes.size then { f with fits := false }
        else
          let place := f.top - mover.bytes.size
          let page := (f.page.write place mover.bytes).writeNumber 2 pointer place
          ({ f with page, top := place } : Filling).put stop (pointer + 2) rest

/-- Puts the cells on a page that had no room there before; `places` are their places among the cells of
the page, of which `count` are there already. -/
def putWaiting (f : Filling) (stop : Nat) (movers : List Mover) (count : Nat) : List Int → Filling × Nat
  | [] => (f, count)
  | place :: places =>
    if !f.fits then (f, count)
    else if place < 0 || movers.length ≤ place.toNat then f.putWaiting stop movers count places
    else
      let i := place.toNat
      let p := f.page
      let p := if i < count then p.move (p.pointer i) (p.pointer (i + 1)) (2 * (count - i)) else p
      let f := ({ f with page := p } : Filling).put stop (p.pointer i) ((movers.drop i).take 1)
      f.putWaiting stop movers (count + 1) places

end Filling

/-- A page with cells stacked anew. -/
def restack (p : Page) (movers : List Mover) : Page :=
  let (p, top, _) := movers.foldl (fun (p, top, i) mover =>
    let top := top - mover.bytes.size
    ((p.writeNumber 2 (p.pointer i) top).write top mover.bytes, top, i + 1)) (p, p.usable, 0)
  (((p.writeNumber 2 p.chainStart 0).setCount movers.length).setTop top).setLost 0

/-- A page with those of all cells from `first` on, `count` of them, where it had those from `old` on,
`here` of them together with the ones waiting at the places given. -/
def refill (p : Page) (self : Nat) (all : Array Mover) (old : Nat) (waiting : List Nat) (first count : Nat) : Page :=
  let between (a b : Nat) : List Mover := (all.extract a b).toList
  let oldEnd := old + p.count + waiting.length
  let movers := between first (first + count)
  let here := p.count
  let (p, here) :=
    if old < first then
      let (p, gone) := p.freeMovers self (0, 0) 0 (between old first)
      (p.move (p.pointer gone) (p.pointer 0) (2 * here), here - gone)
    else (p, here)
  let (p, here) :=
    if first + count < oldEnd then
      let (p, gone) := p.freeMovers self (0, 0) 0 (between (first + count) oldEnd)
      (p, here - gone)
    else (p, here)
  let stop := p.pointer count
  let f : Filling := ⟨p, p.top, stop ≤ p.top⟩
  let added := if first < old then min count (old - first) else 0
  let f : Filling := if f.fits && added ≠ 0 then
      ({ f with page := p.move (p.pointer 0) (p.pointer added) (2 * here) } : Filling).put stop (p.pointer 0)
        (movers.take added)
    else f
  let here := here + added
  let (f, here) := f.putWaiting stop movers here (waiting.map fun place => ((old + place : Nat) : Int) - (first : Int))
  let f := f.put stop (p.pointer here) (movers.drop here)
  if f.fits then (f.page.setCount count).setTop f.top else f.page.restack movers

end Page

end AbiRecovery.Database
