/-!
Pairings of root items with opposing items. A pairing uses each item at most once. The search is depth
first: root items in order, each paired with the lowest free compatible item first and left out last.
The first pairing of the greatest size wins.
-/

namespace OrderBook

/-- Pairs of positions: a root item and an opposing item. -/
abbrev Pairing := List (Nat × Nat)

namespace Pairing

/-- How far a search has to go: pairings larger than `cap` are not looked for, and one of size
`target` cannot be beaten. -/
structure Bounds where
  cap : Option Nat
  target : Nat

def Bounds.allows (b : Bounds) (size : Nat) : Bool := b.cap.all (size < ·)

/-- Whether an opposing item is in the pairing already. -/
def claims (p : Pairing) (j : Nat) : Bool := p.any fun x => x.2 == j

/-- The best pairing so far, and whether the search is over. -/
structure Progress where
  best : Pairing
  finished : Bool := false

/-- Takes a path, latest pair first, for the best pairing if it is longer. -/
def Progress.improve (b : Bounds) (path best : Pairing) : Progress :=
  if best.length < path.length then ⟨path.reverse, decide (b.target ≤ path.length)⟩ else ⟨best, false⟩

/-- Visits candidates from left to right until the search is over. -/
def visitEach (visit : Nat → Pairing → Progress) : List Nat → Pairing → Progress
  | [], best => ⟨best, false⟩
  | j :: js, best =>
    let p := visit j best
    if p.finished then p else visitEach visit js p.best

/-- The opposing items that a row of the compatibility table allows. -/
def choices (row : List Bool) (path : Pairing) : List Nat :=
  (List.range row.length).filter fun j => row.getD j false && !claims path j

/-- Searches the rows from root item `i` on, with the pairs chosen so far on the path. -/
def search (b : Bounds) : (rows : List (List Bool)) → (i : Nat) → (path best : Pairing) → Progress
  | [], _, path, best => .improve b path best
  | row :: rows, i, path, best =>
    let p := Progress.improve b path best
    if p.finished then p
    else if path.length + (rows.length + 1) ≤ p.best.length then p
    else
      let visit (j : Nat) (best : Pairing) : Progress := search b rows (i + 1) ((i, j) :: path) best
      let q := if b.allows path.length then visitEach visit (choices row path) p.best else p
      if q.finished then q else search b rows (i + 1) path q.best

/-- The pairing that the search settles on. -/
def best (b : Bounds) (rows : List (List Bool)) : Pairing := (search b rows 0 [] []).best

end Pairing

end OrderBook
