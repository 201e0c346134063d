import OrderBook.Policy.Chain
import OrderBook.Record.Basic
import OrderBook.Search.Pairing

/-!
One-to-one search: the root filled by a single opposing order. A buyer gets at least as many tokens as
it asks for, and a seller hands over at most as many as it offers.
-/

namespace OrderBook.OneToOne

/-- Which root items go together with which opposing items. -/
def compatibility (chain : PolicyChain) (root opposing : List OrderItem) :
    Result (List (List Bool)) :=
  root.mapM fun a => opposing.mapM fun b => chain.mutualMatch a b

/-- The most pairs of use: a selling candidate is good for as many tokens as it offers. -/
def bounds (root candidate : ResolvedOrder) : Pairing.Bounds :=
  let cap := match candidate.order.side with
    | .sell => some candidate.order.numItems.toNat
    | .buy => none
  let items := min root.items.length candidate.items.length
  ⟨cap, cap.elim items (min · items)⟩

/-- Whether a number of pairs fills both orders. -/
def fills (root candidate : ResolvedOrder) (count : Nat) : Bool :=
  root.order.numItems.toNat ≤ count &&
    match candidate.order.side with
    | .buy => candidate.order.numItems.toNat ≤ count
    | .sell => count ≤ candidate.order.numItems.toNat

def pairing? (chain : PolicyChain) (root candidate : ResolvedOrder) : Result (Option Pairing) := do
  let best := Pairing.best (bounds root candidate) (← compatibility chain root.items candidate.items)
  return if fills root candidate best.length then some best else none

/-- The items at the positions of a pairing. -/
def itemPairs (root candidate : ResolvedOrder) (p : Pairing) : List ItemPair :=
  p.filterMap fun (i, j) => do return ⟨← root.items[i]?, ← candidate.items[j]?⟩

/-- The record of the root and one candidate, if they match at `now`. -/
def matchCandidate (chain : PolicyChain) (root candidate : ResolvedOrder) (now : UInt64) :
    Result (Option OneToOneMatch) := do
  if candidate.id = root.id then return none
  let some intersection ← root.order.intersection candidate.order | return none
  let some pairs ← pairing? chain root candidate | return none
  let some clearing ← intersection.resolve now | return none
  return some (.make root.order candidate.order (itemPairs root candidate pairs) clearing.price
    clearing.timestamp)

/-- The records of all candidates, in their order. A candidate that fails is left out. -/
def search (chain : PolicyChain) (root : ResolvedOrder) (now : UInt64) :
    List ResolvedOrder → Result (List OneToOneMatch)
  | [] => .ok []
  | c :: cs => do
    let first ← (matchCandidate chain root c now).forgive
    let rest ← search chain root now cs
    return first.toList ++ rest

end OrderBook.OneToOne
