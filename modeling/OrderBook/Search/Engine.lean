import OrderBook.Config.Basic
import OrderBook.Search.OneToMany
import OrderBook.Search.OneToOne
import OrderBook.Store.Source

/-!
The whole search for one order: its candidates are discovered through the items of the root, and then
matched one to one and, for a root that allows it, one to many.
-/

namespace OrderBook

/-- What a search found: records, and orders that should be searched from their own side. -/
structure SearchOutcome where
  orderMatches : List OrderMatch
  requiresScan : List Order
deriving DecidableEq

structure Engine where
  source : OrderSource
  chain : PolicyChain := .default
  config : MatcherConfig := {}

namespace Engine

/-- Takes the order of a candidate item, unless it is known already or the item does not match. -/
def consider (chain : PolicyChain) (root : String) (item : OrderItem) (found : List String)
    (candidate : OrderItem) : Result (List String) := do
  if candidate.orderId = root || found.contains candidate.orderId then return found
  if ← chain.accepts item candidate then return found ++ [candidate.orderId] else return found

/-- The orders of the items that match one of `items`, in the order of their discovery, and the number
of pages read for that. -/
def discover (e : Engine) (root : String) (found : List String) :
    List OrderItem → Result (List String) × Nat
  | [] => (.ok found, 0)
  | item :: items =>
    let pageSize := e.config.pageSize
    let walk := e.source.walk (e.chain.candidateQuery item pageSize) pageSize
    match walk.items.foldlM (consider e.chain root item) found with
    | .error err => (.error err, walk.reads)
    | .ok found =>
      match walk.failure with
      | some err => (.error (.store err), walk.reads)
      | none =>
        let (result, reads) := e.discover root found items
        (result, walk.reads + reads)

/-- Reads orders; those that are gone are left out. -/
def resolveAll (s : OrderSource) : List String → Except StoreError (List ResolvedOrder)
  | [] => .ok []
  | id :: ids => do
    let first ← s.resolve? id
    let rest ← resolveAll s ids
    return first.toList ++ rest

def liftStore {α : Type} (x : Except StoreError α) : Result α := x.mapError .store

/-- The candidates of a root, and the number of pages read for them. -/
def findCandidates (e : Engine) (root : ResolvedOrder) : Result (List ResolvedOrder) × Nat :=
  let (ids, reads) := e.discover root.id [] root.items
  (ids.bind fun ids => liftStore (resolveAll e.source ids), reads)

/-- A root of one token leaves larger candidates to a search from their side. -/
def requiresScan (root : ResolvedOrder) (candidates : List ResolvedOrder) : List Order :=
  if root.order.numItems = 1 then
    (candidates.filter fun c => 1 < c.order.numItems).map (·.order)
  else []

def searchWithCandidates (chain : PolicyChain) (config : MatcherConfig) (root : ResolvedOrder)
    (candidates : List ResolvedOrder) (now : UInt64) : Result SearchOutcome := do
  let single ← OneToOne.search chain root now candidates
  let several ←
    if config.oneToManyEnabled && root.isEligibleRoot then
      (OneToMany.start chain root candidates now).records
    else pure []
  return {
    orderMatches := single.map .oneToOne ++ several.map .oneToMany
    requiresScan := requiresScan root candidates }

/-- The search for a stored order at an instant, with the number of pages read. -/
def search (e : Engine) (id : String) (now : UInt64) : Result SearchOutcome × Nat :=
  match e.source.resolve? id with
  | .error err => (.error (.store err), 0)
  | .ok none => (.error (.orderNotFound id), 0)
  | .ok (some root) =>
    let (candidates, reads) := e.findCandidates root
    (candidates.bind fun cs => searchWithCandidates e.chain e.config root cs now, reads)

end Engine

end OrderBook
