import OrderBook.Policy.Basic

/-!
A chain of policies. A candidate is checked under every policy of the chain, so a rejection gives all
reasons; two items match when each accepts the other.
-/

namespace OrderBook

-- The zero of sums is the literal.
attribute [local instance (high)] Zero.ofOfNat0

abbrev PolicyChain := List Policy

namespace PolicyChain

/-- All policies, each once. -/
def default : PolicyChain := Policy.all

def names (chain : PolicyChain) : List String := chain.map (·.name)

def score (chain : PolicyChain) : Nat := (chain.map (·.score)).sum

/-- What speaks against `candidate` as a partner of `item`, in the order of the policies. -/
def mismatches (item candidate : OrderItem) : PolicyChain → Result (List (Policy × Mismatch))
  | [] => .ok []
  | p :: ps => do
    let first ← p.check item candidate
    let rest ← mismatches item candidate ps
    return (first.map (p, ·)).toList ++ rest

/-- The reasons against a candidate, each under the name of its policy. -/
def reasons (chain : PolicyChain) (item candidate : OrderItem) : Result (List String) := do
  return (← chain.mismatches item candidate).map fun m => m.1.name ++ ": " ++ m.2.reason

def accepts (chain : PolicyChain) (item candidate : OrderItem) : Result Bool := do
  return (← chain.mismatches item candidate).isEmpty

/-- Both items accept each other; the second direction is looked at only if the first holds. -/
def mutualMatch (chain : PolicyChain) (a b : OrderItem) : Result Bool := do
  if ← chain.accepts a b then chain.accepts b a else return false

/-- The query for candidates of `item`: the filters and sort keys of all policies, finished by the
item id so that the order is total. -/
def candidateQuery (chain : PolicyChain) (item : OrderItem) (pageSize : Nat) : CandidateQuery :=
  let narrowed := chain.foldl (fun q p => p.narrow item q) {}
  let sorted := (chain.flatMap (·.sortKeys)).foldl CandidateQuery.sortedBy narrowed
  (sorted.sortedBy .itemId).withLimit pageSize

end PolicyChain

end OrderBook
