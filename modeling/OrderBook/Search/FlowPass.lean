import OrderBook.Flow.OrderNodes
import OrderBook.Order.Intersection
import OrderBook.Policy.Chain
import OrderBook.Record.Basic

/-!
One pass of the one-to-many search: a flow graph from the items of the root to the compatible items of
a pool of candidates. Rounds of flow go on until one pushes nothing. A round that fills the root gives
a record if the prices agree; if they do not, the first candidate is taken out.
-/

namespace OrderBook

-- The zero of sums is the literal.
attribute [local instance (high)] Zero.ofOfNat0

structure FlowPass where
  root : ResolvedOrder
  graph : OrderGraph
  rootNodes : OrderNodes
  /-- The candidates in the order of the pool; the first one is the main candidate. -/
  candidates : List OrderNodes

namespace FlowPass

/-- What a round of flow amounts to. -/
inductive RoundState where
  /-- Every engaged candidate is filled, and so is the root. -/
  | filled (engaged : List Nat)
  /-- This candidate got less than it asked for. -/
  | underfilled (index : Nat)
  /-- Every engaged candidate is filled, but the root is not. -/
  | part

/-- What a step leads to. -/
inductive Step where
  | found (record : OneToManyMatch) (pass : FlowPass)
  | more (pass : FlowPass)
  | exhausted

def insertAll (g : OrderGraph) : List ResolvedOrder → OrderGraph × List OrderNodes
  | [] => (g, [])
  | r :: rs =>
    let (g, nodes) := OrderNodes.insert g r
    let (g, rest) := insertAll g rs
    (g, nodes :: rest)

/-- Links one root node with one candidate node if their items accept each other. -/
def linkPair (chain : PolicyChain) (g : OrderGraph) (source target : Nat) : Result OrderGraph := do
  let some a := g.node? source | return g
  let some b := g.node? target | return g
  if ← chain.mutualMatch a.data b.data then return (g.link source target).1 else return g

/-- Links every candidate node, in the order of the pool, with every root node. -/
def linkAll (chain : PolicyChain) (g : OrderGraph) (sources targets : List Nat) : Result OrderGraph :=
  targets.foldlM (fun g target => sources.foldlM (fun g source => linkPair chain g source target) g) g

def build (chain : PolicyChain) (root : ResolvedOrder) (pool : List ResolvedOrder) :
    Result FlowPass := do
  let (g, rootNodes) := OrderNodes.insert .empty root
  let (g, candidates) := insertAll g pool
  let graph ← linkAll chain g rootNodes.nodes (candidates.flatMap (·.nodes))
  return { root, graph, rootNodes, candidates }

def candidate? (p : FlowPass) (index : Nat) : Option OrderNodes := p.candidates[index]?

/-- Whether some flow arrives at a candidate. -/
def isEngaged (p : FlowPass) (c : OrderNodes) : Bool :=
  p.graph.carrying.any fun x => c.contains x.2.target

/-- The positions of the candidates that receive flow, in the order of the pool. -/
def engaged (p : FlowPass) : List Nat :=
  (List.range p.candidates.length).filter fun i => (p.candidate? i).any p.isEngaged

def orderId (p : FlowPass) (i : Nat) : String := ((p.candidate? i).map (·.order.id)).getD ""

/-- What a candidate has received so far. -/
def received (p : FlowPass) (i : Nat) : Nat :=
  ((p.candidate? i).map (·.incomingFlow p.graph)).getD 0

/-- What a candidate asks for. -/
def expected (p : FlowPass) (i : Nat) : Nat := ((p.candidate? i).map (·.numItems)).getD 0

/-- Judges the engaged candidates: too much flow is an error, and of those with too little the first
one decides. -/
def judge (p : FlowPass) (engaged : List Nat) : Result RoundState :=
  match engaged.find? fun i => p.expected i < p.received i with
  | some i => .error (.flowExceeded (p.orderId i) (p.received i) (p.expected i))
  | none =>
    match engaged.find? fun i => p.received i < p.expected i with
    | some i => .ok (.underfilled i)
    | none =>
      if (engaged.map p.received).sum = p.rootNodes.numItems then .ok (.filled engaged) else .ok .part

/-- Takes the first candidate out of the graph. -/
def dropMain (p : FlowPass) : FlowPass :=
  match p.candidates with
  | [] => p
  | main :: _ => { p with graph := main.unlink p.graph }

def dropCandidate (p : FlowPass) (index : Nat) : FlowPass :=
  match p.candidate? index with
  | none => p
  | some c => { p with graph := c.unlink p.graph }

/-- The edges that carry flow, as edges between items. -/
def itemEdges (p : FlowPass) : List ItemEdge :=
  p.graph.carrying.filterMap fun (_, e) => do
    let source ← p.graph.node? e.source
    let target ← p.graph.node? e.target
    return ⟨source.data, target.data, UInt32.ofNat e.flow⟩

def opposingOrders (p : FlowPass) (engaged : List Nat) : List Order :=
  engaged.filterMap fun i => (p.candidate? i).map (·.order)

/-- The price at which the root and the engaged candidates meet at `now`. -/
def clearing? (p : FlowPass) (engaged : List Nat) (now : UInt64) : Result (Option ClearingPrice) := do
  let some x ← p.root.order.combinedIntersection (p.opposingOrders engaged) | return none
  x.resolve now

/-- Prices a filled round; without a price the main candidate goes. -/
def settle (p : FlowPass) (engaged : List Nat) (now : UInt64) : Result Step := do
  match ← (p.clearing? engaged now).forgive with
  | none => return .more p.dropMain
  | some clearing =>
    let record := OneToManyMatch.make p.root.order (p.opposingOrders engaged) p.itemEdges
      clearing.price clearing.timestamp
    return .found record p

/-- What follows from a round that pushed flow. -/
def follow (p : FlowPass) (now : UInt64) : Result Step := do
  match ← p.judge p.engaged with
  | .filled engaged => p.settle engaged now
  | .underfilled i => return .more (p.dropCandidate i)
  | .part => return .more p

/-- One round of flow and what follows from it. -/
def step (p : FlowPass) (now : UInt64) : Result Step :=
  if p.graph.pushFlow.2 = 0 then .ok .exhausted
  else { p with graph := p.graph.pushFlow.1 }.follow now

/-- The pass that a step leaves, if it goes on. -/
def Step.pass? : Step → Option FlowPass
  | .found _ p => some p
  | .more p => some p
  | .exhausted => none

theorem slack_dropMain (p : FlowPass) : p.dropMain.graph.slack ≤ p.graph.slack := by
  unfold dropMain
  split
  · exact Nat.le_refl _
  · exact OrderNodes.slack_unlink _ _

theorem slack_dropCandidate (p : FlowPass) (i : Nat) :
    (p.dropCandidate i).graph.slack ≤ p.graph.slack := by
  unfold dropCandidate
  split
  · exact Nat.le_refl _
  · exact OrderNodes.slack_unlink _ _

theorem slack_settle {p q : FlowPass} {engaged : List Nat} {now : UInt64} {s : Step}
    (h : p.settle engaged now = .ok s) (hq : s.pass? = some q) : q.graph.slack ≤ p.graph.slack := by
  unfold settle at h
  cases hc : (p.clearing? engaged now).forgive with
  | error e => simp [hc, bind, Except.bind] at h
  | ok c =>
    cases c with
    | none =>
      obtain rfl : Step.more p.dropMain = s := by simpa [hc, bind, Except.bind, pure, Except.pure] using h
      cases hq
      exact p.slack_dropMain
    | some c =>
      simp only [hc, bind, Except.bind, pure, Except.pure, Except.ok.injEq] at h
      subst h
      cases hq
      exact Nat.le_refl _

theorem slack_follow {p q : FlowPass} {now : UInt64} {s : Step} (h : p.follow now = .ok s)
    (hq : s.pass? = some q) : q.graph.slack ≤ p.graph.slack := by
  unfold follow at h
  cases hj : p.judge p.engaged with
  | error e => simp [hj, bind, Except.bind] at h
  | ok r =>
    cases r with
    | filled engaged => exact slack_settle (by simpa [hj, bind, Except.bind] using h) hq
    | underfilled i =>
      obtain rfl : Step.more (p.dropCandidate i) = s := by
        simpa [hj, bind, Except.bind, pure, Except.pure] using h
      cases hq
      exact p.slack_dropCandidate i
    | part =>
      obtain rfl : Step.more p = s := by simpa [hj, bind, Except.bind, pure, Except.pure] using h
      cases hq
      exact Nat.le_refl _

/-- A pass that goes on has less slack than before. -/
theorem slack_step {p q : FlowPass} {now : UInt64} {s : Step} (h : p.step now = .ok s)
    (hq : s.pass? = some q) : q.graph.slack < p.graph.slack := by
  unfold step at h
  split at h
  · cases h; cases hq
  · have hl := slack_follow h hq
    have hp := p.graph.slack_pushFlow
    simp only at hl
    omega

end FlowPass

end OrderBook
