import OrderBook.Flow.Arena

/-!
Flow graphs. A node carries a payload that bounds its flow, an edge a capacity fixed when it is
linked, and a group a limit on the flow of its members together. Flow is pushed in greedy rounds over
the edges in the order of their numbers. The main statement is that a round moves flow into the slack
of the edges one for one, so rounds that push something cannot go on forever.
-/

namespace OrderBook

-- The zero of sums is the literal.
attribute [local instance (high)] Zero.ofOfNat0

/-- Payloads that bound the flow through their node. -/
class Bounded (α : Type) where
  maxFlow : α → Nat

structure Edge where
  source : Nat
  target : Nat
  capacity : Nat
  flow : Nat := 0
deriving DecidableEq, Repr

namespace Edge

/-- The capacity that flow does not use yet. -/
def residual (e : Edge) : Nat := e.capacity - e.flow

def isSaturated (e : Edge) : Bool := e.capacity ≤ e.flow

def hasFlow (e : Edge) : Bool := 0 < e.flow

def addFlow (e : Edge) (n : Nat) : Edge := { e with flow := e.flow + n }

def touches (e : Edge) (node : Nat) : Bool := e.source == node || e.target == node

end Edge

structure Node (α : Type) where
  data : α
  outgoing : List Nat := []
  incoming : List Nat := []
  group : Option Nat := none

namespace Node

variable {α : Type}

def isUnlinked (n : Node α) : Bool := n.outgoing.isEmpty && n.incoming.isEmpty

/-- Forgets an edge in both directions. -/
def forget (n : Node α) (edge : Nat) : Node α :=
  { n with outgoing := n.outgoing.filter (· != edge), incoming := n.incoming.filter (· != edge) }

end Node

/-- A limit on the flow of several nodes together. -/
structure Group where
  limit : Nat
  members : List Nat := []

structure FlowGraph (α : Type) where
  nodes : Array (Node α) := #[]
  edges : Arena Edge := {}
  groups : Array Group := #[]

namespace FlowGraph

variable {α : Type}

def empty : FlowGraph α := {}

instance : Inhabited (FlowGraph α) := ⟨empty⟩

/-! Looking things up -/

def node? (g : FlowGraph α) (node : Nat) : Option (Node α) := g.nodes[node]?

def edge? (g : FlowGraph α) (edge : Nat) : Option Edge := g.edges.get? edge

def group? (g : FlowGraph α) (group : Nat) : Option Group := g.groups[group]?

def outgoing (g : FlowGraph α) (node : Nat) : List Nat := ((g.node? node).map (·.outgoing)).getD []

def incoming (g : FlowGraph α) (node : Nat) : List Nat := ((g.node? node).map (·.incoming)).getD []

def members (g : FlowGraph α) (group : Nat) : List Nat := ((g.group? group).map (·.members)).getD []

def nodeCount (g : FlowGraph α) : Nat := g.nodes.size

def edgeCount (g : FlowGraph α) : Nat := g.edges.size

/-- The edge from one node to another. -/
def findEdge? (g : FlowGraph α) (source target : Nat) : Option Nat :=
  (g.outgoing source).find? fun k => (g.edge? k).any fun e => e.target == target

/-- The edges that carry flow, in the order of their numbers. -/
def carrying (g : FlowGraph α) : List (Nat × Edge) := g.edges.entries.filter fun x => x.2.hasFlow

/-! Adding up flow -/

def flowOf (g : FlowGraph α) (edge : Nat) : Nat := ((g.edge? edge).map (·.flow)).getD 0

def sumFlow (g : FlowGraph α) (edges : List Nat) : Nat := (edges.map g.flowOf).sum

def inflow (g : FlowGraph α) (node : Nat) : Nat := g.sumFlow (g.incoming node)

def outflow (g : FlowGraph α) (node : Nat) : Nat := g.sumFlow (g.outgoing node)

def groupInflow (g : FlowGraph α) (group : Nat) : Nat := ((g.members group).map g.inflow).sum

def groupOutflow (g : FlowGraph α) (group : Nat) : Nat := ((g.members group).map g.outflow).sum

def totalFlow (g : FlowGraph α) : Nat := g.edges.total (·.flow)

/-- The capacity of all edges that flow does not use yet. -/
def slack (g : FlowGraph α) : Nat := g.edges.total Edge.residual

/-- What is left of the bound of a node and of the limit of its group, after what each has used. -/
def room [Bounded α] (g : FlowGraph α) (node : Nat) (used : Nat) (groupUsed : Nat → Nat) : Nat :=
  match g.node? node with
  | none => 0
  | some n =>
    let own := Bounded.maxFlow n.data - used
    match n.group with
    | none => own
    | some k =>
      match g.group? k with
      | none => own
      | some group => min own (group.limit - groupUsed k)

/-- What a node can still contribute, with flow in both directions counted. -/
def remaining [Bounded α] (g : FlowGraph α) (node : Nat) : Nat :=
  g.room node (g.inflow node + g.outflow node) fun k => g.groupInflow k + g.groupOutflow k

/-- What a node can still send. -/
def supply [Bounded α] (g : FlowGraph α) (node : Nat) : Nat :=
  g.room node (g.outflow node) g.groupOutflow

/-- What a node can still receive. -/
def demand [Bounded α] (g : FlowGraph α) (node : Nat) : Nat :=
  g.room node (g.inflow node) g.groupInflow

/-! Building -/

def addGroup (g : FlowGraph α) (limit : Nat) : FlowGraph α × Nat :=
  ({ g with groups := g.groups.push { limit } }, g.groups.size)

/-- Adds a node; a group that does not exist is no group. -/
def addNode (g : FlowGraph α) (data : α) (group : Option Nat) : FlowGraph α × Nat :=
  let key := g.nodes.size
  let group := group.filter (· < g.groups.size)
  let join (x : Group) : Group := { x with members := x.members ++ [key] }
  let groups := match group with
    | some k => g.groups.modify k join
    | none => g.groups
  ({ g with nodes := g.nodes.push { data, group }, groups }, key)

/-- Links two nodes with what both can still contribute. There is no edge from a node to itself, no
second edge, and none without capacity. -/
def link [Bounded α] (g : FlowGraph α) (source target : Nat) : FlowGraph α × Option Nat :=
  if source = target ∨ (g.node? source).isNone ∨ (g.node? target).isNone
      ∨ (g.findEdge? source target).isSome then (g, none)
  else
    let capacity := min (g.remaining source) (g.remaining target)
    if capacity = 0 then (g, none)
    else
      let key := g.edges.nextKey
      let send (n : Node α) : Node α := { n with outgoing := n.outgoing ++ [key] }
      let receive (n : Node α) : Node α := { n with incoming := n.incoming ++ [key] }
      ({ g with
          edges := g.edges.insert { source, target, capacity }
          nodes := (g.nodes.modify source send).modify target receive },
        some key)

/-! Taking edges away -/

/-- Removes one edge of `node` and has the node at its other end forget it. -/
def dropEdge (node : Nat) (g : FlowGraph α) (edge : Nat) : FlowGraph α :=
  match g.edge? edge with
  | none => g
  | some e =>
    let other := if e.source = node then e.target else e.source
    { g with
      edges := g.edges.remove edge
      nodes := g.nodes.modify other (·.forget edge) }

/-- The edges of a node: those that leave it, then those that arrive. -/
def touching (g : FlowGraph α) (node : Nat) : List Nat := g.outgoing node ++ g.incoming node

/-- A node without its lists. -/
def clearNode (g : FlowGraph α) (node : Nat) : FlowGraph α :=
  { g with nodes := g.nodes.modify node fun n => { n with outgoing := [], incoming := [] } }

/-- Removes every edge of a node, and with it the flow that it carries. -/
def unlink (g : FlowGraph α) (node : Nat) : FlowGraph α :=
  (g.touching node).foldl (dropEdge node) (g.clearNode node)

/-- Counts the edges that are there to be removed, one number after the other. -/
def dropCount (node : Nat) (g : FlowGraph α) : List Nat → Nat
  | [] => 0
  | edge :: edges =>
    let rest := dropCount node (g.dropEdge node edge) edges
    if (g.edge? edge).isSome then rest + 1 else rest

/-- How many edges `unlink` removes. -/
def unlinkCount (g : FlowGraph α) (node : Nat) : Nat :=
  dropCount node (g.clearNode node) (g.touching node)

theorem slack_dropEdge (node : Nat) (g : FlowGraph α) (edge : Nat) :
    (g.dropEdge node edge).slack ≤ g.slack := by
  unfold dropEdge
  split
  · exact Nat.le_refl _
  · exact Arena.total_remove_le _ _ _

theorem slack_foldl_dropEdge (node : Nat) (edges : List Nat) (g : FlowGraph α) :
    (edges.foldl (dropEdge node) g).slack ≤ g.slack := by
  induction edges generalizing g with
  | nil => exact Nat.le_refl _
  | cons e es ih => exact Nat.le_trans (ih _) (slack_dropEdge node g e)

theorem slack_unlink (g : FlowGraph α) (node : Nat) : (g.unlink node).slack ≤ g.slack :=
  slack_foldl_dropEdge node _ _

/-! Pushing flow -/

/-- What one edge can take now. -/
def pushable [Bounded α] (g : FlowGraph α) (e : Edge) : Nat :=
  min (min e.residual (g.supply e.source)) (g.demand e.target)

/-- Pushes through one edge, and adds what was pushed to a count. -/
def pushEdge [Bounded α] (s : FlowGraph α × Nat) (edge : Nat) : FlowGraph α × Nat :=
  match s.1.edge? edge with
  | none => s
  | some e =>
    let amount := s.1.pushable e
    ({ s.1 with edges := s.1.edges.modify edge (·.addFlow amount) }, s.2 + amount)

/-- One round over all edges, with the flow pushed in it. -/
def pushFlow [Bounded α] (g : FlowGraph α) : FlowGraph α × Nat :=
  g.edges.keys.foldl pushEdge (g, 0)

theorem slack_pushEdge [Bounded α] (s : FlowGraph α × Nat) (edge : Nat) :
    (pushEdge s edge).1.slack + (pushEdge s edge).2 = s.1.slack + s.2 := by
  unfold pushEdge
  split
  · rfl
  · rename_i e h
    have ht := Arena.total_modify Edge.residual (·.addFlow (s.1.pushable e)) h
    have hr : (e.addFlow (s.1.pushable e)).residual + s.1.pushable e = e.residual := by
      have : s.1.pushable e ≤ e.residual :=
        Nat.le_trans (Nat.min_le_left _ _) (Nat.min_le_left _ _)
      simp only [Edge.residual, Edge.addFlow] at *
      omega
    simp only [slack]
    omega

/-- A round turns slack into flow, one for one. -/
theorem slack_pushFlow [Bounded α] (g : FlowGraph α) :
    g.pushFlow.1.slack + g.pushFlow.2 = g.slack := by
  suffices h : ∀ (keys : List Nat) (s : FlowGraph α × Nat),
      (keys.foldl pushEdge s).1.slack + (keys.foldl pushEdge s).2 = s.1.slack + s.2 from
    h g.edges.keys (g, 0)
  intro keys
  induction keys with
  | nil => exact fun _ => rfl
  | cons k ks ih => exact fun s => (ih _).trans (slack_pushEdge s k)

/-- Rounds until one pushes nothing, with the flow of each; the last one is the round without. -/
def settle [Bounded α] (g : FlowGraph α) : FlowGraph α × List Nat :=
  if g.pushFlow.2 = 0 then (g.pushFlow.1, [0])
  else
    let (settled, rounds) := settle g.pushFlow.1
    (settled, g.pushFlow.2 :: rounds)
termination_by g.slack
decreasing_by have := g.slack_pushFlow; omega

end FlowGraph

end OrderBook
