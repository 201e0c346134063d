import OrderBook.Flow.Graph
import OrderBook.Order.Basic

/-!
Orders in a flow graph. An order is a group of nodes, one for each of its items, limited to the number
of tokens that the order asks for.
-/

namespace OrderBook

instance : Bounded OrderItem := ⟨fun i => i.maxContribution.toNat⟩

abbrev OrderGraph := FlowGraph OrderItem

/-- The nodes of one order, in the order of its items. -/
structure OrderNodes where
  order : Order
  group : Nat
  nodes : List Nat

namespace OrderNodes

def addItems (g : OrderGraph) (group : Nat) : List OrderItem → OrderGraph × List Nat
  | [] => (g, [])
  | i :: is =>
    let (g, node) := g.addNode i (some group)
    let (g, nodes) := addItems g group is
    (g, node :: nodes)

def insert (g : OrderGraph) (r : ResolvedOrder) : OrderGraph × OrderNodes :=
  let (g, group) := g.addGroup r.order.numItems.toNat
  let (g, nodes) := addItems g group r.items
  (g, { order := r.order, group, nodes })

def numItems (c : OrderNodes) : Nat := c.order.numItems.toNat

def items (c : OrderNodes) (g : OrderGraph) : List (Nat × OrderItem) :=
  c.nodes.filterMap fun k => (g.node? k).map fun n => (k, n.data)

def contains (c : OrderNodes) (node : Nat) : Bool := c.nodes.contains node

def incomingFlow (c : OrderNodes) (g : OrderGraph) : Nat := g.groupInflow c.group

def outgoingFlow (c : OrderNodes) (g : OrderGraph) : Nat := g.groupOutflow c.group

/-- Takes the order out of the graph: its nodes stay, without edges. -/
def unlink (c : OrderNodes) (g : OrderGraph) : OrderGraph := c.nodes.foldl FlowGraph.unlink g

/-- Counts the edges that leave with some nodes, one node after the other. -/
def countUnlinked (g : OrderGraph) : List Nat → Nat
  | [] => 0
  | n :: ns => g.unlinkCount n + countUnlinked (g.unlink n) ns

/-- How many edges `unlink` removes. -/
def unlinkCount (c : OrderNodes) (g : OrderGraph) : Nat := countUnlinked g c.nodes

theorem slack_unlink (c : OrderNodes) (g : OrderGraph) : (c.unlink g).slack ≤ g.slack := by
  suffices h : ∀ (nodes : List Nat) (g : OrderGraph), (nodes.foldl FlowGraph.unlink g).slack ≤ g.slack from
    h c.nodes g
  intro nodes
  induction nodes with
  | nil => exact fun _ => Nat.le_refl _
  | cons n ns ih => exact fun g => Nat.le_trans (ih _) (g.slack_unlink n)

end OrderNodes

end OrderBook
