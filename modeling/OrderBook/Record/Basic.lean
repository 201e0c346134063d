import OrderBook.Order.Basic
import OrderBook.Record.Digest

/-!
Match records. Each names the root order, what it was matched with, and the price and instant of the
match. The id of a record depends on the set of its orders alone.
-/

namespace OrderBook

-- The zero of sums is the literal.
attribute [local instance (high)] Zero.ofOfNat0

/-- The order in which ids enter a record's id. -/
def sortedIds (ids : List String) : List String := ids.mergeSort fun a b => decide (a ≤ b)

/-- The digest of the ids in ascending order, joined by colons. -/
def matchId (ids : List String) : String := Digest.ofText (String.intercalate ":" (sortedIds ids))

/-- An item of the root with the opposing item that fulfils it. -/
structure ItemPair where
  orderItem : OrderItem
  opposingOrderItem : OrderItem
deriving DecidableEq

/-- How many tokens go between an item of the root and an opposing item. -/
structure ItemEdge where
  source : OrderItem
  target : OrderItem
  numItems : UInt32
deriving DecidableEq

/-- The root filled by one opposing order. -/
structure OneToOneMatch where
  id : String
  order : Order
  opposingOrder : Order
  pairs : List ItemPair
  price : Decimal
  timestamp : UInt64
deriving DecidableEq

/-- The root filled by several opposing orders of one token each. -/
structure OneToManyMatch where
  id : String
  order : Order
  opposingOrders : List Order
  edges : List ItemEdge
  price : Decimal
  timestamp : UInt64
deriving DecidableEq

namespace OneToOneMatch

def make (order opposingOrder : Order) (pairs : List ItemPair) (price : Decimal)
    (timestamp : UInt64) : OneToOneMatch :=
  { id := matchId [order.id, opposingOrder.id], order, opposingOrder, pairs, price, timestamp }

end OneToOneMatch

namespace OneToManyMatch

def make (order : Order) (opposingOrders : List Order) (edges : List ItemEdge) (price : Decimal)
    (timestamp : UInt64) : OneToManyMatch :=
  { id := matchId (order.id :: opposingOrders.map (·.id)), order, opposingOrders, edges, price,
    timestamp }

/-- The number of tokens that change hands. -/
def numItems (m : OneToManyMatch) : Nat := (m.edges.map fun e => e.numItems.toNat).sum

end OneToManyMatch

inductive OrderMatch where
  | oneToOne (m : OneToOneMatch)
  | oneToMany (m : OneToManyMatch)
deriving DecidableEq

namespace OrderMatch

def id : OrderMatch → String
  | .oneToOne m => m.id
  | .oneToMany m => m.id

def price : OrderMatch → Decimal
  | .oneToOne m => m.price
  | .oneToMany m => m.price

def timestamp : OrderMatch → UInt64
  | .oneToOne m => m.timestamp
  | .oneToMany m => m.timestamp

def order : OrderMatch → Order
  | .oneToOne m => m.order
  | .oneToMany m => m.order

def opposingOrders : OrderMatch → List Order
  | .oneToOne m => [m.opposingOrder]
  | .oneToMany m => m.opposingOrders

end OrderMatch

end OrderBook
