import OrderBook.Store.Source

/-!
An order book held in memory: orders with their items, by order id. Queries look at all items, in the
order of their orders' ids.
-/

namespace OrderBook

/-- The content of a book as it is written down. -/
structure Snapshot where
  orders : List ResolvedOrder
deriving DecidableEq

structure Book where
  orders : Keyed ResolvedOrder.id
deriving DecidableEq

namespace Book

instance : Inhabited Book := ⟨⟨.empty⟩⟩

def empty : Book := ⟨.empty⟩

/-- Adds an order, in place of the one with its id. -/
def insert (b : Book) (r : ResolvedOrder) : Book := ⟨b.orders.insert r⟩

def ofList (rs : List ResolvedOrder) : Book := ⟨.ofList rs⟩

def ofSnapshot (s : Snapshot) : Book := ofList s.orders

def size (b : Book) : Nat := b.orders.size

def find? (b : Book) (id : String) : Option ResolvedOrder := b.orders.find? id

def itemsOf (b : Book) (id : String) : List OrderItem := ((b.find? id).map (·.items)).getD []

def allItems (b : Book) : List OrderItem := b.orders.entries.flatMap (·.items)

/-- Pages start strictly after one another, so besides a page for each item there is at most one. -/
def source (b : Book) : OrderSource where
  order? id := .ok ((b.find? id).map (·.order))
  items id := .ok (b.itemsOf id)
  page q := .ok (q.apply b.allItems)
  pageBound := b.allItems.length + 1

/-- Ways in which a store can misbehave. -/
structure Faults where
  /-- Items that every first page ends with although they are out of date. -/
  staleItems : List OrderItem := []
  failQuery : Option String := none
  /-- Orders that cannot be read, with the text of the failure. -/
  failOrders : List (String × String) := []

/-- A book that misbehaves. The stale items may make one more page necessary. -/
def faultySource (b : Book) (f : Faults) : OrderSource where
  order? id :=
    match f.failOrders.lookup id with
    | some text => .error (.backend text)
    | none => b.source.order? id
  items := b.source.items
  page q :=
    match f.failQuery with
    | some text => .error (.backend text)
    | none => .ok (q.apply b.allItems ++ if q.startAfter.isNone then f.staleItems else [])
  pageBound := b.source.pageBound + f.staleItems.length + 1

end Book

end OrderBook
