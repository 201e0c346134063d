import OrderBook.Order.Json
import OrderBook.Record.Basic

/-!
Match records in JSON. A record of either kind carries its kind in the field `type`.
-/

namespace OrderBook

open Json

namespace ItemPair

def toJson (p : ItemPair) : Json :=
  record [("orderItem", p.orderItem.toJson), ("opposingOrderItem", p.opposingOrderItem.toJson)]

def ofJson? (x : Json) : Option ItemPair := do
  let [orderItem, opposingOrderItem] ← x.fields? ["orderItem", "opposingOrderItem"] | none
  return ⟨← required OrderItem.ofJson? orderItem, ← required OrderItem.ofJson? opposingOrderItem⟩

end ItemPair

namespace ItemEdge

def toJson (e : ItemEdge) : Json :=
  record [("from", e.source.toJson), ("to", e.target.toJson), ("numItems", ofUInt32 e.numItems)]

def ofJson? (x : Json) : Option ItemEdge := do
  let [source, target, numItems] ← x.fields? ["from", "to", "numItems"] | none
  return ⟨← required OrderItem.ofJson? source, ← required OrderItem.ofJson? target,
    ← required asUInt32? numItems⟩

end ItemEdge

namespace OneToOneMatch

def jsonFields (m : OneToOneMatch) : List (String × Json) :=
  [("id", text m.id), ("order", m.order.toJson), ("opposingOrder", m.opposingOrder.toJson),
    ("pairs", ofList ItemPair.toJson m.pairs), ("price", ofDecimal m.price),
    ("timestamp", ofUInt64 m.timestamp)]

def ofJson? (x : Json) : Option OneToOneMatch := do
  let [id, order, opposingOrder, pairs, price, timestamp] ←
    x.fields? ["id", "order", "opposingOrder", "pairs", "price", "timestamp"] | none
  return {
    id := ← required asText? id
    order := ← required Order.ofJson? order
    opposingOrder := ← required Order.ofJson? opposingOrder
    pairs := ← required (asList? ItemPair.ofJson?) pairs
    price := ← required asDecimal? price
    timestamp := ← required asUInt64? timestamp }

end OneToOneMatch

namespace OneToManyMatch

def jsonFields (m : OneToManyMatch) : List (String × Json) :=
  [("id", text m.id), ("order", m.order.toJson), ("opposingOrders", ofList Order.toJson m.opposingOrders),
    ("edges", ofList ItemEdge.toJson m.edges), ("price", ofDecimal m.price),
    ("timestamp", ofUInt64 m.timestamp)]

def ofJson? (x : Json) : Option OneToManyMatch := do
  let [id, order, opposingOrders, edges, price, timestamp] ←
    x.fields? ["id", "order", "opposingOrders", "edges", "price", "timestamp"] | none
  return {
    id := ← required asText? id
    order := ← required Order.ofJson? order
    opposingOrders := ← required (asList? Order.ofJson?) opposingOrders
    edges := ← required (asList? ItemEdge.ofJson?) edges
    price := ← required asDecimal? price
    timestamp := ← required asUInt64? timestamp }

end OneToManyMatch

namespace OrderMatch

def toJson : OrderMatch → Json
  | .oneToOne m => record (("type", text "oneToOne") :: m.jsonFields)
  | .oneToMany m => record (("type", text "oneToMany") :: m.jsonFields)

/-- The kind of a record and the rest of it. An array has its kind first. -/
def splitKind? : Json → Option (String × Json)
  | .object fields => do
    let kind ← (← once? fields "type").bind asText?
    return (kind, .object (fields.filter fun f => f.1 != some "type"))
  | .array (kind :: rest) => do return (← kind.asText?, .array rest)
  | _ => none

/-- A record is taken as a whole, unknown fields included, so all of it has to be sound inside the
`level` arrays and objects around it. A name in it may also stand for an empty object. -/
def ofJson? (level : Nat) (x : Json) : Option OrderMatch := do
  guard (x.isSound level)
  match ← splitKind? x.nullUnderName with
  | ("oneToOne", x) => return .oneToOne (← OneToOneMatch.ofJson? x)
  | ("oneToMany", x) => return .oneToMany (← OneToManyMatch.ofJson? x)
  | _ => none

end OrderMatch

end OrderBook
