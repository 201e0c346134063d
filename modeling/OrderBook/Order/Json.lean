import OrderBook.Json.Fields
import OrderBook.Order.Basic

/-!
Orders, items and what belongs to them in JSON. Fields are written in a fixed order and completely;
when they are read, those with a default may be missing.
-/

namespace OrderBook

open Json

namespace PriceCurve

def toJson (c : PriceCurve) : Json :=
  record [("startPrice", ofDecimal c.startPrice), ("endPrice", ofDecimal c.endPrice),
    ("startTime", ofUInt64 c.startTime), ("endTime", ofUInt64 c.endTime)]

def ofJson? (x : Json) : Option PriceCurve := do
  let [startPrice, endPrice, startTime, endTime] ←
    x.fields? ["startPrice", "endPrice", "startTime", "endTime"] | none
  return {
    startPrice := ← required asDecimal? startPrice
    endPrice := ← required asDecimal? endPrice
    startTime := ← required asUInt64? startTime
    endTime := ← required asUInt64? endTime }

end PriceCurve

namespace Side

def name : Side → String
  | .buy => "buy"
  | .sell => "sell"

def ofName? : String → Option Side
  | "buy" => some .buy
  | "sell" => some .sell
  | _ => none

def toJson (s : Side) : Json := text s.name

def ofJson? (x : Json) : Option Side := x.asName?.bind ofName?

end Side

namespace OrderStatus

def name : OrderStatus → String
  | .active => "active"
  | .inactive => "inactive"
  | .expired => "expired"
  | .filled => "filled"
  | .cancelled => "cancelled"

def ofName? : String → Option OrderStatus
  | "active" => some .active
  | "inactive" => some .inactive
  | "expired" => some .expired
  | "filled" => some .filled
  | "cancelled" => some .cancelled
  | _ => none

def toJson (s : OrderStatus) : Json := text s.name

def ofJson? (x : Json) : Option OrderStatus := x.asName?.bind ofName?

end OrderStatus

namespace Attributes

def toJson (a : Attributes) : Json := record (a.entries.map fun e => (e.1, text e.2))

/-- Of entries with one key the last one counts. -/
def ofJson? : Json → Option Attributes
  | .object fields => do return .ofList (← fields.mapM fun f => do return (← f.1, ← f.2.asText?))
  | _ => none

end Attributes

namespace TraitFilter

def toJson (f : TraitFilter) : Json :=
  record [("traitType", text f.traitType), ("values", ofList text f.values)]

def ofJson? (x : Json) : Option TraitFilter := do
  let [traitType, values] ← x.fields? ["traitType", "values"] | none
  return { traitType := ← required asText? traitType, values := ← required (asList? asText?) values }

end TraitFilter

namespace OrderItem

def toJson (i : OrderItem) : Json :=
  record [("id", text i.id), ("orderId", text i.orderId), ("chainId", ofUInt64 i.chainId),
    ("side", i.side.toJson), ("status", i.status.toJson), ("numItems", ofUInt32 i.numItems),
    ("price", i.price.toJson), ("complication", text i.complication), ("currency", text i.currency),
    ("collection", text i.collection), ("tokenId", optional text i.tokenId),
    ("numTokens", ofUInt32 i.numTokens), ("tokenAttributes", i.tokenAttributes.toJson),
    ("traitFilters", ofList TraitFilter.toJson i.traitFilters)]

def fieldNames : List String :=
  ["id", "orderId", "chainId", "side", "status", "numItems", "price", "complication", "currency",
    "collection", "tokenId", "numTokens", "tokenAttributes", "traitFilters"]

def ofJson? (x : Json) : Option OrderItem := do
  let [id, orderId, chainId, side, status, numItems, price, complication, currency, collection, tokenId,
    numTokens, tokenAttributes, traitFilters] ← x.fields? fieldNames | none
  return {
    id := ← required asText? id
    orderId := ← required asText? orderId
    chainId := ← required asUInt64? chainId
    side := ← required Side.ofJson? side
    status := ← orElse .active OrderStatus.ofJson? status
    numItems := ← required asUInt32? numItems
    price := ← required PriceCurve.ofJson? price
    complication := ← orElse "" asText? complication
    currency := ← orElse "" asText? currency
    collection := ← required asText? collection
    tokenId := ← orElse none (asOptional? asText?) tokenId
    numTokens := ← orElse 1 asUInt32? numTokens
    tokenAttributes := ← orElse .empty Attributes.ofJson? tokenAttributes
    traitFilters := ← orElse [] (asList? TraitFilter.ofJson?) traitFilters }

end OrderItem

namespace Order

def toJson (o : Order) : Json :=
  record [("id", text o.id), ("chainId", ofUInt64 o.chainId), ("side", o.side.toJson),
    ("numItems", ofUInt32 o.numItems), ("price", o.price.toJson), ("status", o.status.toJson),
    ("maker", text o.maker), ("complication", text o.complication), ("currency", text o.currency)]

def fieldNames : List String :=
  ["id", "chainId", "side", "numItems", "price", "status", "maker", "complication", "currency"]

def ofJson? (x : Json) : Option Order := do
  let [id, chainId, side, numItems, price, status, maker, complication, currency] ←
    x.fields? fieldNames | none
  return {
    id := ← required asText? id
    chainId := ← orElse 1 asUInt64? chainId
    side := ← required Side.ofJson? side
    numItems := ← required asUInt32? numItems
    price := ← required PriceCurve.ofJson? price
    status := ← orElse .active OrderStatus.ofJson? status
    maker := ← orElse "" asText? maker
    complication := ← orElse "" asText? complication
    currency := ← orElse "" asText? currency }

end Order

namespace ResolvedOrder

def toJson (r : ResolvedOrder) : Json :=
  record [("order", r.order.toJson), ("items", ofList OrderItem.toJson r.items)]

def ofJson? (x : Json) : Option ResolvedOrder := do
  let [order, items] ← x.fields? ["order", "items"] | none
  return ⟨← required Order.ofJson? order, ← required (asList? OrderItem.ofJson?) items⟩

end ResolvedOrder

end OrderBook
