import OrderBook.Keyed
import OrderBook.Price.Curve

/-!
Orders and their items. An order asks to buy or sell a number of tokens for a total price; its items
say which tokens qualify. An item carries a copy of the fields of its order that decide whether it
goes together with another item.
-/

namespace OrderBook

inductive Side where
  | buy
  | sell
deriving DecidableEq, Repr

namespace Side

def opposite : Side → Side
  | .buy => .sell
  | .sell => .buy

end Side

inductive OrderStatus where
  | active
  | inactive
  | expired
  | filled
  | cancelled
deriving DecidableEq, Repr

/-- Attributes of a token, by trait. -/
abbrev Attributes := Keyed (α := String × String) Prod.fst

/-- A trait that a token has to have, with the values it may take. -/
structure TraitFilter where
  traitType : String
  values : List String
deriving DecidableEq

namespace TraitFilter

def accepts (f : TraitFilter) (attributes : Attributes) : Bool :=
  match attributes.find? f.traitType with
  | some (_, value) => f.values.contains value
  | none => false

end TraitFilter

structure OrderItem where
  id : String
  orderId : String
  chainId : UInt64
  side : Side
  status : OrderStatus := .active
  /-- How many tokens the order of this item asks for. -/
  numItems : UInt32
  /-- The total price of the order. -/
  price : PriceCurve
  complication : String := ""
  currency : String := ""
  collection : String
  /-- The one token meant, or nothing for any token of the collection. -/
  tokenId : Option String := none
  numTokens : UInt32 := 1
  tokenAttributes : Attributes := .empty
  traitFilters : List TraitFilter := []
deriving DecidableEq

namespace OrderItem

/-- Whether the item names the exact token. -/
def pinsToken (i : OrderItem) : Bool := i.tokenId.isSome

/-- How many tokens the item can add to one match: a pinned token no more than its quantity, any
other item up to the whole order. -/
def maxContribution (i : OrderItem) : UInt32 :=
  if i.pinsToken then min i.numTokens i.numItems else i.numItems

def startTime (i : OrderItem) : UInt64 := i.price.startTime

def endTime (i : OrderItem) : UInt64 := i.price.endTime

def withToken (i : OrderItem) (token : String) : OrderItem := { i with tokenId := some token }

def withAttribute (i : OrderItem) (traitType value : String) : OrderItem :=
  { i with tokenAttributes := i.tokenAttributes.insert (traitType, value) }

def withTraitFilter (i : OrderItem) (f : TraitFilter) : OrderItem :=
  { i with traitFilters := i.traitFilters ++ [f] }

end OrderItem

structure Order where
  id : String
  chainId : UInt64 := 1
  side : Side
  numItems : UInt32
  /-- The total price of all items. -/
  price : PriceCurve
  status : OrderStatus := .active
  maker : String := ""
  complication : String := ""
  currency : String := ""
deriving DecidableEq

namespace Order

def isSell (o : Order) : Bool := o.side == .sell

def startTime (o : Order) : UInt64 := o.price.startTime

/-- An item of this order for any token of a collection. -/
def item (o : Order) (id collection : String) : OrderItem where
  id := id
  orderId := o.id
  chainId := o.chainId
  side := o.side
  status := o.status
  numItems := o.numItems
  price := o.price
  complication := o.complication
  currency := o.currency
  collection := collection

end Order

/-- An order together with its items. -/
structure ResolvedOrder where
  order : Order
  items : List OrderItem
deriving DecidableEq

namespace ResolvedOrder

def id (r : ResolvedOrder) : String := r.order.id

end ResolvedOrder

end OrderBook
