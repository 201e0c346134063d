import OrderBook.Order.Basic
import OrderBook.Price.Intersection

/-!
Price intersections of orders and of items. Which curve is the bid follows from the sides; two
orders on one side have no common price.
-/

namespace OrderBook

namespace Order

/-- Two opposing orders meet at their total prices. -/
def intersection (a b : Order) : Result (Option PriceIntersection) :=
  match a.side, b.side with
  | .buy, .sell => PriceCurve.intersect a.price b.price
  | .sell, .buy => PriceCurve.intersect b.price a.price
  | _, _ => .error (.sameSide a.id b.id)

/-- One order against several opposing ones, whose prices add up. -/
def combinedIntersection (root : Order) (opposing : List Order) : Result (Option PriceIntersection) :=
  match opposing.find? fun o => o.side == root.side with
  | some same => .error (.sameSide root.id same.id)
  | none => do
    match ← PriceCurve.sum? (opposing.map (·.price)) with
    | none => return none
    | some combined =>
      match root.side with
      | .buy => PriceCurve.intersect root.price combined
      | .sell => PriceCurve.intersect combined root.price

end Order

namespace OrderItem

def unitPrice (i : OrderItem) : Result PriceCurve := i.price.perItem i.numItems

def intersectUnits (bid ask : OrderItem) : Result (Option PriceIntersection) := do
  let b ← bid.unitPrice
  let a ← ask.unitPrice
  PriceCurve.intersect b a

/-- Two opposing items meet at the price of one token, so orders of different sizes compare. -/
def intersection (a b : OrderItem) : Result (Option PriceIntersection) :=
  match a.side, b.side with
  | .buy, .sell => intersectUnits a b
  | .sell, .buy => intersectUnits b a
  | _, _ => .error (.sameSide a.orderId b.orderId)

end OrderItem

end OrderBook
