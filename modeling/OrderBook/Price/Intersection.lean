import OrderBook.Price.Curve
import OrderBook.Decimal.Integral

/-!
Where a bid meets an ask. Over the overlap of their windows the spread `bid - ask` is taken to be
linear, so the instants with a spread of at least zero form one interval, whose open end is found by
solving for the crossing and correcting the rounded result by one millisecond.
-/

namespace OrderBook

/-- A price and the instant it applies to. -/
structure ClearingPrice where
  price : Decimal
  timestamp : UInt64
deriving DecidableEq

/-- The interval over which a bid meets an ask. -/
structure PriceIntersection where
  bid : PriceCurve
  ask : PriceCurve
  validFrom : UInt64
  validUntil : UInt64
  /-- The clearing price at `validFrom`. -/
  price : Decimal
deriving DecidableEq

namespace PriceIntersection

/-- The higher of the two curves, inside the interval. -/
def priceAt (x : PriceIntersection) (t : UInt64) : Result (Option Decimal) :=
  if t < x.validFrom ∨ x.validUntil < t then .ok none
  else do
    let bid ← x.bid.valueAt t
    let ask ← x.ask.valueAt t
    return some (max bid ask)

/-- What a match evaluated at `now` is priced: the first price of an interval that lies ahead, else
the price of the moment. -/
def resolve (x : PriceIntersection) (now : UInt64) : Result (Option ClearingPrice) :=
  if now < x.validFrom then .ok (some ⟨x.price, x.validFrom⟩)
  else do return (← x.priceAt now).map (⟨·, now⟩)

end PriceIntersection

namespace PriceCurve

def spread (bid ask : PriceCurve) (t : UInt64) : Result Decimal := do
  let b ← bid.valueAt t
  let a ← ask.valueAt t
  orFail .spread (b.sub? a)

/-- The instant at which a spread that moves linearly from `d0` at `start` to `d1` at `stop` is
zero. -/
def crossing (start stop : UInt64) (d0 d1 : Decimal) : Result Decimal :=
  match d0.sub? d1 with
  | none => .error .spreadsTooFarApart
  | some change => orFail .crossing do
    let ratio ← d0.div? change
    let offset ← ratio.mul? (.ofUInt64 (stop - start))
    (Decimal.ofUInt64 start).add? offset

def toMillis (t : Decimal) : Result UInt64 :=
  match t.toUInt64? with
  | some n => .ok n
  | none => .error (.arithmetic .timestamp)

/-- The last valid instant of a spread that falls below zero. -/
def lastValid (bid ask : PriceCurve) (start stop : UInt64) (d0 d1 : Decimal) : Result UInt64 := do
  let crossed := (← crossing start stop d0 d1).floor
  let last ← toMillis (max crossed (.ofUInt64 start))
  if (← spread bid ask last) < .zero then
    return max (if last = 0 then 0 else last - 1) start
  return last

/-- The first valid instant of a spread that rises to zero, if it does by `stop`. -/
def firstValid? (bid ask : PriceCurve) (start stop : UInt64) (d0 d1 : Decimal) :
    Result (Option UInt64) := do
  let rounded ← toMillis (← crossing start stop d0 d1).ceil
  let first := if (← spread bid ask rounded) < .zero then rounded + 1 else rounded
  if stop < first then return none
  if (← spread bid ask first) < .zero then return none
  return some first

/-- The interval of instants at which the bid is at least the ask. -/
def validInterval? (bid ask : PriceCurve) : Result (Option (UInt64 × UInt64)) :=
  let start := max bid.startTime ask.startTime
  let stop := min bid.endTime ask.endTime
  if stop < start then .ok none
  else do
    let d0 ← spread bid ask start
    let d1 ← spread bid ask stop
    if .zero ≤ d0 then
      if .zero ≤ d1 then return some (start, stop)
      else return some (start, ← lastValid bid ask start stop d0 d1)
    else if .zero ≤ d1 then
      return (← firstValid? bid ask start stop d0 d1).map (·, stop)
    else return none

/-- Intersects the curve of a buyer with that of a seller. -/
def intersect (bid ask : PriceCurve) : Result (Option PriceIntersection) := do
  match ← validInterval? bid ask with
  | none => return none
  | some (validFrom, validUntil) =>
    let b ← bid.valueAt validFrom
    let a ← ask.valueAt validFrom
    return some { bid, ask, validFrom, validUntil, price := max b a }

end PriceCurve

end OrderBook
