import OrderBook.Decimal.Division
import OrderBook.Error

/-!
Price curves: a price that moves linearly from a start to an end over a time window, in unix
milliseconds. Outside its window a curve keeps the value of the nearer end.
-/

namespace OrderBook

structure PriceCurve where
  startPrice : Decimal
  endPrice : Decimal
  startTime : UInt64
  endTime : UInt64
deriving DecidableEq

namespace PriceCurve

/-- A number, or the step that failed to give one. -/
def orFail (step : PriceStep) : Option Decimal → Result Decimal
  | some d => .ok d
  | none => .error (.arithmetic step)

/-- Whether the price changes over time. -/
def isAuction (c : PriceCurve) : Bool := !decide (c.startPrice.SameValue c.endPrice)

def contains (c : PriceCurve) (t : UInt64) : Bool := c.startTime ≤ t && t ≤ c.endTime

/-- `start + delta * elapsed / duration`. -/
def interpolate (c : PriceCurve) (elapsed duration : UInt64) : Result Decimal := do
  let delta ← orFail .delta (c.endPrice.sub? c.startPrice)
  orFail .interpolation do
    let x ← delta.mul? (.ofUInt64 elapsed)
    let y ← x.div? (.ofUInt64 duration)
    c.startPrice.add? y

/-- The value at any instant, clamped to the ends of the window. -/
def valueAt (c : PriceCurve) (t : UInt64) : Result Decimal :=
  if t ≤ c.startTime then .ok c.startPrice
  else if c.endTime ≤ t ∨ c.endTime ≤ c.startTime then .ok c.endPrice
  else c.interpolate (t - c.startTime) (c.endTime - c.startTime)

/-- The price at `t`; before its window an order has none. -/
def priceAt (c : PriceCurve) (t : UInt64) : Result (Option Decimal) :=
  if t < c.startTime then .ok none else some <$> c.valueAt t

/-- The share of one of `n` items in a total price. -/
def perItem (c : PriceCurve) (n : UInt32) : Result PriceCurve :=
  if n = 0 then .error (.arithmetic .perItemOfZero)
  else do
    let startPrice ← orFail .perItem (c.startPrice.div? (.ofUInt32 n))
    let endPrice ← orFail .perItem (c.endPrice.div? (.ofUInt32 n))
    return { c with startPrice, endPrice }

/-- Adds the values of one curve at the two ends of a window. -/
def addEnds (startTime endTime : UInt64) (total : Decimal × Decimal) (c : PriceCurve) :
    Result (Decimal × Decimal) := do
  let s ← orFail .curveSum (total.1.add? (← c.valueAt startTime))
  let e ← orFail .curveSum (total.2.add? (← c.valueAt endTime))
  return (s, e)

/-- The latest start and the earliest end. -/
def commonWindow (c : PriceCurve) (cs : List PriceCurve) : UInt64 × UInt64 :=
  cs.foldl (fun w d => (max w.1 d.startTime, min w.2 d.endTime)) (c.startTime, c.endTime)

/-- Several curves as one over their common window, where the sum of linear prices is linear. -/
def sum? : List PriceCurve → Result (Option PriceCurve)
  | [] => .ok none
  | c :: cs =>
    let (startTime, endTime) := commonWindow c cs
    if endTime < startTime then .ok none
    else do
      let (startPrice, endPrice) ←
        (c :: cs).foldlM (addEnds startTime endTime) (Decimal.zero, Decimal.zero)
      return some { startPrice, endPrice, startTime, endTime }

end PriceCurve

end OrderBook
