/-!
What can go wrong while orders are matched, and the wording of each case. A fatal error ends the
whole search; the others only cost the candidate they arose from.
-/

namespace OrderBook

/-- The price computation whose result left the range of numbers. -/
inductive PriceStep where
  | delta
  | interpolation
  | perItemOfZero
  | perItem
  | curveSum
  | spread
  | crossing
  | timestamp
deriving DecidableEq, Repr

namespace PriceStep

def describe : PriceStep → String
  | .delta => "price delta"
  | .interpolation => "price interpolation"
  | .perItemOfZero => "per-item price of zero items"
  | .perItem => "per-item price"
  | .curveSum => "curve sum"
  | .spread => "spread"
  | .crossing => "crossing time"
  | .timestamp => "timestamp conversion"

end PriceStep

/-- A failure of the place that orders are read from. -/
inductive StoreError where
  | backend (text : String)
  | invalidCursor (text : String)
deriving DecidableEq, Repr

namespace StoreError

def message : StoreError → String
  | .backend text => "Backend error: " ++ text
  | .invalidCursor text => "Invalid cursor: " ++ text

end StoreError

inductive MatchError where
  | orderNotFound (id : String)
  | invalidOrder (id reason : String)
  /-- An order received more than it asked for. -/
  | flowExceeded (id : String) (flow expected : Nat)
  | sameSide (a b : String)
  | arithmetic (step : PriceStep)
  /-- Two spreads lie so far apart that their difference is no number; nothing recovers from it. -/
  | spreadsTooFarApart
  | store (e : StoreError)
deriving DecidableEq, Repr

namespace MatchError

def message : MatchError → String
  | .orderNotFound id => "order " ++ id ++ " not found"
  | .invalidOrder id reason => "invalid order " ++ id ++ ": " ++ reason
  | .flowExceeded id flow expected =>
    "flow invariant violated for order " ++ id ++ ": received " ++ toString flow
      ++ ", requested at most " ++ toString expected
  | .sameSide a b => "orders " ++ a ++ " and " ++ b ++ " are on the same side of the book"
  | .arithmetic step => "price arithmetic overflow: " ++ step.describe
  | .spreadsTooFarApart => "Subtraction overflowed"
  | .store e => e.message

def isFatal : MatchError → Bool
  | .flowExceeded .. | .store _ | .spreadsTooFarApart => true
  | .orderNotFound _ | .invalidOrder .. | .sameSide .. | .arithmetic _ => false

end MatchError

abbrev Result (α : Type) := Except MatchError α

/-- Gives up one candidate: an error that is not fatal counts as no result. -/
def Result.forgive {α : Type} : Result (Option α) → Result (Option α)
  | .error e => if e.isFatal then .error e else .ok none
  | .ok x => .ok x

end OrderBook
