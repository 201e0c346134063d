import OrderBook.Order.Intersection
import OrderBook.Query.Basic
import OrderBook.Text.Quoted

/-!
Compatibility policies between an item and a candidate item. A policy checks a candidate, and where a
store can do part of that work, it also narrows the query for candidates.
-/

namespace OrderBook

inductive Policy where
  | chain
  | side
  | status
  | collection
  | token
  | traits
  | complication
  | currency
  | timeWindow
  | price
deriving DecidableEq, Repr

/-- Why a candidate does not go together with an item. -/
inductive Mismatch where
  | chain (candidate item : UInt64)
  | sameSide (candidate : Side)
  | notActive (candidate : OrderStatus)
  | collection (candidate item : String)
  | token (candidate item : String)
  | noToken
  | missingTrait (filter : TraitFilter)
  | complication (candidate item : String)
  | currency (candidate item : String)
  | window (candidate item : PriceCurve)
  | noIntersection
  | priceFailed (e : MatchError)

namespace Side

def label : Side → String
  | .buy => "Buy"
  | .sell => "Sell"

end Side

namespace OrderStatus

def label : OrderStatus → String
  | .active => "Active"
  | .inactive => "Inactive"
  | .expired => "Expired"
  | .filled => "Filled"
  | .cancelled => "Cancelled"

end OrderStatus

namespace Mismatch

/-- The window of a curve in brackets. -/
def windowText (c : PriceCurve) : String :=
  "[" ++ toString c.startTime.toNat ++ ", " ++ toString c.endTime.toNat ++ "]"

def reason : Mismatch → String
  | .chain candidate item => "chain " ++ toString candidate.toNat ++ " != " ++ toString item.toNat
  | .sameSide candidate => "candidate is on the " ++ candidate.label ++ " side as well"
  | .notActive candidate => "candidate is " ++ candidate.label
  | .collection candidate item => "collection " ++ candidate ++ " != " ++ item
  | .token candidate item => "token " ++ candidate ++ " != " ++ item
  | .noToken => "neither item pins a token"
  | .missingTrait f => "token lacks " ++ f.traitType ++ " in " ++ Text.quoteList f.values
  | .complication candidate item => "complication " ++ candidate ++ " != " ++ item
  | .currency candidate item => "currency " ++ candidate ++ " != " ++ item
  | .window candidate item => "window " ++ windowText candidate ++ " misses " ++ windowText item
  | .noIntersection => "price curves never intersect"
  | .priceFailed e => e.message

end Mismatch

namespace Policy

def name : Policy → String
  | .chain => "chain"
  | .side => "side"
  | .status => "status"
  | .collection => "collection"
  | .token => "token"
  | .traits => "traits"
  | .complication => "complication"
  | .currency => "currency"
  | .timeWindow => "time window"
  | .price => "price"

def all : List Policy :=
  [.chain, .side, .status, .collection, .token, .traits, .complication, .currency, .timeWindow,
    .price]

def ofName? (s : String) : Option Policy := all.find? fun p => p.name == s

/-- How much a policy narrows the candidates, as an estimate. -/
def score : Policy → Nat
  | .token => 2
  | .collection | .traits | .price => 1
  | .chain | .side | .status | .complication | .currency | .timeWindow => 0

def windowsOverlap (a b : OrderItem) : Bool := a.startTime ≤ b.endTime && b.startTime ≤ a.endTime

/-- Where both items pin a token it is the same, and at least one of them pins one. -/
def tokenMismatch? (item candidate : OrderItem) : Option Mismatch :=
  match item.tokenId, candidate.tokenId with
  | some a, some b => if a = b then none else some (.token b a)
  | none, none => some .noToken
  | _, _ => none

/-- The first filter of the item that the candidate's token does not pass. -/
def traitMismatch? (item candidate : OrderItem) : Option Mismatch :=
  if candidate.pinsToken then
    (item.traitFilters.find? fun f => !f.accepts candidate.tokenAttributes).map .missingTrait
  else none

/-- Whether the unit prices ever meet. An error in the prices is a reason like any other, unless it
is fatal. -/
def priceMismatch? (item candidate : OrderItem) : Result (Option Mismatch) :=
  match item.intersection candidate with
  | .ok (some _) => .ok none
  | .ok none => .ok (some .noIntersection)
  | .error e => if e.isFatal then .error e else .ok (some (.priceFailed e))

def require (condition : Bool) (m : Mismatch) : Option Mismatch := if condition then none else some m

/-- Checks `candidate` against `item`; only the price check can fail. -/
def check (p : Policy) (item candidate : OrderItem) : Result (Option Mismatch) :=
  match p with
  | .chain =>
    .ok (require (item.chainId == candidate.chainId) (.chain candidate.chainId item.chainId))
  | .side => .ok (require (candidate.side == item.side.opposite) (.sameSide candidate.side))
  | .status => .ok (require (candidate.status == .active) (.notActive candidate.status))
  | .collection =>
    .ok (require (sameAddress item.collection candidate.collection)
      (.collection candidate.collection item.collection))
  | .token => .ok (tokenMismatch? item candidate)
  | .traits => .ok (traitMismatch? item candidate)
  | .complication =>
    .ok (require (item.complication == candidate.complication)
      (.complication candidate.complication item.complication))
  | .currency =>
    .ok (require (item.currency == candidate.currency) (.currency candidate.currency item.currency))
  | .timeWindow =>
    .ok (require (windowsOverlap item candidate) (.window candidate.price item.price))
  | .price => priceMismatch? item candidate

/-- The filter for candidates of `item` that a store can evaluate. -/
def filter? (p : Policy) (item : OrderItem) : Option QueryFilter :=
  match p with
  | .chain => some (.chainId item.chainId)
  | .side => some (.side item.side.opposite)
  | .status => some (.status .active)
  | .collection => some (.collection item.collection)
  | .token => item.tokenId.map .tokenIdOrAny
  | .complication => some (.complication item.complication)
  | .currency => some (.currency item.currency)
  | .timeWindow => some (.endTimeAtLeast item.startTime)
  | .traits | .price => none

def narrow (p : Policy) (item : OrderItem) (q : CandidateQuery) : CandidateQuery :=
  match p.filter? item with
  | some f => q.filter f
  | none => q

/-- The keys by which a policy wants candidates sorted: the oldest first. -/
def sortKeys : Policy → List SortKey
  | .timeWindow => [.startTime]
  | _ => []

end Policy

end OrderBook
