import OrderBook.Order.Basic

/-!
Queries for candidate items: filters that all have to hold, an order, a limit, and a position after
which results start. Items are ordered by the values of the sort keys and then by item id, so every
item of a book has a position of its own.
-/

namespace OrderBook

/-- Texts that differ only in the case of ASCII letters count as one address. -/
def sameAddress (a b : String) : Bool := a.toList.map Char.toLower == b.toList.map Char.toLower

inductive QueryFilter where
  | chainId (n : UInt64)
  | side (s : Side)
  | status (s : OrderStatus)
  | collection (address : String)
  /-- Items that pin this token, and items that pin none. -/
  | tokenIdOrAny (token : String)
  | complication (address : String)
  | currency (address : String)
  | endTimeAtLeast (t : UInt64)
deriving DecidableEq

namespace QueryFilter

def matchesItem (f : QueryFilter) (i : OrderItem) : Bool :=
  match f with
  | .chainId n => i.chainId == n
  | .side s => i.side == s
  | .status s => i.status == s
  | .collection address => sameAddress i.collection address
  | .tokenIdOrAny token => i.tokenId.all (· == token)
  | .complication address => i.complication == address
  | .currency address => i.currency == address
  | .endTimeAtLeast t => t ≤ i.endTime

end QueryFilter

inductive SortKey where
  | startTime
  | itemId
deriving DecidableEq

inductive SortValue where
  | time (t : UInt64)
  | id (s : String)
deriving DecidableEq

namespace SortValue

/-- Every time lies below every id. -/
def order : SortValue → SortValue → Ordering
  | .time a, .time b => compare a b
  | .time _, .id _ => .lt
  | .id _, .time _ => .gt
  | .id a, .id b => compare a b

instance : Ord SortValue := ⟨order⟩

end SortValue

def SortKey.value (k : SortKey) (i : OrderItem) : SortValue :=
  match k with
  | .startTime => .time i.startTime
  | .itemId => .id i.id

/-- A position in a result: the sort values of an item and its id. -/
structure Cursor where
  values : List SortValue
  itemId : String
deriving DecidableEq

namespace Cursor

instance : Ord Cursor := ⟨fun a b => (compare a.values b.values).then (compare a.itemId b.itemId)⟩

/-- The position of an item under some sort keys. -/
def ofItem (keys : List SortKey) (i : OrderItem) : Cursor := ⟨keys.map (·.value i), i.id⟩

end Cursor

structure CandidateQuery where
  filters : List QueryFilter := []
  orderBy : List SortKey := []
  /-- The longest page; zero is no limit. -/
  limit : Nat := 0
  startAfter : Option Cursor := none
deriving DecidableEq

namespace CandidateQuery

/-- Adds a filter that is not there yet. -/
def filter (q : CandidateQuery) (f : QueryFilter) : CandidateQuery :=
  if f ∈ q.filters then q else { q with filters := q.filters ++ [f] }

/-- Adds a sort key that is not there yet. -/
def sortedBy (q : CandidateQuery) (k : SortKey) : CandidateQuery :=
  if k ∈ q.orderBy then q else { q with orderBy := q.orderBy ++ [k] }

def withLimit (q : CandidateQuery) (n : Nat) : CandidateQuery := { q with limit := n }

def after (q : CandidateQuery) (c : Cursor) : CandidateQuery := { q with startAfter := some c }

def position (q : CandidateQuery) (i : OrderItem) : Cursor := .ofItem q.orderBy i

def matchesItem (q : CandidateQuery) (i : OrderItem) : Bool := q.filters.all (·.matchesItem i)

/-- Whether an item lies behind the start of the result. -/
def isAfterCursor (q : CandidateQuery) (i : OrderItem) : Bool :=
  q.startAfter.all fun c => (compare c (q.position i)).isLT

def selects (q : CandidateQuery) (i : OrderItem) : Bool := q.matchesItem i && q.isAfterCursor i

/-- Everything the query selects, in its order. -/
def results (q : CandidateQuery) (items : List OrderItem) : List OrderItem :=
  (items.filter q.selects).mergeSort fun a b => (compare (q.position a) (q.position b)).isLE

/-- The first page of the results. -/
def apply (q : CandidateQuery) (items : List OrderItem) : List OrderItem :=
  if q.limit = 0 then q.results items else (q.results items).take q.limit

end CandidateQuery

end OrderBook
