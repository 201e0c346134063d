import OrderBook.Error
import OrderBook.Query.Basic

/-!
Where orders are read from: single orders, the items of an order, and pages of candidate items. A walk
follows a query page by page, each page starting after the last item of the page before.
-/

namespace OrderBook

structure OrderSource where
  order? : String → Except StoreError (Option Order)
  items : String → Except StoreError (List OrderItem)
  page : CandidateQuery → Except StoreError (List OrderItem)
  /-- No walk needs more pages than this. -/
  pageBound : Nat

namespace OrderSource

/-- An order with its items. -/
def resolve? (s : OrderSource) (id : String) : Except StoreError (Option ResolvedOrder) := do
  let some order ← s.order? id | return none
  return some ⟨order, ← s.items id⟩

/-- What a walk has seen: items in order, the number of pages read, and the failure that ended it. -/
structure Walk where
  items : List OrderItem
  reads : Nat
  failure : Option StoreError := none

/-- Follows a query for at most `pages` pages. A page shorter than the page size is the last one, and
so is any page when there is no page size. -/
def walkPages (s : OrderSource) (pageSize : Nat) : Nat → CandidateQuery → Walk
  | 0, _ => ⟨[], 0, none⟩
  | pages + 1, q =>
    match s.page q with
    | .error e => ⟨[], 0, some e⟩
    | .ok page =>
      match page.getLast? with
      | none => ⟨[], 1, none⟩
      | some last =>
        if pageSize = 0 || page.length < pageSize then ⟨page, 1, none⟩
        else
          let rest := s.walkPages pageSize pages (q.after (q.position last))
          ⟨page ++ rest.items, rest.reads + 1, rest.failure⟩

/-- All items of a query, read in pages of `pageSize` items. -/
def walk (s : OrderSource) (q : CandidateQuery) (pageSize : Nat) : Walk :=
  s.walkPages pageSize s.pageBound (q.withLimit pageSize)

end OrderSource

end OrderBook
