import OrderBook.Order.Basic
import OrderBook.Text.Digits

/-!
Whether the items of an order agree with the order: all belong to it, and if every item pins its
token, they add up to exactly the number of tokens asked for.
-/

namespace OrderBook

/-- Why items do not agree with their order. -/
inductive OrderFault where
  | zeroItems
  | foreignItem (itemId orderId : String)
  | contributionOverflow
  | contributionMismatch (requested contributed : UInt32)
deriving DecidableEq, Repr

namespace OrderFault

def reason : OrderFault → String
  | .zeroItems => "order requests zero items"
  | .foreignItem itemId orderId => "item " ++ itemId ++ " belongs to order " ++ orderId
  | .contributionOverflow => "token contributions overflow"
  | .contributionMismatch requested contributed =>
    "requests " ++ toString requested.toNat ++ " items but its tokens contribute "
      ++ toString contributed.toNat

end OrderFault

/-- The sum of two counts if it is a count again. -/
def addCounts? (a b : UInt32) : Option UInt32 :=
  if a.toNat + b.toNat < UInt32.size then some (a + b) else none

theorem addCounts?_eq_some {a b c : UInt32} :
    addCounts? a b = some c ↔ a.toNat + b.toNat = c.toNat := by
  unfold addCounts?
  split
  · rename_i h
    constructor
    · intro e
      cases e
      rw [UInt32.toNat_add]
      exact (Nat.mod_eq_of_lt h).symm
    · intro e
      exact congrArg some (UInt32.toNat_inj.1 (by simp [UInt32.toNat_add, e]))
  · rename_i h
    have hc : c.toNat < UInt32.size := c.toNat_lt
    exact ⟨fun e => by simp at e, fun e => absurd (e ▸ hc) h⟩

/-- The contributions of all items together. -/
def contribution? (items : List OrderItem) : Option UInt32 :=
  items.foldlM (fun acc i => addCounts? acc i.maxContribution) 0

/-- Whether every item pins its token; without items nothing is specified. -/
def isFullySpecified (items : List OrderItem) : Bool :=
  !items.isEmpty && items.all OrderItem.pinsToken

namespace Order

/-- The first thing wrong with the items of an order. -/
def fault? (o : Order) (items : List OrderItem) : Option OrderFault :=
  if o.numItems = 0 then some .zeroItems
  else
    match items.find? fun i => i.orderId != o.id with
    | some i => some (.foreignItem i.id i.orderId)
    | none =>
      if isFullySpecified items then
        match contribution? items with
        | none => some .contributionOverflow
        | some c => if c = o.numItems then none else some (.contributionMismatch o.numItems c)
      else none

def validate (o : Order) (items : List OrderItem) : Result Unit :=
  match o.fault? items with
  | some f => .error (.invalidOrder o.id f.reason)
  | none => .ok ()

end Order

namespace ResolvedOrder

def isFullySpecified (r : ResolvedOrder) : Bool := OrderBook.isFullySpecified r.items

/-- Whether several opposing orders may fill this one together: it asks for more than one token and
pins exactly those. -/
def isEligibleRoot (r : ResolvedOrder) : Bool :=
  1 < r.order.numItems && r.isFullySpecified && (r.order.fault? r.items).isNone

end ResolvedOrder

end OrderBook
