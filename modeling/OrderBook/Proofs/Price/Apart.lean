import OrderBook.Order.Intersection
import OrderBook.Proofs.Decimal.Signed

/-!
Prices that lie too far apart. Every step of computing with prices that leaves the range of numbers is
an error of its own kind, except for one: the difference of the spreads at the two ends of a window,
one of which is negative. Where it is no number, two curves cannot be intersected at all.
-/

namespace OrderBook

def Decimal.greatest : Decimal := ⟨false, mantissaLimit - 1, 0, by decide, scale_zero_le⟩

namespace PriceCurve

/-- The spreads at the ends of the common window are on both sides of zero, and their difference is no
number. -/
def SpreadsApart (bid ask : PriceCurve) : Prop :=
  let start := max bid.startTime ask.startTime
  let stop := min bid.endTime ask.endTime
  start ≤ stop ∧ ∃ d0 d1, spread bid ask start = .ok d0 ∧ spread bid ask stop = .ok d1 ∧
    d0.Opposite d1 ∧ d0.sub? d1 = none

/-- The curves of two sides, when one of them is a bid and the other an ask. -/
def ApartOn (s t : Side) (p q : PriceCurve) : Prop :=
  match s, t with
  | .buy, .sell => SpreadsApart p q
  | .sell, .buy => SpreadsApart q p
  | _, _ => False

theorem ApartOn.symm {s t : Side} {p q : PriceCurve} (h : ApartOn s t p q) : ApartOn t s q p := by
  cases s <;> cases t <;> exact h

theorem crossing_eq_apart {start stop : UInt64} {d0 d1 : Decimal} (h : d0.sub? d1 = none) :
    crossing start stop d0 d1 = .error .spreadsTooFarApart := by
  rw [crossing, h]

theorem intersect_eq_apart {bid ask : PriceCurve} (h : SpreadsApart bid ask) :
    intersect bid ask = .error .spreadsTooFarApart := by
  obtain ⟨hspan, d0, d1, hd0, hd1, hopposite, hsub⟩ := h
  have hinterval : validInterval? bid ask = .error .spreadsTooFarApart := by
    rw [validInterval?]
    simp only [UInt64.not_lt.2 hspan, if_false, hd0, hd1]
    obtain ⟨hfirst, hlast⟩ | ⟨hfirst, hlast⟩ := hopposite
    · have hlast := Decimal.not_le.2 hlast
      simp [bind, Except.bind, hfirst, hlast, lastValid, crossing_eq_apart hsub]
    · have hfirst := Decimal.not_le.2 hfirst
      simp [bind, Except.bind, hfirst, hlast, firstValid?, crossing_eq_apart hsub]
  rw [intersect, hinterval]
  rfl

def ramp (first last : Decimal) : PriceCurve := ⟨first, last, 0, 1⟩

theorem spreadsApart_ramp : SpreadsApart (ramp .greatest .zero) (ramp .zero .greatest) :=
  ⟨by decide, _, _, rfl, rfl, .inl ⟨by decide +kernel, by decide +kernel⟩, by decide +kernel⟩

end PriceCurve

def Order.Apart (a b : Order) : Prop := PriceCurve.ApartOn a.side b.side a.price b.price

def OrderItem.Apart (a b : OrderItem) : Prop :=
  ∃ p q, a.unitPrice = .ok p ∧ b.unitPrice = .ok q ∧ PriceCurve.ApartOn a.side b.side p q

theorem OrderItem.Apart.symm {a b : OrderItem} (h : a.Apart b) : b.Apart a := by
  obtain ⟨p, q, hp, hq, h⟩ := h
  exact ⟨q, p, hq, hp, h.symm⟩

/-- A bid for some tokens together, whose price falls from the greatest number to zero. -/
def steepBid (tokens : List String) : ResolvedOrder :=
  let o : Order :=
    { id := "bid", side := .buy, numItems := .ofNat tokens.length, price := .ramp .greatest .zero }
  ⟨o, tokens.map fun token => (o.item ("bid-" ++ token) "c").withToken token⟩

def askFor (id token : String) (price : PriceCurve) (collection : String := "c") : ResolvedOrder :=
  let o : Order := { id := id, side := .sell, numItems := 1, price := price }
  ⟨o, [(o.item (id ++ "-" ++ token) collection).withToken token]⟩

end OrderBook
