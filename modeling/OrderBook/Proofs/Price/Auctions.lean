import OrderBook.Proofs.Price.Instants
import OrderBook.Proofs.Price.Values

/-!
Auctions that run towards each other: a bid that does not fall and an ask that does not rise. Once the
bid has reached the ask they stay that way, so the intersection lasts until a window closes, and what is
charged in it is the bid.
-/

namespace OrderBook

namespace PriceCurve

variable {bid ask : PriceCurve} {t u : UInt64} {b a b' a' : Decimal}

/-- Curves that run towards each other do not part again. -/
theorem le_of_reached (hbid : bid.startPrice ≤ bid.endPrice) (hask : ask.endPrice ≤ ask.startPrice)
    (ht : t ≤ u) (hb : bid.valueAt t = .ok b) (ha : ask.valueAt t = .ok a)
    (hb' : bid.valueAt u = .ok b') (ha' : ask.valueAt u = .ok a') (h : a ≤ b) : a' ≤ b' := by
  have hrises := (valueAt_before ht hb hb').1 hbid
  have hfalls := (valueAt_before ht ha ha').2 hask
  rw [Decimal.le_iff_value] at *
  linarith

theorem validInterval?_until (hbid : bid.startPrice ≤ bid.endPrice)
    (hask : ask.endPrice ≤ ask.startPrice) {first last : UInt64}
    (h : validInterval? bid ask = .ok (some (first, last))) :
    last = min bid.endTime ask.endTime := by
  obtain ⟨hspan, d0, d1, hd0, hd1, hfound⟩ := validInterval?_eq_some h
  cases hfound with
  | always h0 h1 => rfl
  | rises h0 h1 hfirst => rfl
  | falls h0 h1 hlast =>
    obtain ⟨b, a, hb, ha, hsign⟩ := spread_eq_ok hd0
    obtain ⟨b', a', hb', ha', hsign'⟩ := spread_eq_ok hd1
    have hreached := le_of_reached hbid hask hspan hb ha hb' ha' (hsign.1 h0)
    exact absurd h1 (Decimal.not_lt.2 (hsign'.2 hreached))

/-- Where a bid that does not fall meets an ask that does not rise, the intersection lasts until the
first of their windows closes; in all of it the bid is at least the ask and is the price. -/
theorem priceAt_eq_bid (hbid : bid.startPrice ≤ bid.endPrice) (hask : ask.endPrice ≤ ask.startPrice)
    {x : PriceIntersection} (h : intersect bid ask = .ok (some x)) :
    x.validUntil = min bid.endTime ask.endTime ∧
      ∀ t b a, x.validFrom ≤ t → t ≤ x.validUntil → bid.valueAt t = .ok b → ask.valueAt t = .ok a →
        a ≤ b ∧ x.priceAt t = .ok (some b) := by
  obtain ⟨hwindow, hxbid, hxask, -⟩ := intersect_eq_some h
  refine ⟨validInterval?_until hbid hask hwindow, fun t b a hfrom huntil hb ha => ?_⟩
  obtain ⟨b', a', hb', ha', hreached⟩ := reaches_first hwindow
  have hle := le_of_reached hbid hask hfrom hb' ha' hb ha hreached
  have hopen : ¬ (t < x.validFrom ∨ x.validUntil < t) :=
    not_or.2 ⟨UInt64.not_lt.2 hfrom, UInt64.not_lt.2 huntil⟩
  have hmax : max b a = b := if_neg (Decimal.not_lt.2 hle)
  refine ⟨hle, ?_⟩
  simp only [PriceIntersection.priceAt, if_neg hopen, hxbid, hxask, hb, ha]
  exact congrArg (fun p => Except.ok (some p)) hmax

theorem priceAt_eq_bid_risingByThirds :
    ∃ x, intersect risingByThirds ⟨.ofUInt32 2, .ofUInt32 1, 0, 3⟩ = .ok (some x) ∧
      x.validFrom = 2 ∧ x.validUntil = 3 ∧
      ∃ b, risingByThirds.valueAt 2 = .ok b ∧ x.priceAt 2 = .ok (some b) := by
  let falling : PriceCurve := ⟨.ofUInt32 2, .ofUInt32 1, 0, 3⟩
  let b : Decimal := ⟨false, 16666666666666666666666666667, 28, by decide, by decide⟩
  let a : Decimal := ⟨false, 13333333333333333333333333333, 28, by decide, by decide⟩
  have hfound : intersect risingByThirds falling = .ok (some ⟨risingByThirds, falling, 2, 3, b⟩) := by
    decide +kernel
  have hb : risingByThirds.valueAt 2 = .ok b := by decide +kernel
  have ha : falling.valueAt 2 = .ok a := by decide +kernel
  obtain ⟨huntil, hprice⟩ := priceAt_eq_bid (by decide +kernel) (by decide +kernel) hfound
  obtain ⟨-, hprice⟩ := hprice 2 b a (by decide) (by decide) hb ha
  exact ⟨_, hfound, rfl, huntil, b, hb, hprice⟩

end PriceCurve

end OrderBook
