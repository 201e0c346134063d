import OrderBook.Order.Intersection
import OrderBook.Proofs.Decimal.Defined
import OrderBook.Proofs.Price.Values

/-!
Prices that do not change over time. All values of a flat curve are the same number, and so are those of
its unit prices, since both ends are divided and rounded alike. So flat prices meet over their whole
common window or nowhere, as their rounded unit prices say, and these keep the order of the exact ones.
-/

namespace OrderBook

open Decimal (Rounds)

structure PriceIntersection.Constant (x : PriceIntersection) (first last : UInt64) (p : Decimal) :
    Prop where
  validFrom : x.validFrom = first
  validUntil : x.validUntil = last
  price : x.price.SameValue p
  priceAt : ∀ t, first ≤ t → t ≤ last → ∃ q, x.priceAt t = .ok (some q) ∧ q.SameValue p

namespace PriceCurve

variable {c bid ask : PriceCurve} {t : UInt64}

/-- The unit price `u` of a flat total `c` for `n` tokens: flat as well, and rounded once. -/
structure IsUnitOf (u c : PriceCurve) (n : UInt32) : Prop where
  perItem : c.perItem n = .ok u
  quotient : c.startPrice.div? (.ofUInt32 n) = some u.startPrice
  rounds : Rounds (c.startPrice.value / n.toNat) u.startPrice
  nonneg : .zero ≤ u.startPrice
  flat : u.isAuction = false
  startTime : u.startTime = c.startTime
  endTime : u.endTime = c.endTime

theorem isAuction_eq_false : c.isAuction = false ↔ c.startPrice.value = c.endPrice.value := by
  rw [← Decimal.sameValue_iff_value]
  simp [isAuction]

section

variable (hflat : c.isAuction = false) (hpositive : .zero ≤ c.startPrice)

include hflat hpositive

theorem exists_interpolate_flat {e n : UInt64} (hn : n ≠ 0) : ∃ p, c.interpolate e n = .ok p := by
  have hends := isAuction_eq_false.1 hflat
  have hpositive' : .zero ≤ c.endPrice := by
    rw [Decimal.le_iff_value] at hpositive ⊢
    rwa [← hends]
  obtain ⟨delta, hdelta⟩ := Decimal.exists_sub?_nonneg hpositive' hpositive
  have hnothing : delta.isZero = true := by
    have hrounds := Decimal.rounds_sub? hdelta
    rw [hends, sub_self] at hrounds
    refine Decimal.isZero_of_value_eq (hrounds.value_unique (e := .zero) ?_)
    exact Decimal.rounds_of_value_eq Decimal.value_zero
  have hshare : share? delta e n = some .zero := by
    have hproduct : delta.mul? (.ofUInt64 e) = some .zero := by
      rw [Decimal.mul?, hnothing]
      rfl
    have hquotient : Decimal.zero.div? (.ofUInt64 n) = some .zero := by
      rw [Decimal.div?, Decimal.isZero_ofUInt64 hn]
      rfl
    rw [share?, hproduct]
    exact hquotient
  have hsum : ∃ p, c.startPrice.add? .zero = some p := by
    rw [Decimal.add?]
    split
    · exact ⟨_, rfl⟩
    · exact ⟨_, rfl⟩
  obtain ⟨p, hp⟩ := hsum
  exact ⟨p, interpolate_eq_ok.2 ⟨delta, .zero, hdelta, hshare, hp⟩⟩

theorem exists_valueAt_flat (t : UInt64) : ∃ p, c.valueAt t = .ok p ∧ p.value = c.startPrice.value := by
  have hexists : ∃ p, c.valueAt t = .ok p := by
    rw [valueAt]
    split
    · exact ⟨_, rfl⟩
    · rename_i hstart
      split
      · exact ⟨_, rfl⟩
      · rename_i hend
        have helapsed := elapsed_lt (UInt64.not_le.1 hstart) (UInt64.not_le.1 (not_or.1 hend).1)
        refine exists_interpolate_flat hflat hpositive fun hzero => ?_
        rw [hzero] at helapsed
        exact UInt64.not_lt_zero helapsed
  obtain ⟨p, hp⟩ := hexists
  have hends := isAuction_eq_false.1 hflat
  obtain ⟨⟨hrises, hfalls⟩, -⟩ := valueAt_between hp
  simp only [Decimal.le_iff_value, hends] at hrises hfalls
  exact ⟨p, hp, hends ▸ le_antisymm (hfalls le_rfl) (hrises le_rfl)⟩

theorem exists_isUnitOf {n : UInt32} (hn : n ≠ 0) : ∃ u, IsUnitOf u c n := by
  have hcount := Decimal.isZero_ofUInt32 hn
  obtain ⟨p, hp⟩ := Decimal.exists_div?_whole (a := c.startPrice) hcount rfl
  obtain ⟨q, hq⟩ := Decimal.exists_div?_whole (a := c.endPrice) hcount rfl
  have hstart := Decimal.rounds_div? hp
  have hend := Decimal.rounds_div? hq
  rw [Decimal.value_ofUInt32] at hstart hend
  rw [← isAuction_eq_false.1 hflat] at hend
  have hperItem : c.perItem n = .ok { c with startPrice := p, endPrice := q } := by
    rw [perItem, if_neg hn, hp, hq]
    rfl
  have htotal : 0 ≤ c.startPrice.value := by rwa [← Decimal.value_zero, ← Decimal.le_iff_value]
  have hnonneg : .zero ≤ p := by
    rw [Decimal.le_iff_value, Decimal.value_zero]
    exact hstart.nonneg (div_nonneg htotal (Nat.cast_nonneg _))
  have hends : p.value = q.value := hstart.value_unique hend
  exact ⟨_, hperItem, hp, hstart, hnonneg, isAuction_eq_false.2 hends, rfl, rfl⟩

end

section

variable (hbid : bid.isAuction = false) (hask : ask.isAuction = false)
  (hbidPrice : .zero ≤ bid.startPrice) (haskPrice : .zero ≤ ask.startPrice)

include hbid hask hbidPrice haskPrice

theorem exists_spread_flat (t : UInt64) :
    ∃ d, spread bid ask t = .ok d ∧ (.zero ≤ d ↔ ask.startPrice ≤ bid.startPrice) := by
  obtain ⟨b, hb, hbvalue⟩ := exists_valueAt_flat hbid hbidPrice t
  obtain ⟨a, ha, havalue⟩ := exists_valueAt_flat hask haskPrice t
  have hbpositive : .zero ≤ b := by rwa [Decimal.le_iff_value, hbvalue, ← Decimal.le_iff_value]
  have hapositive : .zero ≤ a := by rwa [Decimal.le_iff_value, havalue, ← Decimal.le_iff_value]
  obtain ⟨d, hd⟩ := Decimal.exists_sub?_nonneg hbpositive hapositive
  refine ⟨d, ?_, ?_⟩
  · rw [spread, hb, ha]
    exact orFail_eq_ok.2 hd
  · rw [Decimal.zero_le_sub?_iff hd, Decimal.le_iff_value, Decimal.le_iff_value, hbvalue, havalue]

theorem exists_max_flat (h : ask.startPrice ≤ bid.startPrice) (t : UInt64) :
    ∃ b a, bid.valueAt t = .ok b ∧ ask.valueAt t = .ok a ∧ (max b a).SameValue bid.startPrice := by
  obtain ⟨b, hb, hbvalue⟩ := exists_valueAt_flat hbid hbidPrice t
  obtain ⟨a, ha, havalue⟩ := exists_valueAt_flat hask haskPrice t
  rw [Decimal.le_iff_value, ← hbvalue, ← havalue, ← Decimal.le_iff_value] at h
  have hmax : max b a = b := if_neg (Decimal.not_lt.2 h)
  exact ⟨b, a, hb, ha, by rw [hmax, Decimal.sameValue_iff_value, hbvalue]⟩

variable (hoverlap : max bid.startTime ask.startTime ≤ min bid.endTime ask.endTime)

include hoverlap

/-- The spread of flat curves has one sign, so they meet over the whole common window or nowhere. -/
theorem validInterval?_flat : validInterval? bid ask = .ok
    (if ask.startPrice ≤ bid.startPrice then
      some (max bid.startTime ask.startTime, min bid.endTime ask.endTime)
    else none) := by
  obtain ⟨d0, hd0, h0⟩ :=
    exists_spread_flat hbid hask hbidPrice haskPrice (max bid.startTime ask.startTime)
  obtain ⟨d1, hd1, h1⟩ :=
    exists_spread_flat hbid hask hbidPrice haskPrice (min bid.endTime ask.endTime)
  simp only [validInterval?, if_neg (UInt64.not_lt.2 hoverlap), hd0, hd1]
  by_cases hfair : ask.startPrice ≤ bid.startPrice
  · rw [if_pos hfair]
    show (if .zero ≤ d0 then if .zero ≤ d1 then _ else _ else _) = _
    rw [if_pos (h0.2 hfair), if_pos (h1.2 hfair)]
    rfl
  · rw [if_neg hfair]
    show (if .zero ≤ d0 then _ else if .zero ≤ d1 then _ else _) = _
    rw [if_neg (h0.not.2 hfair), if_neg (h1.not.2 hfair)]
    rfl

theorem intersect_flat_of_lt (h : bid.startPrice < ask.startPrice) : intersect bid ask = .ok none := by
  rw [intersect, validInterval?_flat hbid hask hbidPrice haskPrice hoverlap,
    if_neg (Decimal.not_le.2 h)]
  rfl

theorem exists_intersect_flat (h : ask.startPrice ≤ bid.startPrice) :
    ∃ x, intersect bid ask = .ok (some x) ∧
      x.Constant (max bid.startTime ask.startTime) (min bid.endTime ask.endTime) bid.startPrice := by
  have hwindow := validInterval?_flat hbid hask hbidPrice haskPrice hoverlap
  rw [if_pos h] at hwindow
  obtain ⟨b, a, hb, ha, hprice⟩ :=
    exists_max_flat hbid hask hbidPrice haskPrice h (max bid.startTime ask.startTime)
  refine ⟨⟨bid, ask, max bid.startTime ask.startTime, min bid.endTime ask.endTime, max b a⟩,
    bind_eq_ok.2 ⟨_, hwindow, bind_eq_ok.2 ⟨b, hb, bind_eq_ok.2 ⟨a, ha, rfl⟩⟩⟩,
    rfl, rfl, hprice, fun t hfrom huntil => ?_⟩
  obtain ⟨p, q, hp, hq, hvalue⟩ := exists_max_flat hbid hask hbidPrice haskPrice h t
  refine ⟨max p q, ?_, hvalue⟩
  rw [PriceIntersection.priceAt,
    if_neg (not_or.2 ⟨UInt64.not_lt.2 hfrom, UInt64.not_lt.2 huntil⟩)]
  exact bind_eq_ok.2 ⟨p, hp, bind_eq_ok.2 ⟨q, hq, rfl⟩⟩

theorem intersect_flat_eq_none_iff :
    intersect bid ask = .ok none ↔ bid.startPrice < ask.startPrice := by
  refine ⟨fun h => Decimal.not_le.1 fun hle => ?_,
    intersect_flat_of_lt hbid hask hbidPrice haskPrice hoverlap⟩
  obtain ⟨x, hx, -⟩ := exists_intersect_flat hbid hask hbidPrice haskPrice hoverlap hle
  cases h.symm.trans hx

end

end PriceCurve

namespace OrderItem

/-- Flat totals `B` for `n` tokens and `A` for `m` tokens are compared by `B / n` and `A / m`, each
rounded once. Where the bid offers at least as much for a token, the items meet over their whole common
window, at the rounded unit price of the bid; they do not meet exactly if the rounded unit price of the
bid is the lower one. -/
theorem flat_totals_meet (bid ask : OrderItem) (hbuy : bid.side = .buy) (hsell : ask.side = .sell)
    (hbid : bid.price.isAuction = false) (hask : ask.price.isAuction = false)
    (hbidPrice : .zero ≤ bid.price.startPrice) (haskPrice : .zero ≤ ask.price.startPrice)
    (hbidItems : bid.numItems ≠ 0) (haskItems : ask.numItems ≠ 0)
    (hoverlap : max bid.startTime ask.startTime ≤ min bid.endTime ask.endTime) :
    ∃ b a : Decimal,
      bid.price.startPrice.div? (.ofUInt32 bid.numItems) = some b ∧
      ask.price.startPrice.div? (.ofUInt32 ask.numItems) = some a ∧
      Rounds (bid.price.startPrice.value / bid.numItems.toNat) b ∧
      Rounds (ask.price.startPrice.value / ask.numItems.toNat) a ∧
      (ask.price.startPrice.value / ask.numItems.toNat ≤
        bid.price.startPrice.value / bid.numItems.toNat → a ≤ b) ∧
      (a ≤ b → ∃ x, bid.intersection ask = .ok (some x) ∧ ask.intersection bid = .ok (some x) ∧
        x.Constant (max bid.startTime ask.startTime) (min bid.endTime ask.endTime) b) ∧
      (bid.intersection ask = .ok none ↔ b < a) ∧ (ask.intersection bid = .ok none ↔ b < a) := by
  obtain ⟨b, hb⟩ := PriceCurve.exists_isUnitOf hbid hbidPrice hbidItems
  obtain ⟨a, ha⟩ := PriceCurve.exists_isUnitOf hask haskPrice haskItems
  have hunits : intersectUnits bid ask = PriceCurve.intersect b a := by
    rw [intersectUnits, unitPrice, unitPrice, hb.perItem, ha.perItem]
    rfl
  have hforward : bid.intersection ask = PriceCurve.intersect b a := by
    rw [intersection, hbuy, hsell, hunits]
  have hbackward : ask.intersection bid = PriceCurve.intersect b a := by
    rw [intersection, hbuy, hsell, hunits]
  have hstart : max b.startTime a.startTime = max bid.startTime ask.startTime := by
    rw [hb.startTime, ha.startTime]
    rfl
  have hend : min b.endTime a.endTime = min bid.endTime ask.endTime := by
    rw [hb.endTime, ha.endTime]
    rfl
  have hspan : max b.startTime a.startTime ≤ min b.endTime a.endTime := by rwa [hstart, hend]
  have hnone := PriceCurve.intersect_flat_eq_none_iff hb.flat ha.flat hb.nonneg ha.nonneg hspan
  rw [hforward, hbackward]
  refine ⟨b.startPrice, a.startPrice, hb.quotient, ha.quotient, hb.rounds, ha.rounds, fun hfair => ?_,
    fun hle => ?_, hnone, hnone⟩
  · exact Decimal.le_iff_value.2 (ha.rounds.mono hb.rounds hfair)
  · obtain ⟨x, hx, hconstant⟩ :=
      PriceCurve.exists_intersect_flat hb.flat ha.flat hb.nonneg ha.nonneg hspan hle
    rw [hstart, hend] at hconstant
    exact ⟨x, hx, hx, hconstant⟩

def atFlatPrice (side : Side) (total numItems : UInt32) (startTime endTime : UInt64) : OrderItem where
  id := "item"
  orderId := "order"
  chainId := 1
  side := side
  numItems := numItems
  price := ⟨.ofUInt32 total, .ofUInt32 total, startTime, endTime⟩
  collection := "c"

/-- A bid of 1 for three tokens meets an ask of 2 for six, since both thirds are rounded alike. -/
theorem flat_totals_meet_thirds :
    let bid := atFlatPrice .buy 1 3 0 20
    let ask := atFlatPrice .sell 2 6 10 30
    ∃ b x, Decimal.div? (.ofUInt32 1) (.ofUInt32 3) = some b ∧
      bid.intersection ask = .ok (some x) ∧ ask.intersection bid = .ok (some x) ∧ x.Constant 10 20 b := by
  intro bid ask
  obtain ⟨b, a, hb, -, -, -, hfair, hmeet, -⟩ :=
    flat_totals_meet bid ask rfl rfl (by decide) (by decide) (by decide) (by decide) (by decide)
      (by decide) (by decide)
  have hexact : ask.price.startPrice.value / ask.numItems.toNat ≤
      bid.price.startPrice.value / bid.numItems.toNat := by
    show (Decimal.ofUInt32 2).value / ((6 : UInt32).toNat : ℚ) ≤
      (Decimal.ofUInt32 1).value / ((3 : UInt32).toNat : ℚ)
    rw [Decimal.value_ofUInt32, Decimal.value_ofUInt32]
    show ((2 : ℕ) : ℚ) / (6 : ℕ) ≤ (1 : ℕ) / (3 : ℕ)
    norm_num
  obtain ⟨x, hforward, hbackward, hconstant⟩ := hmeet (hfair hexact)
  exact ⟨b, x, hb, hforward, hbackward, hconstant⟩

end OrderItem

end OrderBook
