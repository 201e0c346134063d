import OrderBook.Order.Intersection
import OrderBook.Proofs.Price.Interval

/-!
What an intersection says about the curves it comes from, and what a clearing price says about its
intersection. The combined curve of several orders lives in all of their windows.
-/

namespace OrderBook

theorem max_time_eq (a b : UInt64) : max a b = if a ≤ b then b else a := rfl

theorem le_max_left_time (a b : UInt64) : a ≤ max a b := by
  rw [max_time_eq]
  split
  · rename_i h
    exact h
  · exact UInt64.le_refl a

theorem le_max_right_time (a b : UInt64) : b ≤ max a b := by
  rw [max_time_eq]
  split
  · exact UInt64.le_refl b
  · rename_i h
    exact UInt64.le_of_lt (UInt64.not_le.1 h)

namespace PriceCurve

theorem contains_iff {c : PriceCurve} {t : UInt64} :
    c.contains t = true ↔ c.startTime ≤ t ∧ t ≤ c.endTime := by
  simp [contains]

/-! Several curves as one -/

theorem within_commonWindow (c : PriceCurve) (cs : List PriceCurve) :
    ∀ d ∈ c :: cs, d.startTime ≤ (commonWindow c cs).1 ∧ (commonWindow c cs).2 ≤ d.endTime := by
  have narrows : ∀ (cs : List PriceCurve) (w : UInt64 × UInt64),
      let v := cs.foldl (fun w d => (max w.1 d.startTime, min w.2 d.endTime)) w
      (w.1 ≤ v.1 ∧ v.2 ≤ w.2) ∧ ∀ d ∈ cs, d.startTime ≤ v.1 ∧ v.2 ≤ d.endTime := by
    intro cs
    induction cs with
    | nil => exact fun w => ⟨⟨UInt64.le_refl _, UInt64.le_refl _⟩, fun d hd => by cases hd⟩
    | cons e es ih =>
      intro w
      obtain ⟨hw, hes⟩ := ih (max w.1 e.startTime, min w.2 e.endTime)
      refine ⟨⟨?_, ?_⟩, fun d hd => ?_⟩
      · exact UInt64.le_trans (le_max_left_time _ _) hw.1
      · exact UInt64.le_trans hw.2 Std.min_le_left
      · cases hd with
        | head =>
          exact ⟨UInt64.le_trans (le_max_right_time _ _) hw.1,
            UInt64.le_trans hw.2 Std.min_le_right⟩
        | tail _ hd => exact hes d hd
  intro d hd
  obtain ⟨hc, hcs⟩ := narrows cs (c.startTime, c.endTime)
  cases hd with
  | head => exact hc
  | tail _ hd => exact hcs d hd

theorem within_sum? {cs : List PriceCurve} {combined : PriceCurve}
    (h : sum? cs = .ok (some combined)) :
    ∀ d ∈ cs, d.startTime ≤ combined.startTime ∧ combined.endTime ≤ d.endTime := by
  cases cs with
  | nil => cases h
  | cons c cs =>
    simp only [sum?] at h
    split at h
    · cases h
    · obtain ⟨total, -, h⟩ := bind_eq_ok.1 h
      cases h
      exact within_commonWindow c cs

/-! Intersections -/

/-- What an intersection of two curves is. -/
structure Meets (bid ask : PriceCurve) (x : PriceIntersection) : Prop where
  bid_eq : x.bid = bid
  ask_eq : x.ask = ask
  from_le_until : x.validFrom ≤ x.validUntil
  bid_within : bid.startTime ≤ x.validFrom ∧ x.validUntil ≤ bid.endTime
  ask_within : ask.startTime ≤ x.validFrom ∧ x.validUntil ≤ ask.endTime
  price_eq : ∃ b a, bid.valueAt x.validFrom = .ok b ∧ ask.valueAt x.validFrom = .ok a ∧
    x.price = max b a

theorem intersect_eq_some {bid ask : PriceCurve} {x : PriceIntersection}
    (h : intersect bid ask = .ok (some x)) :
    validInterval? bid ask = .ok (some (x.validFrom, x.validUntil)) ∧ x.bid = bid ∧ x.ask = ask ∧
      ∃ b a, bid.valueAt x.validFrom = .ok b ∧ ask.valueAt x.validFrom = .ok a ∧ x.price = max b a := by
  simp only [intersect] at h
  obtain ⟨window, hwindow, h⟩ := bind_eq_ok.1 h
  cases window with
  | none => cases h
  | some window =>
    obtain ⟨b, hb, h⟩ := bind_eq_ok.1 h
    obtain ⟨a, ha, h⟩ := bind_eq_ok.1 h
    cases h
    exact ⟨hwindow, rfl, rfl, b, a, hb, ha, rfl⟩

theorem meets_intersect {bid ask : PriceCurve} {x : PriceIntersection}
    (h : intersect bid ask = .ok (some x)) : Meets bid ask x := by
  obtain ⟨hwindow, hbid, hask, hprice⟩ := intersect_eq_some h
  obtain ⟨hstart, hspan, hstop⟩ := validInterval?_within hwindow
  refine ⟨hbid, hask, hspan, ⟨?_, ?_⟩, ⟨?_, ?_⟩, hprice⟩
  · exact UInt64.le_trans (le_max_left_time _ _) hstart
  · exact UInt64.le_trans hstop Std.min_le_left
  · exact UInt64.le_trans (le_max_right_time _ _) hstart
  · exact UInt64.le_trans hstop Std.min_le_right

end PriceCurve

namespace PriceIntersection

variable {x : PriceIntersection} {t now : UInt64}

theorem priceAt_eq_some {p : Decimal} (h : x.priceAt t = .ok (some p)) :
    x.validFrom ≤ t ∧ t ≤ x.validUntil ∧
      ∃ b a, x.bid.valueAt t = .ok b ∧ x.ask.valueAt t = .ok a ∧ p = max b a := by
  simp only [priceAt] at h
  split at h
  · cases h
  · rename_i hwithin
    obtain ⟨b, hb, h⟩ := bind_eq_ok.1 h
    obtain ⟨a, ha, h⟩ := bind_eq_ok.1 h
    cases h
    refine ⟨UInt64.not_lt.1 fun hlt => hwithin (.inl hlt),
      UInt64.not_lt.1 fun hlt => hwithin (.inr hlt), b, a, hb, ha, rfl⟩

theorem priceAt_validFrom {bid ask : PriceCurve} (m : PriceCurve.Meets bid ask x) :
    x.priceAt x.validFrom = .ok (some x.price) := by
  obtain ⟨b, a, hb, ha, hprice⟩ := m.price_eq
  have hopen : ¬(x.validFrom < x.validFrom ∨ x.validUntil < x.validFrom) := by
    intro h
    cases h with
    | inl h => exact UInt64.lt_irrefl _ h
    | inr h => exact UInt64.not_lt.2 m.from_le_until h
  simp only [priceAt, if_neg hopen, m.bid_eq, m.ask_eq, hb, ha, hprice]
  rfl

theorem resolve_eq_some {bid ask : PriceCurve} {c : ClearingPrice}
    (m : PriceCurve.Meets bid ask x) (h : x.resolve now = .ok (some c)) :
    c.timestamp = max now x.validFrom ∧ x.priceAt c.timestamp = .ok (some c.price) := by
  simp only [resolve] at h
  split at h
  · rename_i hahead
    cases h
    refine ⟨?_, priceAt_validFrom m⟩
    rw [max_time_eq, if_pos (UInt64.le_of_lt hahead)]
  · rename_i hpresent
    obtain ⟨price, hprice, h⟩ := bind_eq_ok.1 h
    obtain ⟨p, hp, hc⟩ := Option.map_eq_some_iff.1 (pure_eq_ok.1 h)
    cases hc
    subst hp
    refine ⟨?_, hprice⟩
    have hopen := UInt64.not_lt.1 hpresent
    rw [max_time_eq]
    split
    · rename_i hnow
      exact UInt64.le_antisymm hnow hopen
    · rfl

end PriceIntersection

/-! Orders -/

namespace Order

/-- What the intersection of an order with others is: it lies in all their windows, and the order is
on the side of the curve that it stands for. -/
structure Clears (o : Order) (opposing : List Order) (x : PriceIntersection) : Prop where
  meets : x.bid.Meets x.ask x
  buyer : o.side = .buy → x.bid = o.price
  seller : o.side = .sell → x.ask = o.price
  within : ∀ p ∈ o :: opposing, p.price.startTime ≤ x.validFrom ∧ x.validUntil ≤ p.price.endTime

theorem clears_intersection {a b : Order} {x : PriceIntersection}
    (h : a.intersection b = .ok (some x)) : a.Clears [b] x := by
  have each : ∀ {bid ask : Order}, PriceCurve.intersect bid.price ask.price = .ok (some x) →
      x.bid.Meets x.ask x ∧ x.bid = bid.price ∧ x.ask = ask.price ∧
        ∀ p, p = bid ∨ p = ask → p.price.startTime ≤ x.validFrom ∧
          x.validUntil ≤ p.price.endTime := by
    intro bid ask h
    have m := PriceCurve.meets_intersect h
    refine ⟨by rw [m.bid_eq, m.ask_eq]; exact m, m.bid_eq, m.ask_eq, fun p hp => ?_⟩
    cases hp with
    | inl hp => exact hp ▸ m.bid_within
    | inr hp => exact hp ▸ m.ask_within
  simp only [intersection] at h
  cases ha : a.side with
  | buy =>
    cases hb : b.side with
    | buy => simp [ha, hb] at h
    | sell =>
      simp only [ha, hb] at h
      obtain ⟨hmeets, hbid, -, hwithin⟩ := each h
      refine ⟨hmeets, fun _ => hbid, fun hs => ?_, fun p hp => hwithin p (by simpa using hp)⟩
      rw [ha] at hs
      cases hs
  | sell =>
    cases hb : b.side with
    | sell => simp [ha, hb] at h
    | buy =>
      simp only [ha, hb] at h
      obtain ⟨hmeets, -, hask, hwithin⟩ := each h
      refine ⟨hmeets, fun hs => ?_, fun _ => hask, fun p hp => hwithin p ?_⟩
      · rw [ha] at hs
        cases hs
      · simpa [or_comm] using hp

theorem clears_combinedIntersection {o : Order} {opposing : List Order} {x : PriceIntersection}
    (h : o.combinedIntersection opposing = .ok (some x)) : o.Clears opposing x := by
  simp only [combinedIntersection] at h
  split at h
  · cases h
  · obtain ⟨combined, hsum, h⟩ := bind_eq_ok.1 h
    cases combined with
    | none => cases h
    | some combined =>
      have hwindow := PriceCurve.within_sum? hsum
      have hothers : combined.startTime ≤ x.validFrom ∧ x.validUntil ≤ combined.endTime →
          ∀ p ∈ opposing, p.price.startTime ≤ x.validFrom ∧ x.validUntil ≤ p.price.endTime := by
        intro hcombined p hp
        obtain ⟨hstart, hend⟩ := hwindow p.price (List.mem_map_of_mem hp)
        exact ⟨UInt64.le_trans hstart hcombined.1, UInt64.le_trans hcombined.2 hend⟩
      cases hside : o.side with
      | buy =>
        simp only [hside] at h
        have m := PriceCurve.meets_intersect h
        refine ⟨by rw [m.bid_eq, m.ask_eq]; exact m, fun _ => m.bid_eq, fun hs => ?_, ?_⟩
        · rw [hside] at hs
          cases hs
        · intro p hp
          cases hp with
          | head => exact m.bid_within
          | tail _ hp => exact hothers m.ask_within p hp
      | sell =>
        simp only [hside] at h
        have m := PriceCurve.meets_intersect h
        refine ⟨by rw [m.bid_eq, m.ask_eq]; exact m, fun hs => ?_, fun _ => m.ask_eq, ?_⟩
        · rw [hside] at hs
          cases hs
        · intro p hp
          cases hp with
          | head => exact m.ask_within
          | tail _ hp => exact hothers m.bid_within p hp

end Order

end OrderBook
