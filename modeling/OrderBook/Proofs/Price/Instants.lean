import OrderBook.Proofs.Failures
import OrderBook.Proofs.Price.Clearing

/-!
The instants of an intersection. It lies in the common window, the bid reaches the ask at its first
instant, and it carries the price of the bid there. An instant at which the bid reaches the ask is in it,
except for one or two right next to it, where the crossing was rounded past them, for those at which
only rounded prices reach, and where a rounded spread hides the whole window.
-/

namespace OrderBook

namespace PriceCurve

variable {bid ask : PriceCurve} {start stop : UInt64} {d0 d1 : Decimal}

/-! Well-formed intersections -/

theorem reaches_first {first last : UInt64} (h : validInterval? bid ask = .ok (some (first, last))) :
    ∃ b a, bid.valueAt first = .ok b ∧ ask.valueAt first = .ok a ∧ a ≤ b := by
  have reaches : ∀ {t : UInt64} {d : Decimal}, spread bid ask t = .ok d → .zero ≤ d →
      ∃ b a, bid.valueAt t = .ok b ∧ ask.valueAt t = .ok a ∧ a ≤ b := by
    intro t d hd hpositive
    obtain ⟨b, a, hb, ha, hsign⟩ := spread_eq_ok hd
    exact ⟨b, a, hb, ha, hsign.1 hpositive⟩
  obtain ⟨-, d0, d1, hd0, -, hwindow⟩ := validInterval?_eq_some h
  cases hwindow with
  | always h0 h1 => exact reaches hd0 h0
  | falls h0 h1 hlast => exact reaches hd0 h0
  | rises h0 h1 hfirst =>
    obtain ⟨t, n, d, -, -, -, htried⟩ := firstValid?_eq_ok hfirst
    generalize hfound : some first = found at htried
    cases htried with
    | outside houtside => cases hfound
    | refused hd hnegative => cases hfound
    | taken hwithin hd hpositive =>
      obtain rfl := Option.some.inj hfound
      exact reaches hd hpositive

def IsSolved (e : MatchError) : Prop :=
  e ≠ .arithmetic .crossing ∧ e ≠ .arithmetic .timestamp

instance : Spreading IsSolved where
  delta := ⟨by decide, by decide⟩
  interpolation := ⟨by decide, by decide⟩
  spread := ⟨by decide, by decide⟩

/-- An intersection lies in the common window; at its first instant the bid reaches the ask, and it
carries the price of the bid there. Solving for the crossing does not fail, and correcting it by a
millisecond stays in the range of instants. -/
theorem intersect_wellFormed (bid ask : PriceCurve) :
    (∀ x, intersect bid ask = .ok (some x) →
      max bid.startTime ask.startTime ≤ x.validFrom ∧ x.validFrom ≤ x.validUntil ∧
      x.validUntil ≤ min bid.endTime ask.endTime ∧
      ∃ b a, bid.valueAt x.validFrom = .ok b ∧ ask.valueAt x.validFrom = .ok a ∧ a ≤ b ∧
        x.price = b ∧ x.priceAt x.validFrom = .ok (some b)) ∧
    intersect bid ask ≠ .error (.arithmetic .crossing) ∧
    intersect bid ask ≠ .error (.arithmetic .timestamp) ∧
    ∀ n, Corrects bid ask n → n.toNat + 1 < UInt64.size := by
  have hfails : FailsOnly IsSolved (intersect bid ask) :=
    failsOnly_intersect fun _ => ⟨by decide, by decide⟩
  refine ⟨fun x h => ?_, fun h => (hfails _ h).1 rfl, fun h => (hfails _ h).2 rfl, fun n h => ?_⟩
  · have m := meets_intersect h
    obtain ⟨window, hwindow, h⟩ := bind_eq_ok.1 h
    cases window with
    | none => cases h
    | some window =>
      obtain ⟨first, last⟩ := window
      obtain ⟨b, a, hb, ha, hle⟩ := reaches_first hwindow
      simp only [hb, ha] at h
      cases h
      obtain ⟨hstart, hordered, hstop⟩ := validInterval?_within hwindow
      have hmax : max b a = b := if_neg (Decimal.not_lt.2 hle)
      have hprice := PriceIntersection.priceAt_validFrom m
      refine ⟨hstart, hordered, hstop, b, a, hb, ha, hle, hmax, ?_⟩
      rw [hprice, hmax]
  · have hlt := h.lt
    rw [UInt64.lt_iff_toNat_lt] at hlt
    have hstop := (min bid.endTime ask.endTime).toNat_lt
    show n.toNat + 1 < 2 ^ 64
    omega

/-- A bid for two that never changes, and an ask that falls to it after two milliseconds. -/
def steadyBid : PriceCurve := ⟨.ofUInt32 2, .ofUInt32 2, 0, 4⟩

def fallingAsk : PriceCurve := ⟨.ofUInt32 3, .ofUInt32 1, 0, 4⟩

theorem intersect_wellFormed_fallingAsk :
    ∃ x, intersect steadyBid fallingAsk = .ok (some x) ∧ x.validFrom = 2 ∧ x.validUntil = 4 ∧
      ∃ b, steadyBid.valueAt 2 = .ok b ∧ x.price = b ∧ x.priceAt 2 = .ok (some b) := by
  have hfound : intersect steadyBid fallingAsk =
      .ok (some ⟨steadyBid, fallingAsk, 2, 4, .ofUInt32 2⟩) := by decide +kernel
  obtain ⟨-, -, -, b, -, hb, -, -, hprice, hat⟩ :=
    (intersect_wellFormed steadyBid fallingAsk).1 _ hfound
  exact ⟨_, hfound, rfl, rfl, b, hb, hprice, hat⟩

/-! Where the bid reaches the ask -/

/-- An instant of the common window at which the bid reaches the ask. -/
structure ReachesAt (bid ask : PriceCurve) (t : UInt64) : Prop where
  start_le : max bid.startTime ask.startTime ≤ t
  le_stop : t ≤ min bid.endTime ask.endTime
  reaches : ∃ b a, bid.valueAt t = .ok b ∧ ask.valueAt t = .ok a ∧ a ≤ b

theorem ReachesAt.zero_le {t : UInt64} {d : Decimal} (h : ReachesAt bid ask t)
    (hd : spread bid ask t = .ok d) : .zero ≤ d := by
  obtain ⟨b, a, hb, ha, hle⟩ := h.reaches
  obtain ⟨b', a', hb', ha', hsign⟩ := spread_eq_ok hd
  rw [hb] at hb'
  rw [ha] at ha'
  cases hb'
  cases ha'
  exact hsign.2 hle

theorem ReachesAt.ne_of_negative {t n : UInt64} {d : Decimal} (h : ReachesAt bid ask t)
    (hd : spread bid ask n = .ok d) (hnegative : d < .zero) : t.toNat ≠ n.toNat := by
  intro heq
  obtain rfl := UInt64.toNat_inj.1 heq
  exact Decimal.not_lt.2 (h.zero_le hd) hnegative

/-! The line between two spreads -/

/-- The line between the spreads at the ends of a span, times the length of the span. -/
def chord (start stop : UInt64) (d0 d1 : Decimal) (t : UInt64) : ℚ :=
  d0.value * (stop.toNat - t.toNat) + d1.value * (t.toNat - start.toNat)

theorem chord_eq (hopposite : d0.Opposite d1) (t : UInt64) :
    chord start stop d0 d1 t =
      (d0.value - d1.value) * (exactCrossing start stop d0 d1 - t.toNat) := by
  have hne : d0.value - d1.value ≠ 0 := sub_ne_zero.2 hopposite.value_ne
  rw [chord, exactCrossing]
  field_simp
  ring

theorem chord_falls (h0 : .zero ≤ d0) (h1 : d1 < .zero) (t : UInt64) :
    0 ≤ chord start stop d0 d1 t ↔ (t.toNat : ℚ) ≤ exactCrossing start stop d0 d1 := by
  rw [chord_eq (.inl ⟨h0, h1⟩)]
  rw [Decimal.le_iff_value, Decimal.value_zero] at h0
  rw [Decimal.lt_iff_value, Decimal.value_zero] at h1
  rw [mul_nonneg_iff_of_pos_left (by linarith), sub_nonneg]

theorem chord_rises (h0 : d0 < .zero) (h1 : .zero ≤ d1) (t : UInt64) :
    0 ≤ chord start stop d0 d1 t ↔ exactCrossing start stop d0 d1 ≤ (t.toNat : ℚ) := by
  rw [chord_eq (.inr ⟨h0, h1⟩), ← neg_mul_neg]
  rw [Decimal.lt_iff_value, Decimal.value_zero] at h0
  rw [Decimal.le_iff_value, Decimal.value_zero] at h1
  rw [mul_nonneg_iff_of_pos_left (by linarith), neg_sub, sub_nonneg]

section

variable (hspan : start ≤ stop) {crossed : Decimal} {n t : UInt64}
  (hcrossed : crossing start stop d0 d1 = .ok crossed)

include hspan hcrossed

theorem lt_of_chord_falls (h0 : .zero ≤ d0) (h1 : d1 < .zero)
    (hn : toMillis (max crossed.floor (.ofUInt64 start)) = .ok n)
    (hline : 0 ≤ chord start stop d0 d1 t) : start ≤ n ∧ t.toNat < n.toNat + 2 := by
  obtain ⟨hbetween, hnear⟩ := crossing_near hspan (.inl ⟨h0, h1⟩) hcrossed
  obtain ⟨n', hn', hstart, -, hfloor⟩ := exists_floorMillis hbetween
  rw [hn] at hn'
  cases hn'
  rw [chord_falls h0 h1] at hline
  have hlow := (abs_lt.1 hnear).1
  have hbound : (t.toNat : ℚ) < n.toNat + 2 := by linarith
  exact ⟨hstart, by exact_mod_cast hbound⟩

section

variable (h0 : d0 < .zero) (h1 : .zero ≤ d1) (hn : toMillis crossed.ceil = .ok n)

include h0 h1 hn

theorem lt_of_chord_rises (hline : 0 ≤ chord start stop d0 d1 t) : n ≤ stop ∧ n.toNat < t.toNat + 2 := by
  obtain ⟨hbetween, hnear⟩ := crossing_near hspan (.inr ⟨h0, h1⟩) hcrossed
  obtain ⟨n', hn', -, hstop, -, hceil⟩ := exists_ceilMillis hbetween
  rw [hn] at hn'
  cases hn'
  rw [chord_rises h0 h1] at hline
  have hhigh := (abs_lt.1 hnear).2
  have hbound : (n.toNat : ℚ) < t.toNat + 2 := by linarith
  exact ⟨hstop, by exact_mod_cast hbound⟩

theorem chord_rises_next (hnext : t.toNat = n.toNat + 1) : 0 ≤ chord start stop d0 d1 t := by
  obtain ⟨hbetween, hnear⟩ := crossing_near hspan (.inr ⟨h0, h1⟩) hcrossed
  obtain ⟨n', hn', -, -, hceil, -⟩ := exists_ceilMillis hbetween
  rw [hn] at hn'
  cases hn'
  have hlow := (abs_lt.1 hnear).1
  rw [chord_rises h0 h1, hnext]
  push_cast
  linarith

end

end

/-! Instants that are missed -/

/-- How an instant `t` at which the bid reaches the ask can be missed by a window, given the spreads `d0`
and `d1` at the ends of the common one. -/
inductive Missed (bid ask : PriceCurve) (start stop : UInt64) (d0 d1 : Decimal) :
    Option (UInt64 × UInt64) → UInt64 → Prop
  /-- The line is negative, so only the rounded prices reach each other. -/
  | rounded {w : Option (UInt64 × UInt64)} {t : UInt64} (h : chord start stop d0 d1 t < 0) :
    Missed bid ask start stop d0 d1 w t
  /-- A falling line is taken to cross zero a millisecond too soon. -/
  | late {first last t : UInt64} (h0 : .zero ≤ d0) (h1 : d1 < .zero)
    (h : t.toNat = last.toNat + 1) : Missed bid ask start stop d0 d1 (some (first, last)) t
  /-- The same, behind an instant with a negative spread. -/
  | lateBehind {first last n t : UInt64} {d : Decimal} (h0 : .zero ≤ d0) (h1 : d1 < .zero)
    (hn : n.toNat = last.toNat + 1) (hd : spread bid ask n = .ok d) (hnegative : d < .zero)
    (h : t.toNat = n.toNat + 1) : Missed bid ask start stop d0 d1 (some (first, last)) t
  /-- A rising line is taken to cross zero a millisecond too late. -/
  | early {first last t : UInt64} (h0 : d0 < .zero) (h1 : .zero ≤ d1)
    (h : t.toNat + 1 = first.toNat) : Missed bid ask start stop d0 d1 (some (first, last)) t
  /-- The same, ahead of an instant with a negative spread. -/
  | earlyAhead {first last n t : UInt64} {d : Decimal} (h0 : d0 < .zero) (h1 : .zero ≤ d1)
    (hn : n.toNat + 1 = first.toNat) (hd : spread bid ask n = .ok d) (hnegative : d < .zero)
    (h : t.toNat + 1 = n.toNat) : Missed bid ask start stop d0 d1 (some (first, last)) t
  /-- A rising line has crossed zero, but the spreads at the two instants that are tried are negative, so
  there is no window at all. -/
  | lost {n m t : UInt64} {d e : Decimal} (h0 : d0 < .zero) (h1 : .zero ≤ d1)
    (hm : m.toNat = n.toNat + 1) (hline : 0 ≤ chord start stop d0 d1 m)
    (hd : spread bid ask n = .ok d) (hn : d < .zero)
    (he : spread bid ask m = .ok e) (hnegative : e < .zero) : Missed bid ask start stop d0 d1 none t

theorem toNat_before {n : UInt64} (h : start.toNat < n.toNat) :
    (max (if n = 0 then 0 else n - 1) start).toNat + 1 = n.toNat := by
  have hne : n ≠ 0 := by
    rintro rfl
    exact Nat.not_lt_zero _ h
  have hone : (1 : UInt64) ≤ n := by
    rw [UInt64.le_iff_toNat_le]
    exact Nat.lt_of_le_of_lt (Nat.zero_le _) h
  have hpred : (n - 1).toNat = n.toNat - 1 := UInt64.toNat_sub_of_le _ _ hone
  rw [if_neg hne, max_time_eq]
  split
  · rename_i hle
    rw [UInt64.le_iff_toNat_le] at hle
    omega
  · omega

theorem missed_last (hspan : start ≤ stop) (hd0 : spread bid ask start = .ok d0) (h0 : .zero ≤ d0)
    (h1 : d1 < .zero) {last t : UInt64} (h : lastValid bid ask start stop d0 d1 = .ok last)
    (ht : ReachesAt bid ask t) (hlate : last < t) :
    Missed bid ask start stop d0 d1 (some (start, last)) t := by
  obtain ⟨crossed, n, d, hcrossed, hn, hd, hlast⟩ := lastValid_eq_ok h
  by_cases hline : 0 ≤ chord start stop d0 d1 t
  · obtain ⟨hstart, hbound⟩ := lt_of_chord_falls hspan hcrossed h0 h1 hn hline
    rw [UInt64.lt_iff_toNat_lt] at hlate
    cases hlast with
    | inl hexact =>
      obtain ⟨-, rfl⟩ := hexact
      exact .late h0 h1 (by omega)
    | inr hcorrected =>
      obtain ⟨hnegative, rfl⟩ := hcorrected
      -- The spread at the start is not negative, so an instant with a negative one lies after it.
      have hafter : start.toNat < n.toNat := by
        refine Nat.lt_of_le_of_ne (UInt64.le_iff_toNat_le.1 hstart) fun heq => ?_
        rw [← UInt64.toNat_inj.1 heq, hd0] at hd
        cases hd
        exact Decimal.not_lt.2 h0 hnegative
      have hbefore := toNat_before hafter
      have hother := ht.ne_of_negative hd hnegative
      exact .lateBehind h0 h1 hbefore.symm hd hnegative (by omega)
  · exact .rounded (not_le.1 hline)

theorem missed_first (hspan : start ≤ stop) (hd1 : spread bid ask stop = .ok d1) (h0 : d0 < .zero)
    (h1 : .zero ≤ d1) {first : Option UInt64} {t : UInt64}
    (h : firstValid? bid ask start stop d0 d1 = .ok first) (ht : ReachesAt bid ask t)
    (hearly : ∀ n, first = some n → t < n) :
    Missed bid ask start stop d0 d1 (first.map (·, stop)) t := by
  obtain ⟨crossed, n, d, hcrossed, hn, hd, htried⟩ := firstValid?_eq_ok h
  by_cases hline : 0 ≤ chord start stop d0 d1 t
  · obtain ⟨hstop, hbound⟩ := lt_of_chord_rises hspan hcrossed h0 h1 hn hline
    by_cases hnegative : d < .zero
    · rw [if_pos hnegative] at htried
      have hlt := rounded_lt hspan (.inr ⟨h0, h1⟩) hd1 h1 hcrossed hn hd hnegative
      have hnext := toNat_add_one_of_lt hlt
      have hother := ht.ne_of_negative hd hnegative
      cases htried with
      | outside houtside =>
        rw [UInt64.lt_iff_toNat_lt] at hlt houtside
        omega
      | refused he hrefused =>
        exact .lost h0 h1 hnext (chord_rises_next hspan hcrossed h0 h1 hn hnext) hd hnegative he hrefused
      | taken hwithin he hpositive =>
        have hbefore := hearly _ rfl
        rw [UInt64.lt_iff_toNat_lt] at hbefore
        exact .earlyAhead h0 h1 hnext.symm hd hnegative (by omega)
    · rw [if_neg hnegative] at htried
      cases htried with
      | outside houtside => exact absurd houtside (UInt64.not_lt.2 hstop)
      | refused he hrefused =>
        rw [hd] at he
        cases he
        exact absurd hrefused hnegative
      | taken hwithin he hpositive =>
        have hbefore := hearly _ rfl
        rw [UInt64.lt_iff_toNat_lt] at hbefore
        exact .early h0 h1 (by omega)
  · exact .rounded (not_le.1 hline)

theorem missed_validInterval? {w : Option (UInt64 × UInt64)} {t : UInt64}
    (h : validInterval? bid ask = .ok w) (ht : ReachesAt bid ask t)
    (houtside : ∀ first last, w = some (first, last) → ¬ (first ≤ t ∧ t ≤ last)) :
    ∃ d0 d1, spread bid ask (max bid.startTime ask.startTime) = .ok d0 ∧
      spread bid ask (min bid.endTime ask.endTime) = .ok d1 ∧
      Missed bid ask (max bid.startTime ask.startTime) (min bid.endTime ask.endTime) d0 d1 w t := by
  have hstart := ht.start_le
  have hstop := ht.le_stop
  obtain ⟨hempty, -⟩ | ⟨hspan, d0, d1, hd0, hd1, hsolved⟩ := validInterval?_eq_ok h
  · exact absurd (UInt64.le_trans hstart hstop) (UInt64.not_le.2 hempty)
  · refine ⟨d0, d1, hd0, hd1, ?_⟩
    generalize max bid.startTime ask.startTime = start at *
    generalize min bid.endTime ask.endTime = stop at *
    cases hsolved with
    | always h0 h1 => exact absurd ⟨hstart, hstop⟩ (houtside _ _ rfl)
    | falls h0 h1 hlast =>
      refine missed_last hspan hd0 h0 h1 hlast ht (UInt64.not_le.1 fun hle => ?_)
      exact houtside _ _ rfl ⟨hstart, hle⟩
    | rises h0 h1 hfirst =>
      refine missed_first hspan hd1 h0 h1 hfirst ht fun n hn => UInt64.not_le.1 fun hle => ?_
      exact houtside n stop (by rw [hn]; rfl) ⟨hle, hstop⟩
    | never h0 h1 =>
      have hnotStart := ht.ne_of_negative hd0 h0
      rw [UInt64.le_iff_toNat_le] at hstart hstop
      have hafter : (start.toNat : ℚ) < t.toNat := by
        exact_mod_cast Nat.lt_of_le_of_ne hstart (Ne.symm hnotStart)
      have hbefore : (t.toNat : ℚ) ≤ stop.toNat := by exact_mod_cast hstop
      rw [Decimal.lt_iff_value, Decimal.value_zero] at h0 h1
      refine .rounded ?_
      rw [chord]
      nlinarith

/-- An instant at which the bid reaches the ask lies in the intersection, or it is missed in one of a few
ways. -/
theorem within_or_missed {r : Option PriceIntersection} {t : UInt64} (h : intersect bid ask = .ok r)
    (ht : ReachesAt bid ask t) :
    (∃ x, r = some x ∧ x.validFrom ≤ t ∧ t ≤ x.validUntil) ∨
      ∃ d0 d1, spread bid ask (max bid.startTime ask.startTime) = .ok d0 ∧
        spread bid ask (min bid.endTime ask.endTime) = .ok d1 ∧
        Missed bid ask (max bid.startTime ask.startTime) (min bid.endTime ask.endTime) d0 d1
          (r.map fun x => (x.validFrom, x.validUntil)) t := by
  obtain ⟨w, hw, h⟩ := bind_eq_ok.1 h
  have hwindow : r.map (fun x => (x.validFrom, x.validUntil)) = w := by
    cases w with
    | none =>
      cases h
      rfl
    | some window =>
      obtain ⟨first, last⟩ := window
      obtain ⟨b, -, h⟩ := bind_eq_ok.1 h
      obtain ⟨a, -, h⟩ := bind_eq_ok.1 h
      cases h
      rfl
  rw [← hwindow] at hw
  by_cases hwithin : ∃ x, r = some x ∧ x.validFrom ≤ t ∧ t ≤ x.validUntil
  · exact .inl hwithin
  · refine .inr (missed_validInterval? hw ht fun first last hpair hin => hwithin ?_)
    obtain ⟨x, hx, hpair⟩ := Option.map_eq_some_iff.1 hpair
    cases hpair
    exact ⟨x, hx, hin⟩

/-- A bid that falls by half a unit of its last digit at a time, and an ask that it reaches halfway. -/
def slowBid : PriceCurve :=
  ⟨⟨false, 36000000000000000000000000000, 27, by decide, by decide⟩,
    ⟨false, 33000000000000000000000000000, 27, by decide, by decide⟩, 281, 562⟩

def slowAsk : PriceCurve :=
  ⟨⟨false, 39000000000000000000000000003, 27, by decide, by decide⟩,
    ⟨false, 20999999999999999999999999993, 27, by decide, by decide⟩, 0, 1686⟩

theorem within_or_missed_slowBid :
    intersect slowBid slowAsk = .ok none ∧ ReachesAt slowBid slowAsk 562 ∧
      ∃ d0 d1, spread slowBid slowAsk 281 = .ok d0 ∧ spread slowBid slowAsk 562 = .ok d1 ∧
        Missed slowBid slowAsk 281 562 d0 d1 none 562 := by
  have hnone : intersect slowBid slowAsk = .ok none := by decide +kernel
  have hreaches : ReachesAt slowBid slowAsk 562 :=
    ⟨by decide, by decide, slowBid.endPrice,
      ⟨false, 32999999999999999999999999999, 27, by decide, by decide⟩,
      by decide +kernel, by decide +kernel, by decide +kernel⟩
  obtain ⟨x, hx, -⟩ | hmissed := within_or_missed hnone hreaches
  · cases hx
  · exact ⟨hnone, hreaches, hmissed⟩

/-- A bid that falls from 3 to 0 in three milliseconds, and an ask of 2 that never changes. The bid is 2
after a millisecond, but a third is rounded down, and so is three times it. -/
def fallingBid : PriceCurve := ⟨.ofUInt32 3, .zero, 0, 3⟩

def steadyAsk : PriceCurve := ⟨.ofUInt32 2, .ofUInt32 2, 0, 3⟩

theorem misses_last_instant :
    ¬ ∀ (bid ask : PriceCurve) (r : Option PriceIntersection) (t : UInt64),
      intersect bid ask = .ok r → ReachesAt bid ask t →
      ∃ x, r = some x ∧ x.validFrom ≤ t ∧ t ≤ x.validUntil := by
  intro h
  have hfound : intersect fallingBid steadyAsk =
      .ok (some ⟨fallingBid, steadyAsk, 0, 0, .ofUInt32 3⟩) := by decide +kernel
  have hreaches : ReachesAt fallingBid steadyAsk 1 :=
    ⟨by decide, by decide, .ofUInt32 2, .ofUInt32 2, by decide +kernel, by decide +kernel,
      Decimal.le_refl _⟩
  obtain ⟨x, hx, -, hlast⟩ := h _ _ _ 1 hfound hreaches
  cases hx
  exact absurd hlast (by decide)

end PriceCurve

end OrderBook
