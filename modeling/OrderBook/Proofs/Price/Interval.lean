import OrderBook.Price.Intersection
import OrderBook.Proofs.Decimal.Signed
import OrderBook.Proofs.Results

/-!
The interval over which a bid meets an ask: in which ways it is found, and that it lies in the windows of
both and is never empty, since the solved crossing and its correction by a millisecond do not leave the
common window.
-/

namespace OrderBook

namespace PriceCurve

variable {bid ask : PriceCurve} {start stop : UInt64} {d0 d1 : Decimal}

theorem orFail_eq_ok {step : PriceStep} {x : Option Decimal} {d : Decimal} :
    orFail step x = .ok d ↔ x = some d := by
  cases x with
  | none => simp [orFail]
  | some e => simp [orFail]

theorem toMillis_eq_ok {t : Decimal} {n : UInt64} : toMillis t = .ok n ↔ t.toUInt64? = some n := by
  simp only [toMillis]
  cases t.toUInt64? with
  | none => simp
  | some m => simp

/-! What the steps say when they succeed -/

theorem spread_eq_ok {t : UInt64} {d : Decimal} (h : spread bid ask t = .ok d) :
    ∃ b a, bid.valueAt t = .ok b ∧ ask.valueAt t = .ok a ∧ (.zero ≤ d ↔ a ≤ b) := by
  obtain ⟨b, hb, h⟩ := bind_eq_ok.1 h
  obtain ⟨a, ha, h⟩ := bind_eq_ok.1 h
  exact ⟨b, a, hb, ha, Decimal.zero_le_sub?_iff (orFail_eq_ok.1 h)⟩

theorem lastValid_eq_ok {last : UInt64} (h : lastValid bid ask start stop d0 d1 = .ok last) :
    ∃ t n d, crossing start stop d0 d1 = .ok t ∧ toMillis (max t.floor (.ofUInt64 start)) = .ok n ∧
      spread bid ask n = .ok d ∧
      (.zero ≤ d ∧ last = n ∨ d < .zero ∧ last = max (if n = 0 then 0 else n - 1) start) := by
  obtain ⟨t, ht, h⟩ := bind_eq_ok.1 h
  obtain ⟨n, hn, h⟩ := bind_eq_ok.1 h
  obtain ⟨d, hd, h⟩ := bind_eq_ok.1 h
  refine ⟨t, n, d, ht, hn, hd, ?_⟩
  split at h
  · rename_i hnegative
    exact .inr ⟨hnegative, (pure_eq_ok.1 h).symm⟩
  · rename_i hpositive
    exact .inl ⟨Decimal.not_lt.1 hpositive, (pure_eq_ok.1 h).symm⟩

/-- What becomes of the first instant that is tried at the end. -/
inductive Tried (bid ask : PriceCurve) (stop first : UInt64) : Option UInt64 → Prop
  | outside (h : stop < first) : Tried bid ask stop first none
  | refused {d : Decimal} (hd : spread bid ask first = .ok d) (h : d < .zero) :
    Tried bid ask stop first none
  | taken {d : Decimal} (hwithin : first ≤ stop) (hd : spread bid ask first = .ok d) (h : .zero ≤ d) :
    Tried bid ask stop first (some first)

theorem firstValid?_eq_ok {r : Option UInt64} (h : firstValid? bid ask start stop d0 d1 = .ok r) :
    ∃ t n d, crossing start stop d0 d1 = .ok t ∧ toMillis t.ceil = .ok n ∧
      spread bid ask n = .ok d ∧ Tried bid ask stop (if d < .zero then n + 1 else n) r := by
  obtain ⟨t, ht, h⟩ := bind_eq_ok.1 h
  obtain ⟨n, hn, h⟩ := bind_eq_ok.1 h
  obtain ⟨d, hd, h⟩ := bind_eq_ok.1 h
  refine ⟨t, n, d, ht, hn, hd, ?_⟩
  dsimp only at h
  generalize (if d < Decimal.zero then n + 1 else n) = first at h
  split at h
  · rename_i houtside
    cases h
    exact .outside houtside
  · rename_i hwithin
    obtain ⟨e, he, h⟩ := bind_eq_ok.1 h
    split at h
    · rename_i hnegative
      cases h
      exact .refused he hnegative
    · rename_i hpositive
      cases h
      exact .taken (UInt64.not_lt.1 hwithin) he (Decimal.not_lt.1 hpositive)

/-- Which window is found, by the signs of the spreads at the ends of the common one. -/
inductive Solved (bid ask : PriceCurve) (start stop : UInt64) (d0 d1 : Decimal) :
    Option (UInt64 × UInt64) → Prop
  | always (h0 : .zero ≤ d0) (h1 : .zero ≤ d1) : Solved bid ask start stop d0 d1 (some (start, stop))
  | falls (h0 : .zero ≤ d0) (h1 : d1 < .zero) {last : UInt64}
    (h : lastValid bid ask start stop d0 d1 = .ok last) :
    Solved bid ask start stop d0 d1 (some (start, last))
  | rises (h0 : d0 < .zero) (h1 : .zero ≤ d1) {first : Option UInt64}
    (h : firstValid? bid ask start stop d0 d1 = .ok first) :
    Solved bid ask start stop d0 d1 (first.map (·, stop))
  | never (h0 : d0 < .zero) (h1 : d1 < .zero) : Solved bid ask start stop d0 d1 none

theorem validInterval?_eq_ok {w : Option (UInt64 × UInt64)} (h : validInterval? bid ask = .ok w) :
    min bid.endTime ask.endTime < max bid.startTime ask.startTime ∧ w = none ∨
      max bid.startTime ask.startTime ≤ min bid.endTime ask.endTime ∧
        ∃ d0 d1, spread bid ask (max bid.startTime ask.startTime) = .ok d0 ∧
          spread bid ask (min bid.endTime ask.endTime) = .ok d1 ∧
          Solved bid ask (max bid.startTime ask.startTime) (min bid.endTime ask.endTime) d0 d1 w := by
  simp only [validInterval?] at h
  generalize max bid.startTime ask.startTime = start at h ⊢
  generalize min bid.endTime ask.endTime = stop at h ⊢
  split at h
  · rename_i hspan
    cases h
    exact .inl ⟨hspan, rfl⟩
  · rename_i hspan
    obtain ⟨d0, hd0, h⟩ := bind_eq_ok.1 h
    obtain ⟨d1, hd1, h⟩ := bind_eq_ok.1 h
    refine .inr ⟨UInt64.not_lt.1 hspan, d0, d1, hd0, hd1, ?_⟩
    split at h
    · rename_i h0
      split at h
      · rename_i h1
        cases h
        exact .always h0 h1
      · rename_i h1
        obtain ⟨last, hlast, h⟩ := bind_eq_ok.1 h
        cases h
        exact .falls h0 (Decimal.not_le.1 h1) hlast
    · rename_i h0
      split at h
      · rename_i h1
        obtain ⟨first, hfirst, h⟩ := bind_eq_ok.1 h
        cases h
        exact .rises (Decimal.not_le.1 h0) h1 hfirst
      · rename_i h1
        cases h
        exact .never (Decimal.not_le.1 h0) (Decimal.not_le.1 h1)

inductive Found (bid ask : PriceCurve) (start stop : UInt64) (d0 d1 : Decimal) : UInt64 → UInt64 → Prop
  | always (h0 : .zero ≤ d0) (h1 : .zero ≤ d1) : Found bid ask start stop d0 d1 start stop
  | falls (h0 : .zero ≤ d0) (h1 : d1 < .zero) {last : UInt64}
    (h : lastValid bid ask start stop d0 d1 = .ok last) : Found bid ask start stop d0 d1 start last
  | rises (h0 : d0 < .zero) (h1 : .zero ≤ d1) {first : UInt64}
    (h : firstValid? bid ask start stop d0 d1 = .ok (some first)) :
    Found bid ask start stop d0 d1 first stop

theorem validInterval?_eq_some {first last : UInt64}
    (h : validInterval? bid ask = .ok (some (first, last))) :
    max bid.startTime ask.startTime ≤ min bid.endTime ask.endTime ∧
      ∃ d0 d1, spread bid ask (max bid.startTime ask.startTime) = .ok d0 ∧
        spread bid ask (min bid.endTime ask.endTime) = .ok d1 ∧
        Found bid ask (max bid.startTime ask.startTime) (min bid.endTime ask.endTime) d0 d1 first last := by
  obtain ⟨-, hnone⟩ | ⟨hspan, d0, d1, hd0, hd1, hsolved⟩ := validInterval?_eq_ok h
  · cases hnone
  · refine ⟨hspan, d0, d1, hd0, hd1, ?_⟩
    generalize hw : some (first, last) = w at hsolved
    cases hsolved with
    | always h0 h1 =>
      cases hw
      exact .always h0 h1
    | falls h0 h1 hlast =>
      cases hw
      exact .falls h0 h1 hlast
    | rises h0 h1 hfirst =>
      obtain ⟨found, rfl, hpair⟩ := Option.map_eq_some_iff.1 hw.symm
      cases hpair
      exact .rises h0 h1 hfirst
    | never h0 h1 => cases hw

/-! The span is not left -/

theorem between_crossing (hspan : start ≤ stop) (hopposite : d0.Opposite d1) {t : Decimal}
    (h : crossing start stop d0 d1 = .ok t) : t.Between start stop := by
  simp only [crossing] at h
  split at h
  · cases h
  · rename_i change hchange
    obtain ⟨ratio, hratio, h⟩ := Option.bind_eq_some_iff.1 (orFail_eq_ok.1 h)
    obtain ⟨offset, hoffset, h⟩ := Option.bind_eq_some_iff.1 h
    obtain ⟨hle, hsign⟩ := Decimal.sub?_opposite hopposite hchange
    obtain ⟨hpositive, hone⟩ := Decimal.div?_le_one hratio hle hsign
    obtain ⟨hforward, hwithin⟩ := Decimal.mul?_share hpositive hone hoffset
    exact Decimal.add?_between hspan hforward hwithin h

theorem lastValid_within (hspan : start ≤ stop) (hopposite : d0.Opposite d1) {last : UInt64}
    (h : lastValid bid ask start stop d0 d1 = .ok last) : start ≤ last ∧ last ≤ stop := by
  obtain ⟨t, n, d, ht, hn, -, hlast⟩ := lastValid_eq_ok h
  have hcrossed := (between_crossing hspan hopposite ht).floor
  have hstart := Decimal.between_ofUInt64 (UInt64.le_refl start) hspan
  obtain ⟨hlow, hhigh⟩ := (hcrossed.max hstart).toUInt64? (toMillis_eq_ok.1 hn)
  obtain ⟨-, rfl⟩ | ⟨-, rfl⟩ := hlast
  · exact ⟨hlow, hhigh⟩
  · generalize hstep : (if n = 0 then 0 else n - 1) = before
    have hbefore : before ≤ n := by
      subst hstep
      split
      · exact UInt64.le_iff_toNat_le.2 (Nat.zero_le _)
      · rename_i hne
        have hone : (1 : UInt64) ≤ n := by
          rw [UInt64.le_iff_toNat_le]
          have hpos : n.toNat ≠ 0 := fun hz => hne (UInt64.toNat_inj.1 hz)
          exact Nat.pos_of_ne_zero hpos
        rw [UInt64.le_iff_toNat_le, UInt64.toNat_sub_of_le _ _ hone]
        exact Nat.sub_le _ _
    have hbefore := UInt64.le_trans hbefore hhigh
    show start ≤ (if before ≤ start then start else before) ∧
      (if before ≤ start then start else before) ≤ stop
    split
    · exact ⟨UInt64.le_refl _, hspan⟩
    · rename_i hlater
      exact ⟨UInt64.le_of_lt (UInt64.not_le.1 hlater), hbefore⟩

/-- Where the rounded crossing of a rising spread still has a negative spread, it lies before the end of
the span, so there is a next millisecond. -/
theorem rounded_lt (hspan : start ≤ stop) (hopposite : d0.Opposite d1)
    (hd1 : spread bid ask stop = .ok d1) (hpositive : .zero ≤ d1) {t value : Decimal} {n : UInt64}
    (ht : crossing start stop d0 d1 = .ok t) (hn : toMillis t.ceil = .ok n)
    (hvalue : spread bid ask n = .ok value) (hnegative : value < .zero) : n < stop := by
  obtain ⟨-, hhigh⟩ := (between_crossing hspan hopposite ht).ceil.toUInt64? (toMillis_eq_ok.1 hn)
  rw [UInt64.lt_iff_toNat_lt]
  refine Nat.lt_of_le_of_ne (UInt64.le_iff_toNat_le.1 hhigh) fun heq => ?_
  rw [UInt64.toNat_inj.1 heq, hd1] at hvalue
  cases hvalue
  exact Decimal.not_lt.2 hpositive hnegative

theorem toNat_add_one_of_lt {n : UInt64} (h : n < stop) : (n + 1).toNat = n.toNat + 1 := by
  rw [UInt64.lt_iff_toNat_lt] at h
  have hbound := stop.toNat_lt
  rw [UInt64.toNat_add]
  exact Nat.mod_eq_of_lt (by simp only [UInt64.toNat_one]; omega)

theorem firstValid?_within (hspan : start ≤ stop) (hopposite : d0.Opposite d1)
    (hd1 : spread bid ask stop = .ok d1) (hpositive : .zero ≤ d1) {first : UInt64}
    (h : firstValid? bid ask start stop d0 d1 = .ok (some first)) :
    start ≤ first ∧ first ≤ stop := by
  obtain ⟨t, n, d, ht, hn, hd, htried⟩ := firstValid?_eq_ok h
  have hcrossed := (between_crossing hspan hopposite ht).ceil
  obtain ⟨hlow, -⟩ := hcrossed.toUInt64? (toMillis_eq_ok.1 hn)
  have hcorrected : start ≤ if d < .zero then n + 1 else n := by
    split
    · rename_i hnegative
      have hnext := toNat_add_one_of_lt (rounded_lt hspan hopposite hd1 hpositive ht hn hd hnegative)
      rw [UInt64.le_iff_toNat_le] at hlow ⊢
      omega
    · exact hlow
  generalize (if d < Decimal.zero then n + 1 else n) = candidate at htried hcorrected
  cases htried with
  | taken hwithin he hvalid => exact ⟨hcorrected, hwithin⟩

/-- The crossing of a rising spread is rounded to an instant from which it is corrected by a
millisecond. -/
def Corrects (bid ask : PriceCurve) (n : UInt64) : Prop :=
  let start := max bid.startTime ask.startTime
  let stop := min bid.endTime ask.endTime
  start ≤ stop ∧ ∃ d0 d1 t value, spread bid ask start = .ok d0 ∧ spread bid ask stop = .ok d1 ∧
    d0 < .zero ∧ .zero ≤ d1 ∧ crossing start stop d0 d1 = .ok t ∧ toMillis t.ceil = .ok n ∧
    spread bid ask n = .ok value ∧ value < .zero

theorem Corrects.lt {n : UInt64} (h : Corrects bid ask n) : n < min bid.endTime ask.endTime := by
  obtain ⟨hspan, d0, d1, t, value, -, hd1, hfirst, hlast, ht, hn, hvalue, hnegative⟩ := h
  exact rounded_lt hspan (.inr ⟨hfirst, hlast⟩) hd1 hlast ht hn hvalue hnegative

theorem validInterval?_within {first last : UInt64}
    (h : validInterval? bid ask = .ok (some (first, last))) :
    max bid.startTime ask.startTime ≤ first ∧ first ≤ last ∧
      last ≤ min bid.endTime ask.endTime := by
  obtain ⟨hspan, d0, d1, hd0, hd1, hfound⟩ := validInterval?_eq_some h
  cases hfound with
  | always h0 h1 => exact ⟨UInt64.le_refl _, hspan, UInt64.le_refl _⟩
  | falls h0 h1 hlast =>
    obtain ⟨hlow, hhigh⟩ := lastValid_within hspan (.inl ⟨h0, h1⟩) hlast
    exact ⟨UInt64.le_refl _, hlow, hhigh⟩
  | rises h0 h1 hfirst =>
    obtain ⟨hlow, hhigh⟩ := firstValid?_within hspan (.inr ⟨h0, h1⟩) hd1 h1 hfirst
    exact ⟨hlow, hhigh, UInt64.le_refl _⟩

end PriceCurve

end OrderBook
