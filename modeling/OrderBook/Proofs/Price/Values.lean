import OrderBook.Proofs.Decimal.Quotient
import OrderBook.Proofs.Price.Interval

/-!
The values of a price curve. Each of the four steps of an interpolation is rounded correctly, so later
values are never behind earlier ones on the way from the start price to the end price. They do not pass
the end price either: where the whole move is rounded up, it has so many digits that the share of all
milliseconds but one lies below it by more than all roundings together.
-/

namespace OrderBook

open Decimal (Rounds Near)

namespace PriceCurve

variable {c : PriceCurve} {delta p q x y : Decimal} {e d n : UInt64} {gap : ℚ}

/-- The share of a move that falls on `elapsed` out of `duration`. -/
def share? (delta : Decimal) (elapsed duration : UInt64) : Option Decimal := do
  let x ← delta.mul? (.ofUInt64 elapsed)
  x.div? (.ofUInt64 duration)

theorem interpolate_eq_ok : c.interpolate e n = .ok p ↔
    ∃ delta y, c.endPrice.sub? c.startPrice = some delta ∧ share? delta e n = some y ∧
      c.startPrice.add? y = some p := by
  rw [interpolate, bind_eq_ok]
  simp only [orFail_eq_ok, share?, Option.bind_eq_bind, Option.bind_eq_some_iff]
  constructor
  · rintro ⟨delta, hdelta, x, hx, y, hy, hp⟩
    exact ⟨delta, y, hdelta, ⟨x, hx, hy⟩, hp⟩
  · rintro ⟨delta, y, hdelta, ⟨x, hx, hy⟩, hp⟩
    exact ⟨delta, hdelta, x, hx, y, hy, hp⟩

theorem share?_eq_some (h : share? delta e n = some y) :
    ∃ x, Rounds (delta.value * e.toNat) x ∧ Near x.value (delta.value * e.toNat) ∧
      Rounds (x.value / n.toNat) y := by
  obtain ⟨x, hx, hy⟩ := Option.bind_eq_some_iff.1 h
  have hproduct := Decimal.rounds_mul? hx
  have hquotient := Decimal.rounds_div? hy
  rw [Decimal.value_ofUInt64] at hproduct hquotient
  exact ⟨x, hproduct, Decimal.near_mul?_ofUInt64 hx, hquotient⟩

theorem share?_mono {p q : Decimal} (hp : share? delta e n = some p) (hq : share? delta d n = some q)
    (h : delta.value * e.toNat ≤ delta.value * d.toNat) : p.value ≤ q.value := by
  obtain ⟨x, hx, -, hp⟩ := share?_eq_some hp
  obtain ⟨y, hy, -, hq⟩ := share?_eq_some hq
  exact hp.mono hq (div_le_div_of_nonneg_right (hx.mono hy h) (Nat.cast_nonneg _))

/-! The end is not passed -/

theorem le_mul_of_near {m r : ℚ} (hr : 0 ≤ r) (hm : 0 ≤ m) (hroom : (r + m / 10 ^ 28) * n.toNat ≤ m)
    (hx : Near x.value (m * e.toNat)) (he : e < n) : x.value ≤ (m - r) * n.toNat := by
  have hpositive : 0 ≤ x.value := hx.nonneg_iff.2 (mul_nonneg hm (Nat.cast_nonneg _))
  obtain ⟨-, hhigh⟩ := abs_le.1 hx
  rw [abs_of_nonneg hpositive] at hhigh
  have hnext : (e.toNat : ℚ) + 1 ≤ n.toNat := by exact_mod_cast UInt64.lt_iff_toNat_lt.1 he
  have hproduct : m * e.toNat + m ≤ m * n.toNat := by
    rw [← mul_add_one]
    exact mul_le_mul_of_nonneg_left hnext hm
  have hrest : 0 ≤ r * n.toNat := mul_nonneg hr (Nat.cast_nonneg _)
  by_contra hlt
  linarith

theorem toNat_le (n : UInt64) : (n.toNat : ℚ) ≤ 2 ^ 64 := by exact_mod_cast n.toNat_lt.le

/-- The number next to a positive one with a long mantissa, and why a share does not reach beyond. -/
theorem exists_before {t : Nat} {z : ℤ} (ht : t ≤ 28) (hpositive : 0 < z)
    (hlimit : z < Decimal.mantissaLimit) (hlong : (Decimal.mantissaLimit : ℤ) ≤ 10 * z) (n : UInt64) :
    ∃ b : Decimal, b.value = (z : ℚ) / 10 ^ t - 1 / 10 ^ t ∧
      (1 / 10 ^ t + (z : ℚ) / 10 ^ t / 10 ^ 28) * n.toNat ≤ (z : ℚ) / 10 ^ t := by
  refine ⟨⟨false, (z - 1).toNat, t, by omega, ht⟩, ?_, ?_⟩
  · have hdigits : (((z - 1).toNat : ℕ) : ℚ) = z - 1 := by
      have hdigits : (((z - 1).toNat : ℕ) : ℤ) = z - 1 := Int.toNat_of_nonneg (by omega)
      exact_mod_cast congrArg (Int.cast : ℤ → ℚ) hdigits
    rw [Decimal.value_eq_signOf, Decimal.signOf, if_neg Bool.false_ne_true, one_mul, hdigits, sub_div]
  · have hlong : (Decimal.mantissaLimit : ℚ) ≤ 10 * z := by exact_mod_cast hlong
    have hlimit : (z : ℚ) ≤ Decimal.mantissaLimit := by exact_mod_cast hlimit.le
    simp only [Decimal.mantissaLimit, Nat.cast_ofNat] at hlong hlimit
    have hunits : (1 + (z : ℚ) / 10 ^ 28) * n.toNat ≤ 9 * 2 ^ 64 :=
      mul_le_mul (by linarith) (toNat_le n) (Nat.cast_nonneg _) (by norm_num)
    have hunit : (1 / 10 ^ t + (z : ℚ) / 10 ^ t / 10 ^ 28) * n.toNat =
        (1 + (z : ℚ) / 10 ^ 28) * n.toNat / 10 ^ t := by ring
    rw [hunit]
    exact div_le_div_of_nonneg_right (by linarith) (by positivity)

/-- A share of a rounded move is at most the exact one, unless it is the share of all milliseconds. -/
theorem share_le (hdelta : Rounds gap delta) (hgap : 0 ≤ gap) (hgrid : ∃ k : ℤ, gap * 10 ^ 28 = k)
    (hx : Near x.value (delta.value * e.toNat)) (hy : Rounds (x.value / n.toNat) y) (he : e < n) :
    y.value ≤ gap := by
  have hn : (0 : ℚ) < n.toNat := by
    exact_mod_cast Nat.lt_of_le_of_lt (Nat.zero_le _) (UInt64.lt_iff_toNat_lt.1 he)
  have hpositive := hdelta.nonneg hgap
  by_cases hover : delta.value ≤ gap
  · have hle : x.value ≤ (delta.value - 0) * n.toNat := by
      refine le_mul_of_near le_rfl hpositive ?_ hx he
      have hshare : delta.value / 10 ^ 28 * n.toNat ≤ delta.value / 10 ^ 28 * 2 ^ 64 :=
        mul_le_mul_of_nonneg_left (toNat_le n) (by positivity)
      linarith
    rw [sub_zero, ← div_le_iff₀ hn] at hle
    exact le_trans (hy.ge hle) hover
  · -- The move was rounded up, so it has a long mantissa and the number below it is below the exact one.
    have hover := lt_of_not_ge hover
    obtain hexact | ⟨t, z, hvalue, ht, hlimit, hlong⟩ := hdelta.exact_or_long hgrid
    · exact absurd hover (by rw [hexact]; exact lt_irrefl _)
    · rw [hvalue] at hover hpositive hx
      have hz : 0 < z := by
        have hz : (0 : ℚ) < (z : ℚ) / 10 ^ t := lt_of_le_of_lt hgap hover
        rw [div_pos_iff_of_pos_right (by positivity)] at hz
        exact_mod_cast hz
      rw [abs_of_pos hz] at hlimit hlong
      obtain ⟨b, hb, hroom⟩ := exists_before ht hz hlimit hlong n
      have hle : x.value ≤ b.value * n.toNat :=
        hb ▸ le_mul_of_near (by positivity) hpositive hroom hx he
      rw [← div_le_iff₀ hn] at hle
      have hbelow : b.value ≤ gap := by
        by_contra habove
        have habove := hdelta.ge (lt_of_not_ge habove).le
        have hunit : (0 : ℚ) < 1 / 10 ^ t := by positivity
        rw [hvalue, hb] at habove
        linarith
      exact le_trans (hy.ge hle) hbelow

theorem share?_between (hdelta : Rounds gap delta) (hgrid : ∃ k : ℤ, gap * 10 ^ 28 = k)
    (h : share? delta e n = some y) (he : e < n) :
    (0 ≤ gap → 0 ≤ y.value ∧ y.value ≤ gap) ∧ (gap ≤ 0 → gap ≤ y.value ∧ y.value ≤ 0) := by
  obtain ⟨x, hproduct, hnear, hquotient⟩ := share?_eq_some h
  have hcount : (0 : ℚ) ≤ e.toNat := Nat.cast_nonneg _
  have hparts : (0 : ℚ) ≤ n.toNat := Nat.cast_nonneg _
  constructor
  · intro hgap
    have hx := hproduct.nonneg (mul_nonneg (hdelta.nonneg hgap) hcount)
    exact ⟨hquotient.nonneg (div_nonneg hx hparts), share_le hdelta hgap hgrid hnear hquotient he⟩
  · intro hgap
    have hx := hproduct.nonpos (mul_nonpos_of_nonpos_of_nonneg (hdelta.nonpos hgap) hcount)
    refine ⟨?_, hquotient.nonpos (div_nonpos_of_nonpos_of_nonneg hx hparts)⟩
    have hle : y.neg.value ≤ -gap := by
      refine share_le (x := x.neg) (e := e) (n := n) hdelta.neg (neg_nonneg.2 hgap) ?_ ?_ ?_ he
      · obtain ⟨k, hk⟩ := hgrid
        exact ⟨-k, by push_cast; rw [← hk, neg_mul]⟩
      · rw [Decimal.value_neg, Decimal.value_neg, neg_mul]
        exact hnear.neg
      · rw [Decimal.value_neg, neg_div]
        exact hquotient.neg
    rw [Decimal.value_neg] at hle
    exact neg_le_neg_iff.1 hle

/-! Values in their order -/

/-- On the way from the start price to the end price `p` is not behind `q`. -/
def Before (c : PriceCurve) (p q : Decimal) : Prop :=
  (c.startPrice ≤ c.endPrice → p ≤ q) ∧ (c.endPrice ≤ c.startPrice → q ≤ p)

theorem before_refl (c : PriceCurve) (p : Decimal) : c.Before p p :=
  ⟨fun _ => Decimal.le_refl p, fun _ => Decimal.le_refl p⟩

theorem interpolate_between (h : c.interpolate e n = .ok p) (he : e < n) :
    c.Before c.startPrice p ∧ c.Before p c.endPrice := by
  obtain ⟨delta, y, hdelta, hy, hp⟩ := interpolate_eq_ok.1 h
  have hgrid : ∃ k : ℤ, (c.endPrice.value - c.startPrice.value) * 10 ^ 28 = k := by
    obtain ⟨k, hk⟩ := Decimal.exists_value_mul c.endPrice
    obtain ⟨l, hl⟩ := Decimal.exists_value_mul c.startPrice
    exact ⟨k - l, by push_cast; rw [← hk, ← hl, sub_mul]⟩
  obtain ⟨hrises, hfalls⟩ := share?_between (Decimal.rounds_sub? hdelta) hgrid hy he
  have hsum := Decimal.rounds_add? hp
  simp only [Before, Decimal.le_iff_value]
  refine ⟨⟨fun h => ?_, fun h => ?_⟩, ⟨fun h => ?_, fun h => ?_⟩⟩
  · obtain ⟨hstart, -⟩ := hrises (sub_nonneg.2 h)
    exact hsum.le (by linarith)
  · obtain ⟨-, hstart⟩ := hfalls (sub_nonpos.2 h)
    exact hsum.ge (by linarith)
  · obtain ⟨-, hend⟩ := hrises (sub_nonneg.2 h)
    exact hsum.ge (by linarith)
  · obtain ⟨hend, -⟩ := hfalls (sub_nonpos.2 h)
    exact hsum.le (by linarith)

theorem interpolate_mono (hp : c.interpolate e n = .ok p) (hq : c.interpolate d n = .ok q) (h : e ≤ d) :
    c.Before p q := by
  obtain ⟨delta, x, hdelta, hx, hp⟩ := interpolate_eq_ok.1 hp
  obtain ⟨delta', y, hdelta', hy, hq⟩ := interpolate_eq_ok.1 hq
  rw [hdelta] at hdelta'
  cases hdelta'
  have hmove := Decimal.rounds_sub? hdelta
  have hsum := Decimal.rounds_add? hp
  have hsum' := Decimal.rounds_add? hq
  have hcount : (e.toNat : ℚ) ≤ d.toNat := by exact_mod_cast UInt64.le_iff_toNat_le.1 h
  simp only [Before, Decimal.le_iff_value]
  constructor
  · intro hrises
    have hdelta := hmove.nonneg (sub_nonneg.2 hrises)
    have hle := share?_mono hx hy (mul_le_mul_of_nonneg_left hcount hdelta)
    exact hsum.mono hsum' (by linarith)
  · intro hfalls
    have hdelta := hmove.nonpos (sub_nonpos.2 hfalls)
    have hle := share?_mono hy hx (mul_le_mul_of_nonpos_left hcount hdelta)
    exact hsum'.mono hsum (by linarith)

theorem valueAt_cases {t : UInt64} (h : c.valueAt t = .ok p) :
    t ≤ c.startTime ∧ p = c.startPrice ∨ c.startTime < t ∧ c.endTime ≤ t ∧ p = c.endPrice ∨
      c.startTime < t ∧ t < c.endTime ∧
        c.interpolate (t - c.startTime) (c.endTime - c.startTime) = .ok p := by
  rw [valueAt] at h
  split at h
  · rename_i hstart
    cases h
    exact .inl ⟨hstart, rfl⟩
  · rename_i hstart
    have hstart := UInt64.not_le.1 hstart
    split at h
    · rename_i hend
      cases h
      refine .inr (.inl ⟨hstart, ?_, rfl⟩)
      exact hend.elim id fun hempty => UInt64.le_of_lt (UInt64.lt_of_le_of_lt hempty hstart)
    · rename_i hend
      exact .inr (.inr ⟨hstart, UInt64.not_le.1 fun hle => hend (.inl hle), h⟩)

section

variable {start stop t u : UInt64}

theorem elapsed_mono (hstart : start < t) (h : t ≤ u) : t - start ≤ u - start := by
  have ht := UInt64.le_of_lt hstart
  rw [UInt64.le_iff_toNat_le, UInt64.toNat_sub_of_le _ _ ht,
    UInt64.toNat_sub_of_le _ _ (UInt64.le_trans ht h)]
  exact Nat.sub_le_sub_right (UInt64.le_iff_toNat_le.1 h) _

theorem elapsed_lt (hstart : start < t) (h : t < stop) : t - start < stop - start := by
  have ht := UInt64.le_of_lt hstart
  rw [UInt64.lt_iff_toNat_lt, UInt64.toNat_sub_of_le _ _ ht,
    UInt64.toNat_sub_of_le _ _ (UInt64.le_trans ht (UInt64.le_of_lt h))]
  exact Nat.sub_lt_sub_right (UInt64.le_iff_toNat_le.1 ht) (UInt64.lt_iff_toNat_lt.1 h)

end

variable {t u : UInt64}

theorem valueAt_between (h : c.valueAt t = .ok p) : c.Before c.startPrice p ∧ c.Before p c.endPrice := by
  have hends : c.Before c.startPrice c.endPrice := ⟨id, id⟩
  obtain ⟨-, rfl⟩ | ⟨-, -, rfl⟩ | ⟨hstart, hend, h⟩ := valueAt_cases h
  · exact ⟨before_refl c _, hends⟩
  · exact ⟨hends, before_refl c _⟩
  · exact interpolate_between h (elapsed_lt hstart hend)

theorem valueAt_before (ht : t ≤ u) (hp : c.valueAt t = .ok p) (hq : c.valueAt u = .ok q) :
    c.Before p q := by
  obtain ⟨-, rfl⟩ | ⟨hstart, hend, rfl⟩ | ⟨hstart, -, hinside⟩ := valueAt_cases hp
  · exact (valueAt_between hq).1
  · have hstart' := UInt64.lt_of_lt_of_le hstart ht
    have hend' := UInt64.le_trans hend ht
    obtain ⟨hu, -⟩ | ⟨-, -, rfl⟩ | ⟨-, hu, -⟩ := valueAt_cases hq
    · exact absurd hu (UInt64.not_le.2 hstart')
    · exact before_refl c _
    · exact absurd hend' (UInt64.not_le.2 hu)
  · have hstart' := UInt64.lt_of_lt_of_le hstart ht
    obtain ⟨hu, -⟩ | ⟨-, -, rfl⟩ | ⟨-, -, hinside'⟩ := valueAt_cases hq
    · exact absurd hu (UInt64.not_le.2 hstart')
    · exact (valueAt_between hp).2
    · exact interpolate_mono hinside hinside' (elapsed_mono hstart ht)

/-- A curve never leaves the range between its ends and never turns back: later values are between
earlier ones and the end price. -/
theorem valueAt_ordered (c : PriceCurve) (t u : UInt64) (p q : Decimal) (ht : t ≤ u)
    (hp : c.valueAt t = .ok p) (hq : c.valueAt u = .ok q) :
    (c.startPrice ≤ c.endPrice → c.startPrice ≤ p ∧ p ≤ q ∧ q ≤ c.endPrice) ∧
      (c.endPrice ≤ c.startPrice → p ≤ c.startPrice ∧ q ≤ p ∧ c.endPrice ≤ q) := by
  obtain ⟨hrises, hfalls⟩ := (valueAt_between hp).1
  obtain ⟨hrises', hfalls'⟩ := valueAt_before ht hp hq
  obtain ⟨hrises'', hfalls''⟩ := (valueAt_between hq).2
  exact ⟨fun h => ⟨hrises h, hrises' h, hrises'' h⟩, fun h => ⟨hfalls h, hfalls' h, hfalls'' h⟩⟩

def risingByThirds : PriceCurve := ⟨.ofUInt32 1, .ofUInt32 2, 0, 3⟩

theorem valueAt_ordered_risingByThirds :
    ∃ p q, risingByThirds.valueAt 1 = .ok p ∧ risingByThirds.valueAt 2 = .ok q ∧
      .ofUInt32 1 ≤ p ∧ p ≤ q ∧ q ≤ .ofUInt32 2 := by
  let third : Decimal := ⟨false, 13333333333333333333333333333, 28, by decide, by decide⟩
  let thirds : Decimal := ⟨false, 16666666666666666666666666667, 28, by decide, by decide⟩
  have hp : risingByThirds.valueAt 1 = .ok third := by decide +kernel
  have hq : risingByThirds.valueAt 2 = .ok thirds := by decide +kernel
  obtain ⟨hrises, -⟩ := valueAt_ordered risingByThirds 1 2 third thirds (by decide) hp hq
  exact ⟨third, thirds, hp, hq, hrises (by decide +kernel)⟩

end PriceCurve

end OrderBook
