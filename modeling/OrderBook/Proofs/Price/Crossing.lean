import OrderBook.Proofs.Price.Apart
import OrderBook.Proofs.Price.Interval

/-!
The solved crossing. It is always found where the difference of the two spreads is a number, it lies
in the span, and it is less than a millisecond away from the exact one.
-/

namespace OrderBook

namespace PriceCurve

variable {bid ask : PriceCurve} {start stop : UInt64} {d0 d1 : Decimal}

/-- Where the line from `d0` at `start` to `d1` at `stop` is zero. -/
def exactCrossing (start stop : UInt64) (d0 d1 : Decimal) : ℚ :=
  start.toNat + d0.value / (d0.value - d1.value) * (stop.toNat - start.toNat)

/-- The four steps to the crossing are each off by at most a few parts in 10^28, of numbers that have at
most 64 bits. -/
theorem exists_crossing (hspan : start ≤ stop) (hopposite : d0.Opposite d1) {change : Decimal}
    (hchange : d0.sub? d1 = some change) :
    ∃ t, crossing start stop d0 d1 = .ok t ∧ t.Between start stop ∧
      |t.value - exactCrossing start stop d0 d1| < 1 := by
  obtain ⟨ratio, hratio, hpositive, hone, hshare⟩ := Decimal.exists_div?_opposite hopposite hchange
  obtain ⟨offset, hoffset⟩ := Decimal.exists_mul?_share (stop - start) hone
  obtain ⟨hforward, hwithin⟩ := Decimal.mul?_share hpositive hone hoffset
  obtain ⟨t, ht⟩ := Decimal.exists_add?_between hspan hforward hwithin
  have hcrossing : crossing start stop d0 d1 = .ok t := by
    simp [crossing, hchange, hratio, hoffset, ht, orFail]
  have hbetween := between_crossing hspan hopposite hcrossing
  refine ⟨t, hcrossing, hbetween, ?_⟩
  have hoffsetNear : |offset.value - ratio.value * (stop - start).toNat| ≤ |offset.value| / 10 ^ 28 :=
    Decimal.near_mul?_ofUInt64 hoffset
  have hsumNear : |t.value - ((Decimal.ofUInt64 start).value + offset.value)| ≤ |t.value| / 10 ^ 28 :=
    Decimal.near_add? ht
  have hlength : (((stop - start).toNat : Nat) : ℚ) = stop.toNat - start.toNat := by
    rw [UInt64.toNat_sub_of_le _ _ hspan, Nat.cast_sub (UInt64.le_iff_toNat_le.1 hspan)]
  have hoffsetLe : |offset.value| ≤ (stop - start).toNat := by
    rw [Decimal.abs_value, div_le_iff₀ (by positivity)]
    exact_mod_cast hwithin
  have hvalue := hbetween.value
  have hstop : (stop.toNat : ℚ) < 2 ^ 64 := by exact_mod_cast stop.toNat_lt
  have hstart : (0 : ℚ) ≤ start.toNat := Nat.cast_nonneg _
  have hlengthNonneg : (0 : ℚ) ≤ (stop - start).toNat := Nat.cast_nonneg _
  rw [Decimal.value_ofUInt64] at hsumNear
  rw [exactCrossing, ← hlength]
  generalize d0.value / (d0.value - d1.value) = exact at hshare ⊢
  generalize (((stop - start).toNat : Nat) : ℚ) = length at *
  have hscaled : |ratio.value * length - exact * length| ≤ 3 / 10 ^ 28 * length := by
    rw [← sub_mul, abs_mul, abs_of_nonneg hlengthNonneg]
    exact mul_le_mul_of_nonneg_right hshare hlengthNonneg
  rw [abs_of_nonneg (le_trans hstart hvalue.1)] at hsumNear
  rw [abs_le] at hscaled hoffsetNear hsumNear
  rw [abs_lt]
  constructor <;> linarith

theorem crossing_near (hspan : start ≤ stop) (hopposite : d0.Opposite d1) {t : Decimal}
    (h : crossing start stop d0 d1 = .ok t) :
    t.Between start stop ∧ |t.value - exactCrossing start stop d0 d1| < 1 := by
  cases hsub : d0.sub? d1 with
  | none =>
    rw [crossing_eq_apart hsub] at h
    cases h
  | some change =>
    obtain ⟨t', ht', hnear⟩ := exists_crossing hspan hopposite hsub
    rw [h] at ht'
    cases ht'
    exact hnear

/-! Whole milliseconds -/

theorem toMillis_of_between {t : Decimal} (h : t.Between start stop) :
    ∃ n, toMillis t = .ok n ∧ n.toNat = t.wholePart := by
  obtain ⟨n, hn, hwhole⟩ := h.exists_toUInt64?
  exact ⟨n, toMillis_eq_ok.2 hn, hwhole⟩

theorem exists_floorMillis {t : Decimal} (h : t.Between start stop) :
    ∃ n, toMillis (max t.floor (.ofUInt64 start)) = .ok n ∧ start ≤ n ∧ n ≤ stop ∧
      t.value < n.toNat + 1 := by
  have hlow : ¬ t.floor < .ofUInt64 start := by
    rw [Decimal.not_lt, Decimal.le_iff_value, Decimal.value_ofUInt64]
    exact h.floor.value.1
  have hmax : max t.floor (.ofUInt64 start) = t.floor := if_neg hlow
  obtain ⟨n, hn, hwhole⟩ := toMillis_of_between h.floor
  obtain ⟨hstart, hstop⟩ := h.floor.toUInt64? (toMillis_eq_ok.1 hn)
  refine ⟨n, by rw [hmax, hn], hstart, hstop, ?_⟩
  rw [hwhole, h.wholePart_floor]
  exact h.value_lt

theorem exists_ceilMillis {t : Decimal} (h : t.Between start stop) :
    ∃ n, toMillis t.ceil = .ok n ∧ start ≤ n ∧ n ≤ stop ∧
      t.value ≤ n.toNat ∧ (n.toNat : ℚ) < t.value + 1 := by
  obtain ⟨n, hn, hwhole⟩ := toMillis_of_between h.ceil
  obtain ⟨hstart, hstop⟩ := h.ceil.toUInt64? (toMillis_eq_ok.1 hn)
  refine ⟨n, hn, hstart, hstop, ?_⟩
  rw [hwhole]
  exact h.wholePart_ceil

end PriceCurve

end OrderBook
